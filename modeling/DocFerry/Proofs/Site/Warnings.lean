import DocFerry.Proofs.Site.Leading
/-!
# What an assembly warns of

A group lists a page of its folder exactly if a document is written where the page would be (`ListsOwn`), so a page is
warned of exactly if its place has been written to (`addSibling_page`), and a walk converts every document in its
folder (`walkWithin_converts`).

Main result: an assembly warns, in the order of its traversal, once of each document in a folder that is written where
an earlier one has been, and of nothing else, also if it fails on the way (`assemble_warns`).  A document in the root
overwrites another one without a warning (`root_overwrites_quietly`).
-/
namespace DocFerry.Site

open Files Nav

variable {convert : Converter} {docs output : Path} {dirs : List Text} {w u v : World} {entries before : List Sibling}
  {s : Sibling} {as bs : List Address}

/-! ## Walks -/

/-- **A group that lists the pages of its own folder**: those that documents of the folder are written to. -/
def ListsOwn (dirs : List Text) (as : List Address) (g : Nav.Group) : Prop :=
  ∀ slug, slug ∈ g.pages ↔ ∃ a ∈ as, a.folders = dirs ∧ a.listed = slug

section ListsOwn

variable {g : Nav.Group}

theorem ListsOwn.folder (h : ListsOwn dirs as g) (hbs : ∀ b ∈ bs, dirs ++ [s.name] <+: b.folders) (child : Nav.Group) :
    ListsOwn dirs (as ++ bs) (g.addGroup child).2 := by
  intro slug
  have hnone : ¬ ∃ b ∈ bs, b.folders = dirs ∧ b.listed = slug := by
    rintro ⟨b, hb, hfolders, _⟩
    have hlength := (hbs b hb).length_le
    rw [hfolders, List.length_append] at hlength
    simp at hlength
  rw [pages_addGroup, h slug]
  simp only [List.mem_append, or_and_right, exists_or, hnone, or_false]

theorem ListsOwn.page (h : ListsOwn dirs as g) {a : Address} (ha : a.folders = dirs) :
    ListsOwn dirs (as ++ [a]) (g.addPage a.listed).2 := by
  intro slug
  have hpages : slug ∈ (g.addPage a.listed).2.pages ↔ slug ∈ g.pages ∨ slug = a.listed := by
    by_cases hm : a.listed ∈ g.pages
    · rw [Group.addPage_of_mem hm]
      exact ⟨.inl, fun hs => hs.elim id fun he => he ▸ hm⟩
    · rw [addPage_of_not_mem hm]
      simp [Group.pages, Item.slug?]
  simp only [hpages, h slug, List.mem_append, List.mem_singleton, or_and_right, exists_or, exists_eq_left, ha, true_and]
  rw [eq_comm (a := slug)]

/-- **A page is listed before it is added** exactly if its place has been written to. -/
theorem ListsOwn.mem_pages_iff (h : ListsOwn dirs as g) (hnames : ∀ a ∈ as, '/' ∉ a.file) {a : Address}
    (ha : a.folders = dirs) (hfile : '/' ∉ a.file) : a.listed ∈ g.pages ↔ ∃ b ∈ as, b.target = a.target := by
  rw [h]
  refine exists_congr fun b => and_congr_right fun hb => ⟨fun ⟨hfolders, hlisted⟩ => ?_, fun he => ?_⟩
  · exact (Address.listed_eq_iff (hfolders.trans ha.symm) (hnames b hb) hfile).1 hlisted
  · have hfolders := (Address.target_eq_iff.1 he).1
    exact ⟨hfolders.trans ha, (Address.listed_eq_iff hfolders (hnames b hb) hfile).2 he⟩

end ListsOwn

theorem PageAt.slash_not_mem_file {d : Disk} {a : Address} (h : PageAt d docs a) : '/' ∉ a.file := by
  have hm : a.file ∈ a := by
    rw [Address.file, List.getLast?_eq_some_getLast h.ne_nil]
    exact List.getLast_mem h.ne_nil
  exact (h.names _ hm).1.1.2

/-- **A part of a run that converts every document in a folder**, if it yields a result, and only such documents,
also if it fails on the way. -/
def ConvertsFolder {α : Type} (docs output : Path) (dirs : List Text) (job : Job α) (w : World) : Prop :=
  job.Ends w
    (fun _ v => ∃ as, Converts docs output w as v ∧ (∀ a ∈ as, dirs <+: a.folders) ∧
      ∀ a, PageAt w.disk docs a → dirs <+: a.folders → a ∈ as)
    fun v => ∃ as, Converts docs output w as v ∧ ∀ a ∈ as, dirs <+: a.folders

/-- **A part of a run that adds entries of a folder to its group**, if it yields a result, and that converts only what
they lead to, also if it fails on the way. -/
def Adds (docs output : Path) (dirs : List Text) (w : World) (entries : List Sibling) (job : Job Nav.Group) (u : World) :
    Prop :=
  job.Ends u
    (fun g v => ∃ as, Led docs output dirs w entries as v ∧ Exhausted docs dirs w entries as ∧ ListsOwn dirs as g)
    fun v => ∃ as, Led docs output dirs w entries as v

section AddSibling

variable {below : Path → Text → Job Nav.Group} {label : Text} {g : Nav.Group} (hs : w.disk.Sound)
  (hentries : siblings w.disk (docs.descend dirs) = .ok entries) (hsub : (before ++ [s]).Sublist entries)
  (hdirs : ∀ name ∈ dirs, IsEntryName name ∧ isHidden name = false) (h : Led docs output dirs w before as u)
  (hall : Exhausted docs dirs w before as) (hg : ListsOwn dirs as g)

include hs hentries hsub hdirs h hall hg

/-- **A subfolder added to the group of its folder.** -/
theorem addSibling_folder (hdir : s.isDirectory = true) (hbelow : ConvertsFolder docs output (dirs ++ [s.name])
      (below (docs.descend (dirs ++ [s.name])) (Text.join ['/'] (dirs ++ [s.name]))) u) :
    Adds docs output dirs w (before ++ [s]) (addSibling convert output below (Text.join ['/'] dirs) label g s) u := by
  obtain ⟨hm, hpath, hname⟩ := Led.path hs hentries hsub
  unfold addSibling
  rw [if_pos hdir, hpath, joinPaths_join dirs (fun hc => hname.1.2 (List.mem_of_head? hc)) fun n hn => (hdirs n hn).1.1]
  refine .bind (hbelow.imp (fun _ _ => id) fun v ⟨bs, hconverts, hwithin⟩ =>
    ⟨as ++ bs, h.folder hs hentries hsub hconverts hwithin⟩) fun child v ⟨bs, hconverts, hwithin, hevery⟩ => ?_
  exact ⟨as ++ bs, h.folder hs hentries hsub hconverts hwithin,
    hall.folder hs hentries hm hdir h.converts.emits hevery, hg.folder hwithin child⟩

/-- **A page added to the group of its folder**, which is warned of if its place has been written to. -/
theorem addSibling_page (hp : output.Proper) (hne : dirs ≠ []) (hshown : s.isIgnored = false) (hpage : s.isPage = true) :
    Adds docs output dirs w (before ++ [s]) (addSibling convert output below (Text.join ['/'] dirs) label g s) u := by
  obtain ⟨hm, hpath, hname⟩ := Led.path hs hentries hsub
  have hbase : s.path.name = s.name := by rw [hpath, ← Path.child_descend, Path.name_child]
  have hdir : s.isDirectory = false := by
    simp only [Sibling.isPage, Bool.and_eq_true, Bool.not_eq_true'] at hpage
    exact hpage.1
  have hfolders : Address.folders (dirs ++ [s.name]) = dirs := Address.folders_append dirs s.name
  have hfile : '/' ∉ Address.file (dirs ++ [s.name]) := (Address.file_append dirs s.name).symm ▸ hname.1.2
  unfold addSibling
  rw [if_neg (by simp [hdir]), if_pos hpage]
  refine .bind (P := fun slug v => slug = Address.listed (dirs ++ [s.name]) ∧
    writePage convert output s.path (Text.join ['/'] dirs) (some label) u = (.ok slug, v))
    (.intro (fun slug v hwrite => ⟨?_, hwrite⟩) fun failure v hwrite => ?_) ?_
  · rw [(hasFile_of_writePage hwrite).2, hbase, Address.listed, hfolders, Address.file_append]
  · exact ⟨as, h.unwritten hs hentries hsub hp hdirs hwrite⟩
  · rintro _ v ⟨rfl, hwrite⟩
    have hmem := hg.mem_pages_iff (fun a ha => (h.converts.pages a ha).slash_not_mem_file) hfolders hfile
    have hexhausted : Exhausted docs dirs w (before ++ [s]) (as ++ [dirs ++ [s.name]]) :=
      hall.file hs hentries hm (by simp [hdir]) fun _ => List.mem_singleton_self _
    have hown := hg.page hfolders
    by_cases hseen : Address.listed (dirs ++ [s.name]) ∈ g.pages
    · rw [Group.addPage_of_mem hseen] at hown ⊢
      refine ⟨as ++ [dirs ++ [s.name]], h.page hs hentries hsub hp hdirs hshown hpage hwrite
        (x := { v with log := v.log ++ [⟨.warning, "mint_migrate.walker".toList, overwriteWarning s.path _⟩] }) rfl rfl
        ?_, hexhausted, hown⟩
      rw [if_pos ⟨hmem.1 hseen, hne⟩, warnings_append, hpath]
      rfl
    · rw [show g.addPage _ = (true, _) from if_neg hseen] at hown ⊢
      refine ⟨as ++ [dirs ++ [s.name]], h.page hs hentries hsub hp hdirs hshown hpage hwrite rfl rfl ?_, hexhausted,
        hown⟩
      rw [if_neg fun hover => hseen (hmem.2 hover.1), List.append_nil]

omit hdirs in
/-- **Any other entry** leads to no document. -/
theorem addSibling_other (hdir : ¬ s.isDirectory = true) (hpage : ¬ s.isPage = true) :
    Adds docs output dirs w (before ++ [s]) (addSibling convert output below (Text.join ['/'] dirs) label g s) u := by
  obtain ⟨hm, _⟩ := Led.path hs hentries hsub
  have hexhausted : Exhausted docs dirs w (before ++ [s]) (as ++ []) :=
    hall.file hs hentries hm hdir fun hp => absurd hp hpage
  rw [List.append_nil] at hexhausted
  unfold addSibling
  rw [if_neg hdir, if_neg hpage]
  exact ⟨as, h.mono (List.sublist_append_left _ _), hexhausted, hg⟩

end AddSibling

/-- **A walk converts every document in its folder**, and no other one. -/
theorem walkWithin_converts (hp : output.Proper) : ∀ (depth : Nat) {dirs : List Text} {w : World}, dirs ≠ [] →
    (∀ name ∈ dirs, IsEntryName name ∧ isHidden name = false) → w.disk.Sound →
    ConvertsFolder docs output dirs (walkWithin convert output depth (docs.descend dirs) (Text.join ['/'] dirs)) w
  | 0, _, w, _, _, _ => ⟨[], .refl _ _ _, by simp⟩
  | depth + 1, dirs, w, hne, hdirs, hs => by
    have hnone : ∃ as, Converts docs output w as w ∧ ∀ a ∈ as, dirs <+: a.folders := ⟨[], .refl _ _ _, by simp⟩
    unfold walkWithin
    refine Job.ends_check_bind (fun label _ => Job.ends_check_bind (fun entries hentries => ?_) hnone) hnone
    -- The entries that are shown are added one after another, and lead to every document in the folder.
    refine (Action.Ends.foldlM (I := fun before g u => ∃ as, Led docs output dirs w before as u ∧
      Exhausted docs dirs w before as ∧ ListsOwn dirs as g) (E := fun u => ∃ as, Led docs output dirs w entries as u)
      (fun before s after hl g u hbefore => ?_)
      ⟨[], .refl _ _ _ _, .nil _ _ _, by simp [ListsOwn, Group.pages]⟩).imp (fun g u hend => ?_) fun u hend => ?_
    · obtain ⟨as, hled, hall, hg⟩ := hbefore
      have hfirst : (before ++ [s]).Sublist (entries.filter fun s => !s.isIgnored) := by
        rw [hl]
        exact (List.Sublist.refl before).append (List.singleton_sublist.2 List.mem_cons_self)
      have hsub := hfirst.trans List.filter_sublist
      obtain ⟨hm, hshown⟩ := List.mem_filter.1 (hfirst.subset (by simp : s ∈ before ++ [s]))
      have hshown : s.isIgnored = false := by simpa using hshown
      have hadds : Adds docs output dirs w (before ++ [s])
          (addSibling convert output (walkWithin convert output depth) (Text.join ['/'] dirs) label g s) u := by
        by_cases hdir : s.isDirectory = true
        · have hname := (path_of_siblings hs hentries hm).2
          have hbelow : ∀ name ∈ dirs ++ [s.name], IsEntryName name ∧ isHidden name = false :=
            List.forall_mem_append.2 ⟨hdirs, List.forall_mem_singleton.2 ⟨hname, isIgnored_eq_isHidden s ▸ hshown⟩⟩
          obtain ⟨_, hgrows⟩ := hled.converts.emits.grows hs
          exact addSibling_folder hs hentries hsub hdirs hled hall hg hdir
            (walkWithin_converts hp depth (by simp) hbelow (hgrows.sound hs))
        · by_cases hpage : s.isPage = true
          · exact addSibling_page hs hentries hsub hdirs hled hall hg hp hne hshown hpage
          · exact addSibling_other hs hentries hsub hled hall hg hdir hpage
      exact hadds.imp (fun _ _ => id) fun v hv => hv.imp fun as hled => hled.mono hsub
    · obtain ⟨as, hled, hall, _⟩ := hend
      refine ⟨as, hled.converts, hled.within, fun a ha hfolders => ?_⟩
      obtain ⟨s, hm, hunder⟩ := ha.exists_entry hs hentries hfolders
      refine hall s (List.mem_filter.2 ⟨hm, ?_⟩) a ha hunder
      rw [isIgnored_eq_isHidden, (ha.names s.name (hunder.subset (by simp))).2]
      rfl
    · obtain ⟨as, hled⟩ := hend
      exact ⟨as, hled.converts, hled.within⟩

/-! ## The assembly -/

/-- **A source document**, by the names of the entries on the way to it: a page that is reached, and not below the
folder of shared partial pages. -/
structure SourceAt (d : Disk) (docs : Path) (a : Address) : Prop extends PageAt d docs a where
  shared : ∀ name ∈ a.folders.head?, Text.lower name ≠ partialsFolder

section AddEntry

variable {c : Classifier} {b : Buckets}

/-- **An entry of the root that is not left out**, added to the buckets. -/
theorem addEntry_converts (hp : output.Proper) (hs : w.disk.Sound)
    (hentries : siblings w.disk (docs.descend []) = .ok entries) (hsub : (before ++ [s]).Sublist entries)
    (hskip : isSkipped s = false) (h : Led docs output [] w before as u) (hall : Exhausted docs [] w before as) :
    (addEntry convert output c b s).Ends u
      (fun _ v => ∃ as, Led docs output [] w (before ++ [s]) as v ∧ Exhausted docs [] w (before ++ [s]) as)
      fun v => ∃ as, Led docs output [] w (before ++ [s]) as v := by
  obtain ⟨hm, hpath, hname⟩ := Led.path hs hentries hsub
  have hshown : s.isIgnored = false := by
    simp only [isSkipped, Bool.or_eq_false_iff] at hskip
    exact hskip.1
  obtain ⟨_, hgrows⟩ := h.converts.emits.grows hs
  unfold addEntry
  rw [if_neg (by simp [hskip])]
  by_cases hdir : s.isDirectory = true
  · have hwalk : ConvertsFolder docs output ([] ++ [s.name]) (walk convert output s.path s.name) u := by
      rw [hpath]
      exact walkWithin_converts hp u.disk.depthBound (by simp)
        (by simpa using ⟨hname, isIgnored_eq_isHidden s ▸ hshown⟩) (hgrows.sound hs)
    rw [if_pos hdir]
    refine .bind (hwalk.imp (fun _ _ => id) fun v hv => ?_) fun g v hv => ?_
    · obtain ⟨bs, hconverts, hwithin⟩ := hv
      exact ⟨as ++ bs, h.folder hs hentries hsub hconverts hwithin⟩
    · obtain ⟨bs, hconverts, hwithin, hevery⟩ := hv
      exact ⟨as ++ bs, h.folder hs hentries hsub hconverts hwithin,
        hall.folder hs hentries hm hdir h.converts.emits hevery⟩
  · rw [if_neg hdir]
    by_cases hpage : s.isPage = true
    · rw [if_pos hpage]
      refine .bind (P := fun slug v => writePage convert output s.path [] (some gettingStartedLabel) u = (.ok slug, v))
        (.intro (fun slug v hwrite => hwrite) fun failure v hwrite => ?_) fun slug v hwrite => ?_
      · exact ⟨as, h.unwritten hs hentries hsub hp (by simp) hwrite⟩
      · exact ⟨as ++ [[] ++ [s.name]], h.page hs hentries hsub hp (by simp) hshown hpage hwrite rfl rfl (by simp),
          hall.file hs hentries hm hdir fun _ => List.mem_singleton_self _⟩
    · have hexhausted : Exhausted docs [] w (before ++ [s]) (as ++ []) :=
        hall.file hs hentries hm hdir fun hp => absurd hp hpage
      rw [List.append_nil] at hexhausted
      rw [if_neg hpage]
      exact ⟨as, h.mono (List.sublist_append_left _ _), hexhausted⟩

/-- **An assembly converts every source document**, if it yields a result, and no other document. -/
theorem assemble_ends (hp : output.Proper) (hs : w.disk.Sound) : (assemble convert output c docs).Ends w
    (fun _ v => ∃ as, Converts docs output w as v ∧ (∀ a ∈ as, SourceAt v.disk docs a) ∧
      ∀ a, SourceAt w.disk docs a → a ∈ as)
    fun v => ∃ as, Converts docs output w as v ∧ ∀ a ∈ as, SourceAt v.disk docs a := by
  have hsources : ∀ {entries : List Sibling} {as : List Address} {v : World},
      Led docs output [] w (entries.filter fun s => !isSkipped s) as v → ∀ a ∈ as, SourceAt v.disk docs a := by
    intro entries as v h a ha
    obtain ⟨s, hm, hunder⟩ := h.under a ha
    exact ⟨h.converts.pages a ha, not_shared_of_under (by simpa using (List.mem_filter.1 hm).2) hunder⟩
  unfold assemble
  refine Job.ends_check_bind (fun entries hentries => ?_) ⟨[], .refl _ _ _, by simp⟩
  rw [← Path.descend_nil docs] at hentries
  refine (Action.Ends.foldlM (I := fun before _ u => ∃ as, Led docs output [] w (before.filter fun s => !isSkipped s)
      as u ∧ Exhausted docs [] w (before.filter fun s => !isSkipped s) as)
    (E := fun u => ∃ as, Led docs output [] w (entries.filter fun s => !isSkipped s) as u)
    (fun before s after hl b u ⟨as, hled, hall⟩ => ?_) ⟨[], .refl _ _ _ _, .nil _ _ _⟩).imp
    (fun b u ⟨as, hled, hall⟩ => ⟨as, hled.converts, hsources hled, fun a ha => ?_⟩)
    fun u ⟨as, hled⟩ => ⟨as, hled.converts, hsources hled⟩
  · rw [List.filter_append]
    by_cases hskip : isSkipped s = true
    · rw [addEntry_skipped hskip, List.filter_cons_of_neg (by simp [hskip]), List.filter_nil, List.append_nil]
      exact ⟨as, hled, hall⟩
    · rw [List.filter_cons_of_pos (by simpa using hskip), List.filter_nil]
      have hfirst : ((before.filter fun s => !isSkipped s) ++ [s]).Sublist (entries.filter fun s => !isSkipped s) := by
        rw [hl, List.filter_append, List.filter_cons_of_pos (by simpa using hskip)]
        exact (List.Sublist.refl _).append (List.singleton_sublist.2 List.mem_cons_self)
      exact (addEntry_converts hp hs hentries (hfirst.trans List.filter_sublist) (by simpa using hskip) hled hall).imp
        (fun _ _ => id) fun v ⟨as, hled⟩ => ⟨as, hled.mono hfirst⟩
  · obtain ⟨s, hm, hunder⟩ := ha.toPageAt.exists_entry hs hentries List.nil_prefix
    have hskip := not_skipped_of_under hunder (fun name hn => (ha.names name hn).2) ha.page ha.shared
    exact hall s (List.mem_filter.2 ⟨hm, by rw [hskip]; rfl⟩) a ha.toPageAt hunder

/-- **An assembly warns of the documents in folders that are written where an earlier one has been.**  It converts
source documents, each once, in the order of its traversal, and all of them if it yields a result.  The log has a
warning, by its path and its slug, for each of them that lies in a folder and is written where an earlier one of this
assembly has been, in the same order, and no other warnings; also if the assembly fails on the way. -/
theorem assemble_warns {w' : World} {r : Except Failure Buckets} (hp : output.Proper) (hs : w.disk.Sound)
    (hrun : assemble convert output c docs w = (r, w')) :
    ∃ as : List Address, as.Nodup ∧ as.Pairwise (ListedBefore docs output w w') ∧
      (∀ a ∈ as, SourceAt w'.disk docs a) ∧ (∀ b, r = .ok b → ∀ a, SourceAt w.disk docs a → a ∈ as) ∧
      w'.written.map Emission.target = w.written.map Emission.target ++ as.map (targetAt output) ∧
      warnings w'.log = warnings w.log ++ (warned as).map (overwriteRecord docs) := by
  have hnodup : ∀ {as : List Address}, as.Pairwise (ListedBefore docs output w w') → as.Nodup := by
    intro as h
    refine h.imp fun {a b} hab he => ?_
    exact ListedBefore.irrefl hs b (he ▸ hab)
  rcases (assemble_ends hp hs).elim hrun with ⟨b, rfl, as, hconverts, hsources, hall⟩ | ⟨⟨_, rfl⟩, as, hconverts, hsources⟩
  · exact ⟨as, hnodup hconverts.order, hconverts.order, hsources, fun _ _ => hall, hconverts.targets, hconverts.warns⟩
  · exact ⟨as, hnodup hconverts.order, hconverts.order, hsources, by simp, hconverts.targets, hconverts.warns⟩

end AddEntry

/-- **A site with two pairs of documents**, each of which is written to one place: one in a folder, one in the root. -/
def twinSite : Disk where
  entries := [(["docs"], .directory), (["docs", "a.md"], .file [0x61]), (["docs", "a.mdx"], .file [0x62]),
    (["docs", "g"], .directory), (["docs", "g", "a.md"], .file [0x63]), (["docs", "g", "a.mdx"], .file [0x64])].map
      fun e => (e.1.map String.toList, e.2)

theorem twinSite_isTree : twinSite.IsTree := ⟨by decide, by decide, by decide, by decide⟩

theorem assemble_warns_twinSite : ∃ b w',
    assemble (·.raw) (.word "out") .standard (.word "docs") { disk := twinSite } = (.ok b, w') ∧
      ∃ as : List Address, as.Nodup ∧ (∀ a, SourceAt twinSite (.word "docs") a → a ∈ as) ∧
        warnings w'.log = (warned as).map (overwriteRecord (.word "docs")) := by
  obtain ⟨b, w', hrun⟩ := Action.exists_eq_ok (show (assemble (·.raw) (.word "out") .standard (.word "docs")
    { disk := twinSite }).1.isOk = true by decide +kernel)
  obtain ⟨as, hnodup, _, _, hall, _, hwarns⟩ := assemble_warns (w := { disk := twinSite }) (Path.ofText_proper _)
    twinSite_isTree.sound hrun
  exact ⟨b, w', hrun, as, hnodup, hall b rfl, by simpa [warnings] using hwarns⟩

/-- **A document in the root overwrites another one without a warning**, where one in a folder is warned of. -/
theorem root_overwrites_quietly : ∃ b w',
    assemble (·.raw) (.word "out") .standard (.word "docs") { disk := twinSite } = (.ok b, w') ∧
      w'.written.map Emission.target = ["out/a.mdx", "out/a.mdx", "out/g/a.mdx", "out/g/a.mdx"].map Path.word ∧
      warnings w'.log = [overwriteRecord (.word "docs") (["g", "a.mdx"].map String.toList)] := by
  obtain ⟨b, w', hrun⟩ := Action.exists_eq_ok (show (assemble (·.raw) (.word "out") .standard (.word "docs")
    { disk := twinSite }).1.isOk = true by decide +kernel)
  have htold : ((assemble (·.raw) (.word "out") .standard (.word "docs") { disk := twinSite }).2.written.map
      Emission.target, warnings (assemble (·.raw) (.word "out") .standard (.word "docs") { disk := twinSite }).2.log) =
        (["out/a.mdx", "out/a.mdx", "out/g/a.mdx", "out/g/a.mdx"].map Path.word,
          [overwriteRecord (.word "docs") (["g", "a.mdx"].map String.toList)]) := by decide +kernel
  rw [hrun] at htold
  obtain ⟨hwritten, hwarns⟩ := Prod.mk.inj htold
  exact ⟨b, w', hrun, hwritten, hwarns⟩

end DocFerry.Site
