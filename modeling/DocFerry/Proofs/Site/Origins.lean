import DocFerry.Proofs.Site.Leaves
/-!
# Where pages come from

Whatever the walk of a run reads is a document at the time, and stays one, so every page written and every slug listed
is that of a document that is there in the end (`assemble_sourced`).  Outside the output folder these are the documents
that were there before the run; a page that comes from none of them comes from below the output folder, which then lies
inside the documents (`run_origins`).  There a run does read its own pages again (`run_reads_own_pages`).
-/
namespace DocFerry.Site

open Files Nav

/-- **The slug that a document is listed by.** -/
def Address.listed (a : Address) : Text := Nav.slug (Text.join ['/'] a.folders) (Path.baseName a.file)

/-- **Slugs and written pages that come from source documents.** -/
structure Sourced (l : Location) (output : Path) (slugs : List Text) (w : World) : Prop where
  listed : ∀ slug ∈ slugs, ∃ a, IsSource w.disk l a ∧ a.listed = slug
  written : ∀ e ∈ w.written, ∃ a, IsSource w.disk l a ∧ targetAt output a = e.target

/-- **A source document stays one** while the disk grows. -/
theorem IsSource.grown {area : Area} {d d' : Disk} {l : Location} {a : Address} (h : IsSource d l a)
    (hg : d.Grows area d') : IsSource d' l a := by
  obtain ⟨bytes, hf⟩ := h.file
  obtain ⟨e, he, hkind⟩ := hg.kept _ _ hf
  cases e with
  | file other => exact ⟨⟨⟨other, he⟩, h.shown, h.page⟩, h.shared⟩
  | directory => exact hkind.elim
  | link => exact hkind.elim

namespace Sourced

variable {l : Location} {output : Path} {slugs more all : List Text} {w w' : World}

theorem none (h : Sourced l output slugs w) : Sourced l output [] w := ⟨by simp, h.written⟩

theorem of_same (h : Sourced l output slugs w) (hd : w'.disk = w.disk) (hw : w'.written = w.written) :
    Sourced l output slugs w' := ⟨hd ▸ h.listed, by rw [hd, hw]; exact h.written⟩

/-- **Slugs listed before and those of a step** come from documents that are there after it. -/
theorem step {area : Area} (h : Sourced l output slugs w) (hg : w.disk.Grows area w'.disk)
    (k : Sourced l output more w') (hall : ∀ slug ∈ all, slug ∈ slugs ∨ slug ∈ more) : Sourced l output all w' := by
  refine ⟨fun slug hs => ?_, k.written⟩
  rcases hall slug hs with hs | hs
  · obtain ⟨a, ha, he⟩ := h.listed slug hs
    exact ⟨a, ha.grown hg, he⟩
  · exact k.listed slug hs

end Sourced

/-! ## Pages -/

/-- **Folders that a walk goes into** from the root of the documents. -/
structure Followed (dirs : List Text) : Prop where
  names : ∀ name ∈ dirs, IsEntryName name
  shown : ∀ name ∈ dirs, isHidden name = false
  shared : ∀ name ∈ dirs.head?, Text.lower name ≠ partialsFolder

theorem Followed.child {dirs : List Text} (h : Followed dirs) (hne : dirs ≠ []) {name : Text} (hname : IsEntryName name)
    (hshown : isHidden name = false) : Followed (dirs ++ [name]) := by
  obtain ⟨first, rest, rfl⟩ := List.exists_cons_of_ne_nil hne
  exact ⟨List.forall_mem_append.2 ⟨h.names, List.forall_mem_singleton.2 hname⟩,
    List.forall_mem_append.2 ⟨h.shown, List.forall_mem_singleton.2 hshown⟩, h.shared⟩

variable {convert : Converter} {docs output : Path} {d : Disk} {w w' : World}

theorem grows_of_writePage (hp : output.Proper) {source : Path} {dirs : List Text}
    (hd : ∀ name ∈ dirs, IsEntryName name) (hf : '/' ∉ source.name) {slug : Text} {label : Option Text}
    (hs : w.disk.Sound) (h : writePage convert output source (Text.join ['/'] dirs) label w = (.ok slug, w')) :
    ∃ area, w.disk.Grows area w'.disk := by
  have hk := @writePage_emits convert output hp source dirs hd hf label w
  rw [h] at hk
  exact hk.grows hs

/-- **A page that is written** comes from the document at its address. -/
theorem writePage_sourced (hsound : d.Sound) (hfree : d.LinkFree (d.settle docs)) (hp : output.Proper)
    (hg : ∃ area, d.Grows area w.disk) {slugs dirs : List Text} (hw : Sourced (d.settle docs) output slugs w)
    (hdirs : Followed dirs) {name : Text} (hname : IsEntryName name) (hshown : isHidden name = false)
    (hpage : isPageName name = true) {slug : Text} {label : Option Text}
    (h : writePage convert output (docs.descend (dirs ++ [name])) (Text.join ['/'] dirs) label w = (.ok slug, w')) :
    Sourced (d.settle docs) output [slug] w' := by
  obtain ⟨area, hg⟩ := hg
  have hs := hg.sound hsound
  have hbase : (docs.descend (dirs ++ [name])).name = name := by rw [← Path.child_descend, Path.name_child]
  obtain ⟨m, bytes, _, _, hf, hslug, _, _, hw'⟩ := writePage_steps h
  have hwritten := congrArg World.written hw'
  obtain ⟨grown, hgrown⟩ := grows_of_writePage hp hdirs.names (by rw [hbase]; exact hname.1.2) hs h
  have hnames : ∀ n ∈ dirs ++ [name], IsEntryName n :=
    List.forall_mem_append.2 ⟨hdirs.names, List.forall_mem_singleton.2 hname⟩
  have hall : ∀ n ∈ dirs ++ [name], isHidden n = false :=
    List.forall_mem_append.2 ⟨hdirs.shown, List.forall_mem_singleton.2 hshown⟩
  -- The page is read from the place of its address, where no link leads away from.
  have hm : m = d.settle docs ++ (dirs ++ [name]) :=
    Disk.location_of_find_descend hs hg.links hfree (not_mem_up hnames) hf
  have hat := ((Disk.walks_of_find hf).2.entry_of_ne_directory (by simp)).2
  have hsource : IsSource w.disk (d.settle docs) (dirs ++ [name]) := by
    refine ⟨⟨⟨bytes, hm ▸ hat⟩, hall, by rwa [Address.file_append]⟩, ?_⟩
    rw [Address.folders_append]
    exact hdirs.shared
  refine ⟨fun other ho => ⟨dirs ++ [name], hsource.grown hgrown, ?_⟩, fun e he => ?_⟩
  · rw [List.mem_singleton.1 ho, hslug, hbase, Address.listed, Address.folders_append, Address.file_append]
  · rw [hwritten] at he
    rcases List.mem_append.1 he with he | he
    · obtain ⟨a, ha, ht⟩ := hw.written e he
      exact ⟨a, ha.grown hgrown, ht⟩
    · refine ⟨dirs ++ [name], hsource.grown hgrown, ?_⟩
      rw [List.mem_singleton.1 he, hbase]
      exact (targetPath_join output hdirs.names hname.1.2).symm

/-! ## Folders -/

theorem mem_slugs_addPage {g : Nav.Group} {slug other : Text} (h : other ∈ (g.addPage slug).2.slugs) :
    other ∈ g.slugs ∨ other ∈ [slug] := by
  by_cases hm : slug ∈ g.pages
  · rw [Group.addPage_of_mem hm] at h
    exact .inl h
  · rw [Group.slugs_addPage hm] at h
    exact List.mem_append.1 h

theorem mem_slugs_addGroup {g child : Nav.Group} {slug : Text} (h : slug ∈ (g.addGroup child).2.slugs) :
    slug ∈ g.slugs ∨ slug ∈ child.slugs := by
  cases he : child.isEmpty with
  | true => exact .inl (by simpa [Group.addGroup, he] using h)
  | false =>
    rw [Group.slugs_addGroup he] at h
    exact List.mem_append.1 h

/-- **The walk of a folder** lists and writes what comes from documents. -/
theorem walkWithin_sourced (hsound : d.Sound) (hfree : d.LinkFree (d.settle docs)) (hp : output.Proper) :
    ∀ (depth : Nat) {slugs dirs : List Text} {w w' : World} {g : Nav.Group}, (∃ area, d.Grows area w.disk) →
    Sourced (d.settle docs) output slugs w → Followed dirs → dirs ≠ [] →
    walkWithin convert output depth (docs.descend dirs) (Text.join ['/'] dirs) w = (.ok g, w') →
    Sourced (d.settle docs) output g.slugs w'
  | 0, _, _, _, _, _, _, _, _, _, h => by cases h
  | depth + 1, slugs, dirs, w, w', g, ⟨area, hg⟩, hw, hdirs, hne, h => by
    obtain ⟨label, entries, _, hentries, hadded⟩ := walkWithin_eq_ok h
    have hs := hg.sound hsound
    have hl := lists_descend hfree hg.links hs (not_mem_up hdirs.names) hentries
    -- Through the entries of a folder, the group built so far comes from documents that are there by then.
    refine (Action.foldlM_keeps (J := fun g u => (∃ area, d.Grows area u.disk) ∧
      Sourced (d.settle docs) output g.slugs u) (fun s hm g u g' u' hstep hj => ?_) hadded ⟨⟨area, hg⟩, hw.none⟩).2
    obtain ⟨⟨grown, hu⟩, hsourced⟩ := hj
    obtain ⟨hm, hshown⟩ := List.mem_filter.1 hm
    have hshown : isHidden s.name = false := by simpa [isIgnored_eq_isHidden] using hshown
    have hname := hl.entryName hs hm
    have hpath : s.path = docs.descend (dirs ++ [s.name]) := by rw [(hl.fits s hm).path, Path.child_descend]
    have hbase : s.path.name = s.name := by rw [(hl.fits s hm).path, Path.name_child]
    obtain ⟨wider, hwider⟩ := grows_of_addSibling hp hdirs.names hname hbase (hu.sound hsound) hstep
    refine ⟨Disk.exists_grows_trans ⟨grown, hu⟩ ⟨wider, hwider⟩, ?_⟩
    rcases addSibling_eq_ok hstep with ⟨_, child, hchild, rfl⟩ | ⟨hpage, slug, v, hslug, rfl, hd, hv⟩ | ⟨_, _, rfl, rfl⟩
    · rw [hpath, joinPaths_join dirs (fun hc => hname.1.2 (List.mem_of_head? hc)) fun n hn => (hdirs.names n hn).1]
        at hchild
      have hbelow := walkWithin_sourced hsound hfree hp depth ⟨grown, hu⟩ hsourced (hdirs.child hne hname hshown)
        (by simp) hchild
      exact hsourced.step hwider hbelow fun slug hs => mem_slugs_addGroup hs
    · simp only [Sibling.isPage, Bool.and_eq_true] at hpage
      rw [hpath] at hslug
      have hone := writePage_sourced hsound hfree hp ⟨grown, hu⟩ hsourced hdirs hname hshown hpage.2 hslug
      exact hsourced.step hwider (hone.of_same hd hv) fun slug hs => mem_slugs_addPage hs
    · exact hsourced

/-! ## The assembly -/

theorem mem_slugs_placeGroup {c : Classifier} {b : Buckets} {name slug : Text} {g : Nav.Group}
    (h : slug ∈ (placeGroup c b name g).slugs) : slug ∈ b.slugs ∨ slug ∈ g.slugs := by
  unfold placeGroup at h
  split at h
  · exact .inl h
  · split at h
    · exact List.mem_append.1 ((b.slugs_hoist g).mem_iff.1 h)
    · exact List.mem_append.1 ((b.slugs_put _ g).mem_iff.1 h)

theorem mem_slugs_addLoose {b : Buckets} {slug other : Text} (h : other ∈ (b.addLoose slug).slugs) :
    other ∈ b.slugs ∨ other ∈ [slug] := by
  by_cases hm : slug ∈ b.loosePages
  · rw [Buckets.addLoose, if_pos hm] at h
    exact .inl h
  · exact List.mem_append.1 ((Buckets.slugs_addLoose hm).mem_iff.1 h)

theorem assemble_sourced (hsound : d.Sound) (hfree : d.LinkFree (d.settle docs)) (hp : output.Proper)
    (hg : ∃ area, d.Grows area w.disk) (hw : Sourced (d.settle docs) output [] w) {c : Classifier} {b : Buckets}
    (h : assemble convert output c docs w = (.ok b, w')) : Sourced (d.settle docs) output b.slugs w' := by
  obtain ⟨area, hg⟩ := hg
  unfold assemble at h
  obtain ⟨entries, _, hentries, hadded⟩ := Action.bind_eq_ok_iff.1 h
  obtain ⟨hentries, rfl⟩ := Job.check_eq_ok.1 hentries
  have hs := hg.sound hsound
  rw [← Path.descend_nil docs] at hentries
  have hl := lists_descend hfree hg.links hs (by simp) hentries
  have hempty : (Buckets.forPlatforms c.platforms).slugs = [] := slugs_forPlatforms _
  refine (Action.foldlM_keeps (J := fun b u => (∃ area, d.Grows area u.disk) ∧
    Sourced (d.settle docs) output b.slugs u) (fun s hm b u b' u' hstep hj => ?_) hadded
    ⟨⟨area, hg⟩, hempty ▸ hw⟩).2
  obtain ⟨⟨grown, hu⟩, hsourced⟩ := hj
  have hname := hl.entryName hs hm
  have hpath : s.path = docs.descend ([] ++ [s.name]) := by rw [(hl.fits s hm).path, Path.child_descend]
  have hbase : s.path.name = s.name := by rw [(hl.fits s hm).path, Path.name_child]
  obtain ⟨y, hvisit, rfl⟩ := addEntry_eq_ok hstep
  obtain ⟨wider, hwider⟩ := (hvisit.keeps (kept_emits hp) hname hbase).grows (hu.sound hsound)
  refine ⟨Disk.exists_grows_trans ⟨grown, hu⟩ ⟨wider, hwider⟩, ?_⟩
  have hshown : isSkipped s = false → isHidden s.name = false := fun hskip => by
    simp only [isSkipped, Bool.or_eq_false_iff, isIgnored_eq_isHidden] at hskip
    exact hskip.1
  cases hvisit with
  | skipped => exact hsourced
  | other => exact hsourced
  | folder hskip _ hwalk =>
    have hshared : Text.lower s.name ≠ partialsFolder := by
      simp only [isSkipped, Bool.or_eq_false_iff, beq_eq_false_iff_ne] at hskip
      exact hskip.2
    have hdirs : Followed [s.name] := ⟨by simpa using hname, by simpa using hshown hskip, by simpa using hshared⟩
    have hwithin := walk_eq_ok hwalk
    rw [hpath] at hwithin
    have hbelow := walkWithin_sourced hsound hfree hp _ ⟨grown, hu⟩ hsourced hdirs (by simp) hwithin
    exact hsourced.step hwider hbelow fun slug hs => mem_slugs_placeGroup hs
  | page hskip hpage hslug =>
    simp only [Sibling.isPage, Bool.and_eq_true] at hpage
    rw [hpath] at hslug
    have hroot : Followed [] := ⟨by simp, by simp, by simp⟩
    have hone := writePage_sourced hsound hfree hp ⟨grown, hu⟩ hsourced hroot hname (hshown hskip) hpage.2 hslug
    exact hsourced.step hwider hone fun slug hs => mem_slugs_addLoose hs

/-! ## The run -/

/-- **A run does not let the output folder hold the documents.** -/
theorem not_around_of_overlaps {d : Disk} {docs output : Path} (h : overlaps d docs output = .ok false) :
    ¬ d.settle output <+: d.settle docs := by
  have hsettle : ∀ {p : Path} {l : Location}, d.resolve p = .ok l → l = d.settle p := by
    intro p l hl
    unfold Disk.resolve at hl
    dsimp only at hl
    split at hl
    · cases hl
    · cases hl
    · exact (Except.ok.inj hl).symm
  unfold overlaps at h
  obtain ⟨inner, hinner, h₁⟩ := bind_eq_ok h
  obtain ⟨outer, houter, h₂⟩ := bind_eq_ok h₁
  rw [← hsettle hinner, ← hsettle houter]
  intro hp
  rw [List.isPrefixOf_iff_prefix.2 hp] at h₂
  cases h₂

/-- **Every file outside the output folder** was there before the run. -/
theorem file_before_run {s : Settings} {o : Outcome} {w w' : World} (htree : w.disk.IsTree) (hproper : s.output.Proper)
    (houtput : w.disk.LinkFree (w.disk.settle s.output)) (hrun : s.run w = (.ok o, w')) {m : Location}
    {bytes : Text.Utf8.Octets} (hm : ¬ w.disk.settle s.output <+: m) (hf : w'.disk.locate? m = some (.file bytes)) :
    w.disk.locate? m = some (.file bytes) := by
  obtain ⟨static, d₁, _, hprepare, hsound₁, hwrote⟩ := run_wrote hproper htree.sound hrun
  obtain ⟨e, _, hlinks, hkept, _, hmade⟩ := prepare_eq_ok hproper hprepare
  have hlinks := (hlinks htree.sound houtput).trans hmade.links
  have hall : e.Grows (.below (w.disk.settle s.output)) w'.disk :=
    hmade.wide.trans ((hwrote.mono fun q hq => hq.2).below hsound₁ hlinks houtput)
  have hcleared : ¬ s.clears w.disk m := fun ⟨_, k, hk, hkm⟩ =>
    hm (Disk.settle_of_find (.refl _) htree.sound.up_not_mem_here hk ▸ hkm)
  rw [← hkept m hcleared]
  rcases hall.outside m hm with he | ⟨_, he⟩
  · rwa [he] at hf
  · rw [he] at hf; cases hf

/-- **Where a page of a run comes from**: a document that was there before, or one below the output folder, which then
lies inside the documents. -/
inductive Origin (before after : Disk) (docs output : Location) (a : Address) : Prop
  | document : IsSource before docs a → Origin before after docs output a
  | output : docs <+: output → output <+: docs ++ a → IsSource after docs a → Origin before after docs output a

/-- **Pages and slugs come from documents** that are there when the run returns. -/
theorem run_sourced {s : Settings} {o : Outcome} {w w' : World} (htree : w.disk.IsTree) (hproper : s.output.Proper)
    (hdocs : w.disk.LinkFree (w.disk.settle o.docs)) (houtput : w.disk.LinkFree (w.disk.settle s.output))
    (hrun : s.run w = (.ok o, w')) :
    Sourced (w.disk.settle o.docs) s.output (o.tabs.flatMap Tab.slugs) w' ∧
      ∀ p ∈ o.pages, ∃ e ∈ w'.written, e.target = p := by
  obtain ⟨static, w₁, w₂, w₃, images, b, manifest, hfolders, _, hprepare, hassets, hassemble, hmanifest, hwritten, htabs,
    hpages, _⟩ := run_eq_ok hrun
  obtain ⟨e, hsound, hlinks, _, _, hmade⟩ := prepare_eq_ok hproper hprepare
  have hsound := hsound htree.sound
  have hsound₁ := hmade.sound hsound
  have hlinks := hlinks htree.sound houtput
  obtain ⟨l, hl⟩ := find_of_folders hfolders
  have hsettle : e.settle o.docs = w.disk.settle o.docs :=
    (Disk.settle_of_find hlinks htree.sound.up_not_mem_here hl).trans
      (Disk.settle_of_find (.refl _) htree.sound.up_not_mem_here hl).symm
  have hassets' := copyAssets_wrote hproper static w₁
  rw [hassets] at hassets'
  have hsourced := assemble_sourced (w := { w₂ with written := [] }) hsound (hsettle ▸ hlinks.linkFree hdocs) hproper
    ⟨_, hmade.wide.trans (hassets' hsound₁)⟩ ⟨by simp, by simp⟩ hassemble
  -- From the assembly on the disk only grows, so the documents stay.
  have hemits := (@kept_emits .standard _ hproper).assemble s.classifier o.docs { w₂ with written := [] }
  rw [hassemble] at hemits
  obtain ⟨area, hgrown⟩ := hemits.grows ((hassets' hsound₁).sound hsound₁)
  have hlast := write_wrote (proper_child hproper isEntryName_manifestFile) manifest w₃.disk
    (hgrown.sound ((hassets' hsound₁).sound hsound₁))
  rw [hmanifest] at hlast
  refine ⟨⟨fun slug hs => ?_, fun f hf => ?_⟩, fun p hp => ?_⟩
  · rw [htabs, Buckets.slugs_tabs] at hs
    obtain ⟨a, ha, he⟩ := hsourced.listed slug hs
    exact ⟨a, hsettle ▸ ha.grown hlast, he⟩
  · obtain ⟨a, ha, he⟩ := hsourced.written f (hwritten ▸ hf)
    exact ⟨a, hsettle ▸ ha.grown hlast, he⟩
  · rw [hpages, (firstMentions_nodup [] _).2, List.mem_map] at hp
    exact hp.1

/-- **A run migrates the documents, or what lies below its output folder.**  Every page of a run that returns and every
slug in its tabs come from a document that was there before the run, or from one below the output folder, which then
lies inside the documents.  If the output folder does not lie inside the documents, each comes from a document that was
there before: the run never migrates its own output. -/
theorem run_origins {s : Settings} {o : Outcome} {w w' : World} (htree : w.disk.IsTree) (hproper : s.output.Proper)
    (hdocs : w.disk.LinkFree (w.disk.settle o.docs)) (houtput : w.disk.LinkFree (w.disk.settle s.output))
    (hrun : s.run w = (.ok o, w')) :
    (∀ p ∈ o.pages, ∃ a, targetAt s.output a = p ∧
        Origin w.disk w'.disk (w.disk.settle o.docs) (w.disk.settle s.output) a) ∧
      (∀ slug ∈ o.tabs.flatMap Tab.slugs, ∃ a, a.listed = slug ∧
        Origin w.disk w'.disk (w.disk.settle o.docs) (w.disk.settle s.output) a) ∧
      (¬ w.disk.settle o.docs <+: w.disk.settle s.output →
        (∀ p ∈ o.pages, ∃ a, targetAt s.output a = p ∧ IsSource w.disk (w.disk.settle o.docs) a) ∧
        ∀ slug ∈ o.tabs.flatMap Tab.slugs, ∃ a, a.listed = slug ∧ IsSource w.disk (w.disk.settle o.docs) a) := by
  obtain ⟨hsourced, hpages⟩ := run_sourced htree hproper hdocs houtput hrun
  obtain ⟨_, _, _, _, _, _, _, _, hoverlaps, _⟩ := run_eq_ok hrun
  have horigin : ∀ a, IsSource w'.disk (w.disk.settle o.docs) a →
      Origin w.disk w'.disk (w.disk.settle o.docs) (w.disk.settle s.output) a := by
    intro a ha
    by_cases hbelow : w.disk.settle s.output <+: w.disk.settle o.docs ++ a
    · have hinside := (List.prefix_or_prefix_of_prefix (List.prefix_append _ a) hbelow).resolve_right
        (not_around_of_overlaps hoverlaps)
      exact .output hinside hbelow ha
    · obtain ⟨bytes, hf⟩ := ha.file
      exact .document ⟨⟨⟨bytes, file_before_run htree hproper houtput hrun hbelow hf⟩, ha.shown, ha.page⟩, ha.shared⟩
  have hpage : ∀ p ∈ o.pages, ∃ a, targetAt s.output a = p ∧ IsSource w'.disk (w.disk.settle o.docs) a := by
    intro p hp
    obtain ⟨e, he, rfl⟩ := hpages p hp
    obtain ⟨a, ha, ht⟩ := hsourced.written e he
    exact ⟨a, ht, ha⟩
  have houtside : ¬ w.disk.settle o.docs <+: w.disk.settle s.output → ∀ a,
      IsSource w'.disk (w.disk.settle o.docs) a → IsSource w.disk (w.disk.settle o.docs) a := by
    intro hn a ha
    cases horigin a ha with
    | document h => exact h
    | output h => exact absurd h hn
  refine ⟨fun p hp => ?_, fun slug hs => ?_, fun hn => ⟨fun p hp => ?_, fun slug hs => ?_⟩⟩
  · obtain ⟨a, ht, ha⟩ := hpage p hp
    exact ⟨a, ht, horigin a ha⟩
  · obtain ⟨a, ha, hslug⟩ := hsourced.listed slug hs
    exact ⟨a, hslug, horigin a ha⟩
  · obtain ⟨a, ht, ha⟩ := hpage p hp
    exact ⟨a, ht, houtside hn a ha⟩
  · obtain ⟨a, ha, hslug⟩ := hsourced.listed slug hs
    exact ⟨a, hslug, houtside hn a ha⟩

theorem run_origins_smallSite : ∃ o w', plainSettings.run { disk := smallSite } = (.ok o, w') ∧
    ∀ p ∈ o.pages, ∃ a, targetAt plainSettings.output a = p ∧ IsSource smallSite (smallSite.settle o.docs) a := by
  obtain ⟨o, w', hrun⟩ := Action.exists_eq_ok (show (plainSettings.run { disk := smallSite }).1.isOk = true by
    decide +kernel)
  have hfound : plainSettings.folders smallSite = .ok (.word "docs", none) := by rfl
  have hdocs : o.docs = .word "docs" := docs_of_run hrun hfound
  obtain ⟨_, _, houtside⟩ := run_origins (w := { disk := smallSite }) smallSite_isTree (Path.ofText_proper _)
    (smallSite_linkFree _) (smallSite_linkFree _) hrun
  exact ⟨o, w', hrun, (houtside (by rw [hdocs]; decide)).1⟩

/-- **A site of one document**, whose name comes before that of its output folder. -/
def loneSite : Disk where
  entries := [(["docs"], .directory), (["docs", "a.md"], .file [0x78])].map fun e => (e.1.map String.toList, e.2)

theorem source_of_loneSite {a : Address} (h : IsSource loneSite ["docs".toList] a) : a = ["a.md".toList] := by
  obtain ⟨bytes, hf⟩ := h.file
  have hm := Disk.mem_entries_of_locate? (by simp) hf
  have hentry : a = ["a.md".toList] ∧ bytes = [0x78] := by simpa [loneSite] using hm
  exact hentry.1

/-- **A run into a folder of the documents reads its own pages.**  The page just written is found in the output folder,
and is migrated as another document. -/
theorem run_reads_own_pages : ∃ o w', (nestedSettings true).run { disk := loneSite } = (.ok o, w') ∧
    o.docs = .word "docs" ∧ loneSite.settle o.docs = ["docs".toList] ∧
    (∃ p ∈ o.pages, ∀ a, IsSource loneSite ["docs".toList] a → targetAt (nestedSettings true).output a ≠ p) ∧
    ∃ slug ∈ o.tabs.flatMap Tab.slugs, ∀ a, IsSource loneSite ["docs".toList] a → a.listed ≠ slug := by
  obtain ⟨o, w', hrun⟩ := Action.exists_eq_ok (show ((nestedSettings true).run { disk := loneSite }).1.isOk = true by
    decide +kernel)
  have hdocs : o.docs = .word "docs" := docs_of_run hrun (by rfl)
  have hmade : (((nestedSettings true).run { disk := loneSite }).1.toOption.map fun o =>
      (o.pages, o.tabs.flatMap Tab.slugs)) =
        some ([.word "docs/out/a.mdx", .word "docs/out/out/a.mdx"], ["a".toList, "out/a".toList]) := by
    decide +kernel
  rw [hrun] at hmade
  obtain ⟨hpages, hslugs⟩ := Prod.mk.inj (Option.some.inj hmade)
  refine ⟨o, w', hrun, hdocs, by rw [hdocs]; decide, ⟨.word "docs/out/out/a.mdx", ?_, fun a ha => ?_⟩,
    "out/a".toList, ?_, fun a ha => ?_⟩
  · rw [hpages]
    decide
  · rw [source_of_loneSite ha]
    decide
  · rw [hslugs]
    decide
  · rw [source_of_loneSite ha]
    decide

end DocFerry.Site
