import Mathlib.Data.List.TakeWhile
import DocFerry.Proofs.Site.Warnings
/-!
# The slug of a page and its place

A page is listed by the path it is written to below the root of the new site, without the extension, but with the
backslashes in the names of its folders read as slashes.  So the slug is that path exactly if no folder's name holds a
backslash (`Address.listed_eq_slug_iff`), and an assembly lists exactly the slugs of what it writes
(`assemble_slugged`).

Main result: pages written to one place have one slug, and of pages whose folders' names hold no backslash only those
(`assemble_slugs`).  A backslash in a folder's name can give two pages one slug (`slug_shared_by_pages`).
-/
namespace DocFerry.Site

open Files Nav

/-! ## One page -/

theorem not_mem_forwardSlashes (s : Text) : '\\' ∉ forwardSlashes s := by
  intro h
  obtain ⟨c, _, hc⟩ := List.mem_map.1 h
  split at hc
  · cases hc
  · contradiction

/-- **The backslashes of a slug** are those of its page's name. -/
theorem count_slug (directory : Text) {baseName : Text} (h : '/' ∉ baseName) :
    (Nav.slug directory baseName).count '\\' = baseName.count '\\' := by
  have hdrop : ∀ s : Text, (s.dropWhile (· == '/')).count '\\' = s.count '\\' := by
    intro s
    have hnone : (s.takeWhile (· == '/')).count '\\' = 0 := List.count_eq_zero.2 fun hc => by
      simpa using List.mem_takeWhile_imp hc
    have hsplit := congrArg (List.count '\\') (List.takeWhile_append_dropWhile (p := (· == '/')) (l := s))
    rwa [List.count_append, hnone, Nat.zero_add] at hsplit
  have hdirectory : (forwardSlashes directory).count '\\' = 0 := List.count_eq_zero.2 (not_mem_forwardSlashes directory)
  rw [Nav.slug, hdrop, joinPaths, if_neg fun hh => h (List.mem_of_head? hh)]
  split
  · rw [List.count_append, hdirectory, Nat.zero_add]
  · rw [List.count_append, hdirectory, Nat.zero_add]
    exact List.count_cons_of_ne (by decide)

/-- **A document is listed by the path of its page** exactly if no name of its folders holds a backslash. -/
theorem Address.listed_eq_slug_iff {a : Address} (hne : a ≠ []) (hnames : ∀ name ∈ a, IsEntryName name) :
    a.listed = a.slug ↔ ∀ name ∈ a.folders, '\\' ∉ name := by
  have hfile : '/' ∉ a.file := (hnames _ (by rw [Address.file, List.getLast?_eq_some_getLast hne]; simp)).1.2
  constructor
  · intro h name hname hslash
    have hcount : (Path.baseName a.file).count '\\' = a.slug.count '\\' := by
      rw [← h, Address.listed, count_slug _ fun hc => hfile (mem_of_mem_baseName hc)]
    have hfolders : a.folders ≠ [] := List.ne_nil_of_mem hname
    have hin : '\\' ∈ Text.join ['/'] a.folders := (Text.infix_join_of_mem ['/'] hname).subset hslash
    have hpos := List.count_pos_iff.2 hin
    rw [Address.slug, Text.join_append_singleton _ _ _ hfolders, List.count_append, List.count_append] at hcount
    omega
  · intro h
    have hfolders : ∀ name ∈ a.folders, IsEntryName name := fun name hn => hnames name (List.dropLast_subset a hn)
    have hslug := slug_join hfolders h hfile
    rwa [Address.append_eq hne] at hslug

/-- **The path of a page** is its slug with the extension. -/
theorem targetAt_eq_joinText (output : Path) {a : Address} (hd : ∀ name ∈ a.folders, IsEntryName name)
    (hf : '/' ∉ a.file) : targetAt output a = output.joinText (a.slug ++ newExtension) := by
  have hslug : a.slug ++ newExtension = Text.join ['/'] a.target := by
    unfold Address.slug Address.target
    by_cases hfolders : a.folders = []
    · simp [hfolders, Text.join]
    · rw [Text.join_append_singleton _ _ _ hfolders, Text.join_append_singleton _ _ _ hfolders, List.append_assoc]
  rw [hslug, Path.joinText_join output fun name hn => (Address.target_entryNames hd hf name hn).1]
  rfl

/-! ## What is written and what is listed -/

/-- **A part of a run that lists what it writes**: the slugs are those of the documents that it converts. -/
structure Slugged (output : Path) (w : World) (slugs : List Text) (as : List Address) (w' : World) : Prop where
  names : ∀ a ∈ as, ∀ name ∈ a, IsEntryName name
  targets : w'.written.map Emission.target = w.written.map Emission.target ++ as.map (targetAt output)
  slugs : ∀ slug, slug ∈ slugs ↔ ∃ a ∈ as, a.listed = slug

variable {convert : Converter} {docs output : Path} {w u v : World} {slugs more all : List Text} {as bs : List Address}

theorem Slugged.none (output : Path) (w : World) : Slugged output w [] [] w := ⟨by simp, by simp, by simp⟩

theorem Slugged.append (h : Slugged output w slugs as u) (k : Slugged output u more bs v)
    (hall : ∀ slug, slug ∈ all ↔ slug ∈ slugs ∨ slug ∈ more) : Slugged output w all (as ++ bs) v where
  names := List.forall_mem_append.2 ⟨h.names, k.names⟩
  targets := by rw [k.targets, h.targets, List.map_append, List.append_assoc]
  slugs slug := by
    rw [hall, h.slugs, k.slugs]
    simp only [List.mem_append, or_and_right, exists_or]

theorem writePage_slugged (dirs : List Text) (hdirs : ∀ name ∈ dirs, IsEntryName name) {source : Path} {name : Text}
    (hname : IsEntryName name) (hsource : source.name = name) {slug : Text} {label : Option Text}
    (h : writePage convert output source (Text.join ['/'] dirs) label w = (.ok slug, u)) :
    Slugged output w [slug] [dirs ++ [name]] u where
  names := by
    rw [List.forall_mem_singleton]
    exact List.forall_mem_append.2 ⟨hdirs, List.forall_mem_singleton.2 hname⟩
  targets := by rw [(writePage_notes h).1, hsource, targetPath_join output hdirs hname.1.2, List.map_singleton]
  slugs other := by
    rw [(hasFile_of_writePage h).2, hsource]
    simp [Address.listed, Address.folders_append, Address.file_append, eq_comm]

theorem mem_slugs_addPage_iff {g : Nav.Group} {slug other : Text} :
    other ∈ (g.addPage slug).2.slugs ↔ other ∈ g.slugs ∨ other ∈ [slug] := by
  refine ⟨mem_slugs_addPage, fun h => ?_⟩
  by_cases hm : slug ∈ g.pages
  · rw [Group.addPage_of_mem hm]
    exact h.elim id fun h => List.mem_singleton.1 h ▸ mem_slugs_of_mem_pages hm
  · rw [Group.slugs_addPage hm]
    exact List.mem_append.2 h

theorem mem_slugs_addGroup_iff {g child : Nav.Group} {slug : Text} :
    slug ∈ (g.addGroup child).2.slugs ↔ slug ∈ g.slugs ∨ slug ∈ child.slugs := by
  refine ⟨mem_slugs_addGroup, fun h => h.elim (fun h => ?_) (mem_slugs_addGroup_of_child g)⟩
  cases he : child.isEmpty with
  | true => simpa [Group.addGroup, he] using h
  | false =>
    rw [Group.slugs_addGroup he]
    exact List.mem_append_left _ h

/-- **A walk lists what it writes.** -/
theorem walkWithin_slugged (hp : output.Proper) : ∀ (depth : Nat) (dirs : List Text) {w w' : World} {g : Nav.Group},
    (∀ name ∈ dirs, IsEntryName name) → w.disk.Sound →
    walkWithin convert output depth (docs.descend dirs) (Text.join ['/'] dirs) w = (.ok g, w') →
    ∃ as, Slugged output w g.slugs as w'
  | 0, _, _, _, _, _, _, h => by cases h
  | depth + 1, dirs, w, w', g, hdirs, hs, h => by
    obtain ⟨label, entries, _, hentries, hadded⟩ := walkWithin_eq_ok h
    refine (Action.foldlM_keeps (J := fun g u => u.disk.Sound ∧ ∃ as, Slugged output w g.slugs as u)
      (fun s hm g u g' v hstep ⟨hu, as, has⟩ => ?_) hadded ⟨hs, [], .none _ _⟩).2
    obtain ⟨hpath, hname⟩ := path_of_siblings hs hentries (List.mem_filter.1 hm).1
    have hbase : s.path.name = s.name := by rw [hpath, Path.name_child]
    rw [Path.child_descend] at hpath
    have hnames : ∀ name ∈ dirs ++ [s.name], IsEntryName name :=
      List.forall_mem_append.2 ⟨hdirs, List.forall_mem_singleton.2 hname⟩
    obtain ⟨_, hgrows⟩ := grows_of_addSibling hp hdirs hname hbase hu hstep
    refine ⟨hgrows.sound hu, ?_⟩
    rcases addSibling_eq_ok hstep with ⟨_, child, hchild, rfl⟩ | ⟨_, slug, x, hslug, rfl, _, hwritten⟩ |
      ⟨_, _, rfl, rfl⟩
    · rw [hpath, joinPaths_join dirs (fun hc => hname.1.2 (List.mem_of_head? hc)) fun n hn => (hdirs n hn).1]
        at hchild
      obtain ⟨bs, hbs⟩ := walkWithin_slugged hp depth _ hnames hu hchild
      exact ⟨as ++ bs, has.append hbs fun _ => mem_slugs_addGroup_iff⟩
    · have hone := writePage_slugged dirs hdirs hname hbase hslug
      have hone : Slugged output u [slug] [dirs ++ [s.name]] v := ⟨hone.names, hwritten ▸ hone.targets, hone.slugs⟩
      exact ⟨_, has.append hone fun _ => mem_slugs_addPage_iff⟩
    · exact ⟨as, has⟩

/-! ## The assembly -/

theorem mem_slugs_placeGroup_iff {c : Classifier} {b : Buckets} {name slug : Text} {g : Nav.Group} :
    slug ∈ (placeGroup c b name g).slugs ↔ slug ∈ b.slugs ∨ slug ∈ g.slugs := by
  unfold placeGroup
  split
  · rename_i hempty
    have hitems : g.items = [] := by simpa [Group.isEmpty] using hempty
    simp [Group.slugs, hitems, slugsOf]
  · split
    · rw [(b.slugs_hoist g).mem_iff, List.mem_append]
    · rw [(b.slugs_put _ g).mem_iff, List.mem_append]

theorem mem_slugs_addLoose_iff {b : Buckets} {slug other : Text} :
    other ∈ (b.addLoose slug).slugs ↔ other ∈ b.slugs ∨ other ∈ [slug] := by
  by_cases hm : slug ∈ b.loosePages
  · rw [Buckets.addLoose, if_pos hm]
    refine ⟨.inl, fun h => h.elim id fun h => ?_⟩
    rw [List.mem_singleton.1 h]
    simp [Buckets.slugs, hm]
  · rw [(Buckets.slugs_addLoose hm).mem_iff, List.mem_append]

/-- **An assembly lists what it writes.** -/
theorem assemble_slugged (hp : output.Proper) (hs : w.disk.Sound) {c : Classifier} {b : Buckets} {w' : World}
    (h : assemble convert output c docs w = (.ok b, w')) : ∃ as, Slugged output w b.slugs as w' := by
  unfold assemble at h
  obtain ⟨entries, w, hentries, hadded⟩ := Action.bind_eq_ok_iff.1 h
  obtain ⟨hentries, rfl⟩ := Job.check_eq_ok.1 hentries
  have hempty : (Buckets.forPlatforms c.platforms).slugs = [] := slugs_forPlatforms _
  refine (Action.foldlM_keeps (J := fun b u => u.disk.Sound ∧ ∃ as, Slugged output w b.slugs as u)
    (fun s hm b u b' v hstep ⟨hu, as, has⟩ => ?_) hadded ⟨hs, [], hempty ▸ .none _ _⟩).2
  obtain ⟨hpath, hname⟩ := path_of_siblings hs hentries hm
  have hbase : s.path.name = s.name := by rw [hpath, Path.name_child]
  obtain ⟨y, hvisit, rfl⟩ := addEntry_eq_ok hstep
  obtain ⟨_, hgrows⟩ := (hvisit.keeps (kept_emits hp) hname hbase).grows hu
  refine ⟨hgrows.sound hu, ?_⟩
  cases hvisit with
  | skipped => exact ⟨as, has⟩
  | other => exact ⟨as, has⟩
  | folder _ _ hwalk =>
    have hwithin := walk_eq_ok hwalk
    rw [hpath] at hwithin
    obtain ⟨bs, hbs⟩ := walkWithin_slugged hp _ [s.name] (by simpa using hname) hu hwithin
    exact ⟨as ++ bs, has.append hbs fun _ => mem_slugs_placeGroup_iff⟩
  | page _ _ hslug =>
    have hone := writePage_slugged [] (by simp) hname hbase hslug
    exact ⟨_, has.append hone fun _ => mem_slugs_addLoose_iff⟩

/-! ## Pages with one slug -/

theorem targetAt_eq_iff (output : Path) {a b : Address} :
    targetAt output a = targetAt output b ↔ a.target = b.target := by
  simp [targetAt, Path.descend]

theorem Address.listed_of_target {a b : Address} (h : a.target = b.target) : a.listed = b.listed := by
  obtain ⟨hfolders, hbase⟩ := Address.target_eq_iff.1 h
  rw [Address.listed, Address.listed, hfolders, hbase]

/-- **The slugs of pages** are determined by the places that they are written to. -/
theorem listed_of_targets (h : as.map (targetAt output) = bs.map (targetAt output)) {slug : Text}
    (hs : ∃ a ∈ as, a.listed = slug) : ∃ b ∈ bs, b.listed = slug := by
  obtain ⟨a, ha, hslug⟩ := hs
  have hin : targetAt output a ∈ bs.map (targetAt output) := h ▸ List.mem_map_of_mem ha
  obtain ⟨b, hb, htarget⟩ := List.mem_map.1 hin
  exact ⟨b, hb, hslug ▸ Address.listed_of_target ((targetAt_eq_iff output).1 htarget)⟩

/-- **Every page is listed by the path it is written to**, but for the backslashes in the names of its folders.  An
assembly that returns converts the source documents, and lists exactly their slugs.  The page of each is the slug of
its address with the extension, which it is listed by exactly if no name of its folders holds a backslash.  Documents
that are written to one place have one slug, and only those, if no name of their folders holds a backslash. -/
theorem assemble_slugs (hp : output.Proper) (hs : w.disk.Sound) {c : Classifier} {b : Buckets} {w' : World}
    (hrun : assemble convert output c docs w = (.ok b, w')) :
    ∃ as : List Address,
      (∀ a ∈ as, SourceAt w'.disk docs a) ∧ (∀ a, SourceAt w.disk docs a → a ∈ as) ∧
      w'.written.map Emission.target = w.written.map Emission.target ++ as.map (targetAt output) ∧
      (∀ slug, slug ∈ b.slugs ↔ ∃ a ∈ as, a.listed = slug) ∧
      (∀ a ∈ as, targetAt output a = output.joinText (a.slug ++ newExtension) ∧
        (a.listed = a.slug ↔ ∀ name ∈ a.folders, '\\' ∉ name)) ∧
      ∀ a ∈ as, ∀ other ∈ as, (targetAt output a = targetAt output other → a.listed = other.listed) ∧
        ((∀ name ∈ a.folders ++ other.folders, '\\' ∉ name) → a.listed = other.listed →
          targetAt output a = targetAt output other) := by
  obtain ⟨as, hconverts, hsources, hall⟩ : ∃ as, Converts docs output w as w' ∧
      (∀ a ∈ as, SourceAt w'.disk docs a) ∧ ∀ a, SourceAt w.disk docs a → a ∈ as := by
    rcases (assemble_ends hp hs).elim hrun with ⟨_, _, h⟩ | ⟨⟨_, h⟩, _⟩
    · exact h
    · cases h
  -- What is listed is read off the places written to, which are those of the documents.
  obtain ⟨bs, hslugged⟩ := assemble_slugged hp hs hrun
  have htargets : as.map (targetAt output) = bs.map (targetAt output) :=
    List.append_cancel_left (hconverts.targets.symm.trans hslugged.targets)
  have hnames : ∀ a ∈ as, ∀ name ∈ a, IsEntryName name := fun a ha name hn => ((hsources a ha).names name hn).1
  have hslug : ∀ a ∈ as, (a.listed = a.slug ↔ ∀ name ∈ a.folders, '\\' ∉ name) := fun a ha =>
    Address.listed_eq_slug_iff (hsources a ha).ne_nil (hnames a ha)
  refine ⟨as, hsources, hall, hconverts.targets, fun slug => ?_, fun a ha => ⟨?_, hslug a ha⟩,
    fun a ha other ho => ⟨fun htarget => ?_, fun hplain hlisted => ?_⟩⟩
  · rw [hslugged.slugs]
    exact ⟨listed_of_targets htargets.symm, listed_of_targets htargets⟩
  · exact targetAt_eq_joinText output (fun name hn => hnames a ha name (List.dropLast_subset a hn))
      (hsources a ha).slash_not_mem_file
  · exact Address.listed_of_target ((targetAt_eq_iff output).1 htarget)
  · obtain ⟨ha', ho'⟩ := List.forall_mem_append.1 hplain
    rw [(hslug a ha).2 ha', (hslug other ho).2 ho'] at hlisted
    rw [targetAt_eq_iff, Address.target_eq_iff]
    exact Address.slug_eq (fun name hn => (hnames a ha name hn).1.2) (fun name hn => (hnames other ho name hn).1.2)
      hlisted

/-- **A site with a backslash in a folder's name**, and with the folders that are named when it is read as a slash. -/
def slantedSite : Disk where
  entries := [(["docs"], .directory), (["docs", "a\\b"], .directory), (["docs", "a\\b", "x.md"], .file [0x61]),
    (["docs", "a"], .directory), (["docs", "a", "b"], .directory), (["docs", "a", "b", "x.md"], .file [0x62])].map
      fun e => (e.1.map String.toList, e.2)

theorem slantedSite_isTree : slantedSite.IsTree := ⟨by decide, by decide, by decide, by decide⟩

theorem assemble_slugs_slantedSite : ∃ b w',
    assemble (·.raw) (.word "out") .standard (.word "docs") { disk := slantedSite } = (.ok b, w') ∧
      ∃ as : List Address, (∀ a, SourceAt slantedSite (.word "docs") a → a ∈ as) ∧
        ∀ slug, slug ∈ b.slugs ↔ ∃ a ∈ as, a.listed = slug := by
  obtain ⟨b, w', hrun⟩ := Action.exists_eq_ok (show (assemble (·.raw) (.word "out") .standard (.word "docs")
    { disk := slantedSite }).1.isOk = true by decide +kernel)
  obtain ⟨as, _, hall, _, hlisted, _⟩ := assemble_slugs (w := { disk := slantedSite }) (Path.ofText_proper _)
    slantedSite_isTree.sound hrun
  exact ⟨b, w', hrun, as, hall, hlisted⟩

/-- **One slug shared by two pages**: a backslash in a folder's name is read as a slash, so that neither page is told
apart from the other. -/
theorem slug_shared_by_pages : ∃ b w',
    assemble (·.raw) (.word "out") .standard (.word "docs") { disk := slantedSite } = (.ok b, w') ∧
      w'.written.map Emission.target = ["out/a/b/x.mdx", "out/a\\b/x.mdx"].map Path.word ∧
      b.slugs = ["a/b/x", "a/b/x"].map String.toList := by
  obtain ⟨b, w', hrun⟩ := Action.exists_eq_ok (show (assemble (·.raw) (.word "out") .standard (.word "docs")
    { disk := slantedSite }).1.isOk = true by decide +kernel)
  have htold : ((assemble (·.raw) (.word "out") .standard (.word "docs") { disk := slantedSite }).2.written.map
      Emission.target, (assemble (·.raw) (.word "out") .standard (.word "docs")
        { disk := slantedSite }).1.toOption.map Buckets.slugs) =
      (["out/a/b/x.mdx", "out/a\\b/x.mdx"].map Path.word, some (["a/b/x", "a/b/x"].map String.toList)) := by
    decide +kernel
  rw [hrun] at htold
  obtain ⟨hwritten, hslugs⟩ := Prod.mk.inj htold
  exact ⟨b, w', hrun, hwritten, Option.some.inj hslugs⟩

end DocFerry.Site
