import DocFerry.Proofs.Site.Visits
/-!
# What the walk of a folder leaves

A folder with a document in it leaves a group with items (`walkWithin_items_ne_nil`), and one without documents
leaves an empty group and the world as it was (`walkWithin_of_no_document`).  A group lists each of its pages once, by
a slug that stands for the folder and the name of a file (`walkWithin_pages`).
-/
namespace DocFerry.Site

open Files Nav

variable {convert : Converter} {output docs : Path} {d : Disk}

/-- **A list of a folder's entries** on a disk that has grown is as that disk has them. -/
theorem lists_descend (hfree : d.LinkFree (d.settle docs)) {e : Disk} (hlinks : d.SameLinks e) (hs : e.Sound)
    {dirs : List Text} (hup : Path.up ∉ dirs) {entries : List Sibling}
    (h : siblings e (docs.descend dirs) = .ok entries) :
    Lists e (docs.descend dirs) (d.settle docs ++ dirs) entries :=
  siblings_eq_ok hs (fun _ hm => Disk.location_of_find_descend hs hlinks hfree hup hm)
    ((hlinks.linkFree hfree).below (List.prefix_append _ _)) h

/-- **A page that is written** was read from a file. -/
theorem hasFile_of_writePage {source : Path} {relative slug : Text} {label : Option Text} {w w' : World}
    (h : writePage convert output source relative label w = (.ok slug, w')) :
    (∃ l bytes, w.disk.find source = .ok ⟨l, some (.file bytes)⟩) ∧
      slug = Nav.slug relative (Path.baseName source.name) := by
  obtain ⟨l, bytes, _, _, hf, hslug, _⟩ := writePage_steps h
  exact ⟨⟨l, bytes, hf⟩, hslug⟩

/-- **Adding to a group takes no items away.** -/
theorem items_addSibling {below : Path → Text → Job Nav.Group} {relative label : Text} {g g' : Nav.Group} {s : Sibling}
    {w w' : World} (h : addSibling convert output below relative label g s w = (.ok g', w')) (hg : g.items ≠ []) :
    g'.items ≠ [] := by
  rcases addSibling_eq_ok h with ⟨_, child, _, rfl⟩ | ⟨_, slug, _, _, rfl, _⟩ | ⟨_, _, rfl, _⟩
  · unfold Group.addGroup
    split
    · exact hg
    · simp
  · unfold Group.addPage
    split
    · exact hg
    · simp
  · exact hg

theorem items_addPage (g : Nav.Group) (slug : Text) : (g.addPage slug).2.items ≠ [] := by
  unfold Group.addPage
  split
  · rename_i hm
    intro he
    simp only [Group.pages, show g.items = [] from he, List.filterMap_nil, List.not_mem_nil] at hm
  · simp

/-! ## Folders with documents -/

theorem Fits.isDirectory_iff {p : Path} {l : Location} {s : Sibling} {e : Entry} (h : Fits d p l s)
    (hplain : s.name.contains (Char.ofNat 0) = false) (he : d.locate? (l ++ [s.name]) = some e) :
    s.isDirectory = true ↔ e = .directory := by
  constructor
  · intro hdir
    rw [h.folder hdir] at he
    exact (Option.some.inj he).symm
  · rintro rfl
    by_contra hdir
    exact h.plain (by simpa using hdir) hplain he

theorem grows_of_addSibling (hp : output.Proper) {depth : Nat} {dirs : List Text}
    (hdirs : ∀ name ∈ dirs, IsEntryName name) {s : Sibling} (hname : IsEntryName s.name) (hpath : s.path.name = s.name)
    {label : Text} {g g' : Nav.Group} {w w' : World} (hs : w.disk.Sound)
    (h : addSibling convert output (walkWithin convert output depth) (Text.join ['/'] dirs) label g s w =
      (.ok g', w')) : ∃ area, w.disk.Grows area w'.disk := by
  have hbelow : ∀ name ∈ dirs ++ [s.name], IsEntryName name :=
    List.forall_mem_append.2 ⟨hdirs, List.forall_mem_singleton.2 hname⟩
  have hemits := @kept_emits convert output hp
  have hk := hemits.addSibling hdirs hname hpath (hemits.walkWithin depth s.path hbelow) label g w
  rw [h] at hk
  exact hk.grows hs

/-- **A folder with a document in it leaves a group with items**, also after pages have been written. -/
theorem walkWithin_items_ne_nil (htree : d.IsTree) (hfree : d.LinkFree (d.settle docs)) (hp : output.Proper) :
    ∀ (depth : Nat) {dirs rest : List Text} {w w' : World} {g : Nav.Group}, rest ≠ [] →
    IsDocument d (d.settle docs) (dirs ++ rest) → (∃ area, d.Grows area w.disk) →
    walkWithin convert output depth (docs.descend dirs) (Text.join ['/'] dirs) w = (.ok g, w') → g.items ≠ []
  | 0, _, _, _, _, _, _, _, _, h => by cases h
  | depth + 1, dirs, rest, w, w', g, hne, hdoc, ⟨area, hg⟩, h => by
    obtain ⟨label, entries, _, hentries, hadded⟩ := walkWithin_eq_ok h
    obtain ⟨bytes, hf⟩ := hdoc.file
    have hnames : ∀ name ∈ dirs ++ rest, isFileName name = true := fun name hn =>
      htree.fileNames hf name (List.mem_append_right _ hn)
    have hentry : ∀ name ∈ dirs, IsEntryName name := fun name hn =>
      isEntryName_of_isFileName (hnames name (List.mem_append_left _ hn))
    obtain ⟨name, rest, rfl⟩ := List.exists_cons_of_ne_nil hne
    have hs := hg.sound htree.sound
    have hl := lists_descend hfree hg.links hs (not_mem_up hentry) hentries
    -- The entry on the way to the document is there, as a folder unless it is the document itself.
    have hat : d.locate? (d.settle docs ++ dirs ++ [name]) = some (if rest = [] then .file bytes else .directory) := by
      split
      · rename_i hr
        simpa [hr] using hf
      · rename_i hr
        exact htree.directory_above _ rest hr (by simpa using hf)
    obtain ⟨e, he, hkind⟩ := hg.kept _ _ hat
    obtain ⟨s, hm, rfl⟩ := (hl.names name).2 ⟨e, he⟩
    have hname := hnames s.name (by simp)
    have hdir : s.isDirectory = true ↔ rest ≠ [] := by
      rw [(hl.fits s hm).isDirectory_iff (isFileName_not_null hname) he, ← hkind.directory_iff]
      by_cases hr : rest = [] <;> simp [hr]
    have hshown : s ∈ entries.filter fun s => !s.isIgnored :=
      List.mem_filter.2 ⟨hm, by rw [isIgnored_eq_isHidden, hdoc.shown s.name (by simp)]; rfl⟩
    refine Action.foldlM_reaches (I := fun u => ∃ area, d.Grows area u.disk) (P := fun g => g.items ≠ []) hshown
      (fun t ht g u g' u' hstep hu => ⟨?_, items_addSibling hstep⟩) (fun g u g' u' hstep hu => ?_) hadded ⟨area, hg⟩
    · obtain ⟨grown, hu⟩ := hu
      obtain ⟨ht, hpath⟩ := siblings_entryNames hs hentries t (List.mem_filter.1 ht).1
      exact Disk.exists_grows_trans ⟨grown, hu⟩ (grows_of_addSibling hp hentry ht hpath (hu.sound htree.sound) hstep)
    · rcases addSibling_eq_ok hstep with ⟨hfolder, child, hchild, rfl⟩ | ⟨_, slug, _, _, rfl, _⟩ | ⟨hfile, hpage, _⟩
      · rw [(hl.fits s hm).path, Path.child_descend, joinPaths_join dirs
          (fun hc => (isEntryName_of_isFileName hname).1.2 (List.mem_of_head? hc)) fun n hn => (hentry n hn).1] at hchild
        have hbelow : IsDocument d (d.settle docs) (dirs ++ [s.name] ++ rest) := by simpa using hdoc
        have hitems := walkWithin_items_ne_nil htree hfree hp depth (hdir.1 hfolder) hbelow hu hchild
        simp [Group.addGroup, Group.isEmpty, hitems]
      · exact items_addPage g slug
      · have hr : rest = [] := by
          by_contra hr
          rw [hdir.2 hr] at hfile
          cases hfile
        have hdocument := hdoc.page
        rw [hr, Address.file_append] at hdocument
        simp [Sibling.isPage, hfile, hdocument] at hpage

/-! ## Folders without documents -/

/-- **A folder without documents** leaves an empty group, and the world as it was. -/
theorem walkWithin_of_no_document (hfree : d.LinkFree (d.settle docs)) : ∀ (depth : Nat) {dirs : List Text}
    {w w' : World} {g : Nav.Group}, d.SameLinks w.disk → w.disk.Sound →
    (∀ name ∈ dirs, IsEntryName name ∧ isHidden name = false) →
    (∀ a, dirs <+: a → ¬ IsDocument w.disk (d.settle docs) a) →
    walkWithin convert output depth (docs.descend dirs) (Text.join ['/'] dirs) w = (.ok g, w') →
    g.items = [] ∧ w' = w
  | 0, _, _, _, _, _, _, _, _, h => by cases h
  | depth + 1, dirs, w, w', g, hlinks, hs, hdirs, hnone, h => by
    obtain ⟨label, entries, _, hentries, hadded⟩ := walkWithin_eq_ok h
    have hl := lists_descend hfree hlinks hs (not_mem_up fun name hn => (hdirs name hn).1) hentries
    refine Action.foldlM_keeps (J := fun g u => g.items = [] ∧ u = w) (fun s hm g u g' u' hstep hj => ?_) hadded
      ⟨rfl, rfl⟩
    obtain ⟨hg, rfl⟩ := hj
    obtain ⟨hm, hshown⟩ := List.mem_filter.1 hm
    have hshown : isHidden s.name = false := by simpa [isIgnored_eq_isHidden] using hshown
    have hname := hl.entryName hs hm
    have hnames : ∀ name ∈ dirs ++ [s.name], IsEntryName name ∧ isHidden name = false :=
      List.forall_mem_append.2 ⟨hdirs, List.forall_mem_singleton.2 ⟨hname, hshown⟩⟩
    rcases addSibling_eq_ok hstep with ⟨_, child, hchild, rfl⟩ | ⟨hpage, slug, _, hslug, _⟩ | ⟨_, _, rfl, rfl⟩
    · rw [(hl.fits s hm).path, Path.child_descend, joinPaths_join dirs
        (fun hc => hname.1.2 (List.mem_of_head? hc)) fun n hn => (hdirs n hn).1.1] at hchild
      obtain ⟨hitems, rfl⟩ := walkWithin_of_no_document hfree depth hlinks hs hnames
        (fun a ha => hnone a ((List.prefix_append _ _).trans ha)) hchild
      exact ⟨by simp [Group.addGroup, Group.isEmpty, hitems, hg], rfl⟩
    · -- A page that is written was read from a file, which would be a document.
      obtain ⟨⟨l, bytes, hf⟩, _⟩ := hasFile_of_writePage hslug
      rw [(hl.fits s hm).path] at hf
      have hlink := (hlinks.linkFree hfree).below (List.prefix_append (d.settle docs) dirs)
      have hplace := Disk.place_of_find_child hl.found hname.2 (fun t => hlink _ t (List.prefix_append _ _)) hf
      simp only [Place.mk.injEq] at hplace
      simp only [Sibling.isPage, Bool.and_eq_true] at hpage
      refine (hnone (dirs ++ [s.name]) (List.prefix_append _ _) ⟨⟨bytes, ?_⟩, fun n hn => (hnames n hn).2, ?_⟩).elim
      · rw [← List.append_assoc]
        exact hplace.2.symm
      · rw [Address.file_append]
        exact hpage.2
    · exact ⟨hg, rfl⟩

/-! ## Pages of a folder -/

/-- **The pages that a group lists**: each once, by a slug for the folder and the name of a file. -/
def ListsPages (relative : Text) (g : Nav.Group) : Prop :=
  g.pages.Nodup ∧ ∀ slug ∈ g.pages, ∃ file, '/' ∉ file ∧ slug = Nav.slug relative (Path.baseName file)

theorem pages_addGroup (g child : Nav.Group) : (g.addGroup child).2.pages = g.pages := by
  unfold Group.addGroup
  split
  · rfl
  · simp [Group.pages, Group.toItem, Item.slug?]

theorem ListsPages.addPage {relative : Text} {g : Nav.Group} (h : ListsPages relative g) {file : Text} (hf : '/' ∉ file) :
    ListsPages relative (g.addPage (Nav.slug relative (Path.baseName file))).2 := by
  unfold Group.addPage
  split
  · exact h
  · rename_i hnew
    have hpages : ({ g with items := g.items ++ [.page (Nav.slug relative (Path.baseName file))] } : Nav.Group).pages =
        g.pages ++ [Nav.slug relative (Path.baseName file)] := by
      simp [Group.pages, Item.slug?]
    unfold ListsPages
    rw [hpages]
    refine ⟨List.nodup_append.2 ⟨h.1, by simp, fun slug hs other ho he => hnew ?_⟩, fun slug hs => ?_⟩
    · rw [← List.mem_singleton.1 ho, ← he]
      exact hs
    · rcases List.mem_append.1 hs with hs | hs
      · exact h.2 slug hs
      · exact ⟨file, hf, List.mem_singleton.1 hs⟩

/-- **The group of a folder lists each of its pages once.** -/
theorem walkWithin_pages {depth : Nat} {directory : Path} {relative : Text} {w w' : World} {g : Nav.Group}
    (hs : w.disk.Sound) (h : walkWithin convert output depth directory relative w = (.ok g, w')) :
    ListsPages relative g := by
  cases depth with
  | zero => cases h
  | succ depth =>
    obtain ⟨label, entries, _, hentries, hadded⟩ := walkWithin_eq_ok h
    refine Action.foldlM_keeps (J := fun g _ => ListsPages relative g) (fun s hm g u g' u' hstep hg => ?_) hadded
      ⟨by simp [Group.pages], by simp [Group.pages]⟩
    obtain ⟨hname, hpath⟩ := siblings_entryNames hs hentries s (List.mem_filter.1 hm).1
    rcases addSibling_eq_ok hstep with ⟨_, child, _, rfl⟩ | ⟨_, slug, _, hslug, rfl, _⟩ | ⟨_, _, rfl, _⟩
    · unfold ListsPages
      rwa [pages_addGroup]
    · rw [(hasFile_of_writePage hslug).2, hpath]
      exact hg.addPage hname.1.2
    · exact hg

end DocFerry.Site
