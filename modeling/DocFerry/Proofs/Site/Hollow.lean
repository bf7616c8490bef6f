import DocFerry.Proofs.Files.Copies
import DocFerry.Proofs.Nav.Nesting
import DocFerry.Proofs.Site.Leaves
import DocFerry.Proofs.Site.Ranking
import DocFerry.Proofs.Site.Writing
/-!
# Pages that a walk reaches

A page is reached from a folder if its path goes through entries that are shown.  It is, exactly if it is an entry of
the folder or is reached from one (`reaches_iff`).  A walk of a folder lists every page that is reached from it
(`walkWithin_lists`), and leaves an empty group exactly if there is none (`walkWithin_items_ne_nil_iff`), in which case
nothing has happened (`walkWithin_of_hollow`); every group nested in what it leaves lists some page
(`walkWithin_nested`).
-/
namespace DocFerry.Site

open Files Nav

/-! ## Entries of a folder -/

theorem map_name_child (p : Path) (names : List Text) : (names.map p.child).map Path.name = names := by
  rw [List.map_map]
  exact (List.map_congr_left fun name _ => Path.name_child p name).trans (List.map_id names)

/-- **The entries of a folder** are those that the disk has there, each as it is. -/
theorem siblings_spec {d : Disk} {p : Path} {entries : List Sibling} (hs : d.Sound) (h : siblings d p = .ok entries) :
    ∃ l, d.find p = .ok ⟨l, some .directory⟩ ∧ (entries.map Sibling.path).Perm ((d.namesAt l).map p.child) ∧
      ∀ s ∈ entries, siblingAt d s.path = .ok s := by
  unfold siblings at h
  split at h
  · rename_i names hlist
    obtain ⟨l, hf, rfl⟩ := Disk.list_eq_ok hlist
    obtain ⟨hperm, hall, _⟩ := ranked_strictly ((map_name_child p _).symm ▸ Disk.nodup_namesAt hs.nodup l) h
    exact ⟨l, hf, hperm, hall⟩
  · cases h

theorem path_of_siblings {d : Disk} {p : Path} {entries : List Sibling} (hs : d.Sound) (h : siblings d p = .ok entries)
    {s : Sibling} (hm : s ∈ entries) : s.path = p.child s.name ∧ IsEntryName s.name := by
  obtain ⟨l, _, hperm, hall⟩ := siblings_spec hs h
  obtain ⟨name, hname, hpath⟩ := List.mem_map.1 (hperm.mem_iff.1 (List.mem_map_of_mem hm))
  have he : s.name = name := by rw [(siblingAt_spec (hall s hm)).1, ← hpath, Path.name_child]
  exact ⟨he ▸ hpath.symm, he ▸ hs.entryName hname⟩

/-- **A name in a folder** is that of an entry. -/
theorem mem_siblings {d : Disk} {p : Path} {entries : List Sibling} (hs : d.Sound) (h : siblings d p = .ok entries)
    {l : Location} (hf : d.find p = .ok ⟨l, some .directory⟩) {name : Text} (hname : name ∈ d.namesAt l) :
    ∃ s ∈ entries, s.name = name ∧ s.path = p.child name := by
  obtain ⟨l', hf', hperm, hall⟩ := siblings_spec hs h
  cases hf.symm.trans hf'
  obtain ⟨s, hm, hpath⟩ := List.mem_map.1 (hperm.mem_iff.2 (List.mem_map_of_mem hname))
  refine ⟨s, hm, ?_, hpath⟩
  rw [(siblingAt_spec (hall s hm)).1, hpath, Path.name_child]

theorem isDirectory_of_siblingAt {d : Disk} {p : Path} {s : Sibling} (h : siblingAt d p = .ok s) {l : Location}
    {e : Entry} (hf : d.find p = .ok ⟨l, some e⟩) : s.isDirectory = (e == .directory) := by
  obtain ⟨isDirectory, hd, h⟩ := bind_eq_ok h
  obtain ⟨_, _, h⟩ := bind_eq_ok h
  cases h
  obtain ⟨found, hseek, rfl⟩ := map_eq_ok (mapError_eq_ok.1 hd)
  rw [Disk.seek, hf] at hseek
  cases hseek
  rfl

/-! ## Pages that are reached -/

/-- **A page is reached from a folder**: by a path through entries that are shown. -/
def Reaches (d : Disk) (p : Path) : Prop :=
  ∃ names : List Text, (∃ name, names.getLast? = some name ∧ isPageName name = true) ∧
    (∀ name ∈ names, IsEntryName name ∧ isHidden name = false) ∧ d.HasFile (p.descend names)

theorem Writes.reaches {w w' : World} (h : Writes w w') (hs : w.disk.Sound) {p : Path} (hr : Reaches w.disk p) :
    Reaches w'.disk p := by
  obtain ⟨names, hpage, hnames, hfile⟩ := hr
  exact ⟨names, hpage, hnames, h.hasFile hs hfile⟩

/-- **An entry that leads to a page**: it is one, or a folder from which one is reached. -/
def LeadsToPage (d : Disk) (s : Sibling) : Prop :=
  s.isPage = true ∧ d.HasFile s.path ∨ s.isDirectory = true ∧ Reaches d s.path

theorem reaches_of_entry {d : Disk} {p : Path} {s : Sibling} (hpath : s.path = p.child s.name)
    (hname : IsEntryName s.name) (hshown : s.isIgnored = false) (h : LeadsToPage d s) : Reaches d p := by
  rcases h with ⟨hpage, hfile⟩ | ⟨_, names, ⟨name, hlast, hpage⟩, hnames, hfile⟩
  · simp only [Sibling.isPage, Bool.and_eq_true] at hpage
    rw [hpath] at hfile
    exact ⟨[s.name], ⟨s.name, rfl, hpage.2⟩, List.forall_mem_singleton.2 ⟨hname, hshown⟩, hfile⟩
  · refine ⟨s.name :: names, ⟨name, ?_, hpage⟩, List.forall_mem_cons.2 ⟨⟨hname, hshown⟩, hnames⟩, ?_⟩
    · rw [List.getLast?_cons, hlast]
      rfl
    · rwa [← descend_child, ← hpath]

/-- **The entry on the way to a file**: the file itself, or a folder. -/
theorem entry_on_the_way {d : Disk} {p : Path} {entries : List Sibling} (hs : d.Sound) (h : siblings d p = .ok entries)
    {name : Text} {rest : List Text} (hname : IsEntryName name) (hfile : d.HasFile (p.descend (name :: rest))) :
    ∃ s ∈ entries, s.name = name ∧ s.path = p.child name ∧ (s.isDirectory = true ↔ rest ≠ []) := by
  obtain ⟨l, bytes, hf⟩ := hfile
  obtain ⟨j, m, hp, hwalk⟩ := Disk.find_on_the_way (List.cons_ne_nil _ _) hf
  obtain ⟨s, hm, hsname, hpath⟩ := mem_siblings hs h hp (Disk.mem_namesAt_of_walks hname.2 hwalk)
  have hat := (siblings_spec hs h).choose_spec.2.2 s hm
  refine ⟨s, hm, hsname, hpath, ?_⟩
  rw [← descend_child, ← hpath] at hf
  by_cases hr : rest = []
  · subst hr
    rw [Path.descend_nil] at hf
    simp [isDirectory_of_siblingAt hat hf]
  · obtain ⟨_, m', hdir, _⟩ := Disk.find_on_the_way hr hf
    simp [isDirectory_of_siblingAt hat hdir, hr]

/-- **A page is reached from a folder** exactly if an entry that is shown leads to one. -/
theorem reaches_iff {d : Disk} {p : Path} {entries : List Sibling} (hs : d.Sound) (h : siblings d p = .ok entries) :
    Reaches d p ↔ ∃ s ∈ entries, s.isIgnored = false ∧ LeadsToPage d s := by
  constructor
  · rintro ⟨names, ⟨last, hlast, hpage⟩, hnames, hfile⟩
    cases names with
    | nil => cases hlast
    | cons name rest =>
      obtain ⟨⟨hname, hshown⟩, hrest⟩ := List.forall_mem_cons.1 hnames
      obtain ⟨s, hm, hsname, hpath, hdir⟩ := entry_on_the_way hs h hname hfile
      refine ⟨s, hm, by rw [isIgnored_eq_isHidden, hsname]; exact hshown, ?_⟩
      rw [← descend_child, ← hpath] at hfile
      by_cases hr : rest = []
      · subst hr
        obtain rfl : name = last := Option.some.inj hlast
        rw [Path.descend_nil] at hfile
        refine .inl ⟨?_, hfile⟩
        rw [Sibling.isPage, hsname, hpage, Bool.eq_false_iff.2 fun hd => hdir.1 hd rfl]
        rfl
      · refine .inr ⟨hdir.2 hr, rest, ⟨last, ?_, hpage⟩, hrest, hfile⟩
        rwa [List.getLast?_cons_of_ne_nil hr] at hlast
  · rintro ⟨s, hm, hshown, hleads⟩
    obtain ⟨hpath, hname⟩ := path_of_siblings hs h hm
    exact reaches_of_entry hpath hname hshown hleads

/-! ## Walks -/

variable {convert : Converter} {output : Path}

theorem items_addGroup_of_ne_nil {g child : Nav.Group} (h : child.items ≠ []) :
    (g.addGroup child).2 = { g with items := g.items ++ [child.toItem] } := by
  simp [Group.addGroup, Group.isEmpty, h]

theorem items_addGroup_of_nil {g child : Nav.Group} (h : child.items = []) : (g.addGroup child).2 = g := by
  simp [Group.addGroup, Group.isEmpty, h]

theorem addPage_of_not_mem {g : Nav.Group} {slug : Text} (h : slug ∉ g.pages) :
    (g.addPage slug).2 = { g with items := g.items ++ [.page slug] } := by
  rw [Group.addPage, if_neg h]

theorem mem_slugs_of_mem_pages {g : Nav.Group} {slug : Text} (h : slug ∈ g.pages) : slug ∈ g.slugs :=
  (slugsOf_perm g.items).mem_iff.2 (List.mem_append_left _ h)

theorem mem_slugs_addPage_self (g : Nav.Group) (slug : Text) : slug ∈ (g.addPage slug).2.slugs := by
  by_cases hm : slug ∈ g.pages
  · rw [Group.addPage_of_mem hm]
    exact mem_slugs_of_mem_pages hm
  · rw [Group.slugs_addPage hm]
    exact List.mem_append_right _ (List.mem_singleton_self _)

theorem mem_slugs_addGroup_of_child (g : Nav.Group) {child : Nav.Group} {slug : Text} (h : slug ∈ child.slugs) :
    slug ∈ (g.addGroup child).2.slugs := by
  have hitems : child.items ≠ [] := fun he => by
    rw [Group.slugs, he] at h
    cases h
  rw [Group.slugs_addGroup (by simpa [Group.isEmpty] using hitems)]
  exact List.mem_append_right _ h

/-- **Adding to a group takes no slug away.** -/
theorem mem_slugs_addSibling {below : Path → Text → Job Nav.Group} {relative label : Text} {g g' : Nav.Group}
    {s : Sibling} {w w' : World} (h : addSibling convert output below relative label g s w = (.ok g', w')) {slug : Text}
    (hm : slug ∈ g.slugs) : slug ∈ g'.slugs := by
  rcases addSibling_eq_ok h with ⟨_, child, _, rfl⟩ | ⟨_, new, _, _, rfl, _⟩ | ⟨_, _, rfl, _⟩
  · by_cases hitems : child.items = []
    · rwa [items_addGroup_of_nil hitems]
    · rw [Group.slugs_addGroup (by simpa [Group.isEmpty] using hitems)]
      exact List.mem_append_left _ hm
  · by_cases hnew : new ∈ g.pages
    · rwa [Group.addPage_of_mem hnew]
    · rw [Group.slugs_addPage hnew]
      exact List.mem_append_left _ hm
  · exact hm

/-- **A page that is reached from a folder**, by the names of the entries on the way. -/
structure PageAt (d : Disk) (p : Path) (a : Address) : Prop where
  names : ∀ name ∈ a, IsEntryName name ∧ isHidden name = false
  page : isPageName a.file = true
  file : d.HasFile (p.descend a)

theorem PageAt.ne_nil {d : Disk} {p : Path} {a : Address} (h : PageAt d p a) : a ≠ [] := by
  rintro rfl
  exact absurd h.page (by decide)

theorem Writes.pageAt {w w' : World} (h : Writes w w') (hs : w.disk.Sound) {p : Path} {a : Address}
    (ha : PageAt w.disk p a) : PageAt w'.disk p a := ⟨ha.names, ha.page, h.hasFile hs ha.file⟩

/-- **A walk of a folder lists every page that is reached from it.** -/
theorem walkWithin_lists (hp : output.Proper) : ∀ (depth : Nat) {directory : Path} {relative : Text} {a : Address}
    {g : Nav.Group} {w w' : World}, w.disk.Sound → PageAt w.disk directory a →
    walkWithin convert output depth directory relative w = (.ok g, w') →
    Nav.slug (a.folders.foldl joinPaths relative) (Path.baseName a.file) ∈ g.slugs
  | 0, _, _, _, _, _, _, _, _, h => by cases h
  | depth + 1, directory, relative, a, g, w, w', hs, ha, h => by
    obtain ⟨label, entries, _, hentries, hadded⟩ := walkWithin_eq_ok h
    obtain ⟨name, rest, rfl⟩ := List.exists_cons_of_ne_nil ha.ne_nil
    obtain ⟨⟨hname, hshown⟩, hrest⟩ := List.forall_mem_cons.1 ha.names
    obtain ⟨s, hm, rfl, hpath, hdir⟩ := entry_on_the_way hs hentries hname ha.file
    have hs' : s ∈ entries.filter fun s => !s.isIgnored :=
      List.mem_filter.2 ⟨hm, by rw [isIgnored_eq_isHidden, hshown]; rfl⟩
    -- Pages are only added until the walk comes to the entry, so the page is still there.
    refine Action.foldlM_reaches (I := Writes w) (P := fun g => _ ∈ g.slugs) hs'
      (fun t _ g u g' u' hstep hu => ⟨hu.trans ?_, mem_slugs_addSibling hstep⟩) (fun g u g' u' hstep hu => ?_) hadded
      (.refl w)
    · exact addSibling_writes hp (fun child hchild => walkWithin_writes hp depth hchild) hstep
    · rcases addSibling_eq_ok hstep with ⟨hfolder, child, hchild, rfl⟩ | ⟨hpage, slug, _, hslug, rfl, _⟩ |
        ⟨hfile, hpage, _⟩
      · have hr : rest ≠ [] := hdir.1 hfolder
        have hbelow : PageAt w.disk s.path rest := by
          refine ⟨hrest, ?_, ?_⟩
          · have hlast := ha.page
            rwa [Address.file, List.getLast?_cons_of_ne_nil hr] at hlast
          · rw [hpath, descend_child]
            exact ha.file
        have hlisted := walkWithin_lists hp depth (hu.sound hs) (hu.pageAt hs hbelow) hchild
        rw [Address.folders, List.dropLast_cons_of_ne_nil hr, List.foldl_cons, Address.file,
          List.getLast?_cons_of_ne_nil hr]
        exact mem_slugs_addGroup_of_child g hlisted
      · have hr : rest = [] := by
          by_contra hr
          simp [Sibling.isPage, hdir.2 hr] at hpage
        rw [(hasFile_of_writePage hslug).2, hpath, Path.name_child, hr]
        exact mem_slugs_addPage_self g _
      · have hr : rest = [] := by
          by_contra hr
          rw [hdir.2 hr] at hfile
          cases hfile
        have hlast := ha.page
        rw [hr] at hlast
        simp [Sibling.isPage, hfile, Address.file] at hpage hlast
        rw [hlast] at hpage
        cases hpage

/-- **A folder from which a page is reached** leaves a group with items. -/
theorem walkWithin_of_reaches (hp : output.Proper) {depth : Nat} {directory : Path} {relative : Text} {g : Nav.Group}
    {w w' : World} (hs : w.disk.Sound) (hr : Reaches w.disk directory)
    (h : walkWithin convert output depth directory relative w = (.ok g, w')) : g.items ≠ [] := by
  obtain ⟨names, ⟨last, hlast, hpage⟩, hnames, hfile⟩ := hr
  have hlisted := walkWithin_lists hp depth hs ⟨hnames, by rwa [Address.file, hlast], hfile⟩ h
  intro he
  rw [Group.slugs, he] at hlisted
  cases hlisted

/-- **A folder from which no page is reached** leaves an empty group, and the world as it was. -/
theorem walkWithin_of_hollow : ∀ (depth : Nat) {directory : Path} {relative : Text} {g : Nav.Group} {w w' : World},
    w.disk.Sound → ¬ Reaches w.disk directory →
    walkWithin convert output depth directory relative w = (.ok g, w') → g.items = [] ∧ w' = w
  | 0, _, _, _, _, _, _, _, h => by cases h
  | depth + 1, directory, relative, g, w, w', hs, hr, h => by
    obtain ⟨label, entries, _, hentries, hadded⟩ := walkWithin_eq_ok h
    refine Action.foldlM_keeps (J := fun g u => g.items = [] ∧ u = w) (fun s hm g u g' u' hstep hj => ?_) hadded
      ⟨rfl, rfl⟩
    obtain ⟨hg, rfl⟩ := hj
    obtain ⟨hm, hshown⟩ := List.mem_filter.1 hm
    -- An entry that led to a page would have the folder reach one; so the world stays what it was.
    have hnone : ¬ LeadsToPage u.disk s := fun hleads =>
      hr ((reaches_iff hs hentries).2 ⟨s, hm, by simpa using hshown, hleads⟩)
    rcases addSibling_eq_ok hstep with ⟨hdir, child, hchild, rfl⟩ | ⟨hpage, slug, _, hslug, _⟩ | ⟨_, _, rfl, rfl⟩
    · obtain ⟨hitems, rfl⟩ := walkWithin_of_hollow depth hs (fun hbelow => hnone (.inr ⟨hdir, hbelow⟩)) hchild
      rw [items_addGroup_of_nil hitems]
      exact ⟨hg, rfl⟩
    · exact (hnone (.inl ⟨hpage, (hasFile_of_writePage hslug).1⟩)).elim
    · exact ⟨hg, rfl⟩

/-- **A walk leaves a group with items** exactly if a page is reached from the folder. -/
theorem walkWithin_items_ne_nil_iff (hp : output.Proper) {depth : Nat} {directory : Path} {relative : Text}
    {g : Nav.Group} {w w' : World} (hs : w.disk.Sound)
    (h : walkWithin convert output depth directory relative w = (.ok g, w')) :
    g.items ≠ [] ↔ Reaches w.disk directory := by
  refine ⟨fun hne => ?_, fun hr => walkWithin_of_reaches hp hs hr h⟩
  by_contra hr
  exact hne (walkWithin_of_hollow depth hs hr h).1

/-! ## Nested groups -/

theorem nested_addPage {g other : Nav.Group} {slug : Text} (h : Nested other (g.addPage slug).2.items) :
    Nested other g.items := by
  by_cases hm : slug ∈ g.pages
  · rwa [Group.addPage_of_mem hm] at h
  · rw [addPage_of_not_mem hm] at h
    rcases nested_append_iff.1 h with h | he | ⟨_, he, _⟩
    · exact h
    · cases he
    · cases he

theorem nested_addGroup {g child other : Nav.Group} (h : Nested other (g.addGroup child).2.items) :
    Nested other g.items ∨ Within other child := by
  by_cases hitems : child.items = []
  · rw [items_addGroup_of_nil hitems] at h
    exact .inl h
  · rw [items_addGroup_of_ne_nil hitems] at h
    rcases nested_append_iff.1 h with h | he | ⟨_, he, h⟩
    · exact .inl h
    · exact .inr (.inl (toItem_inj he).symm)
    · exact .inr (.inr (toItem_inj he ▸ h))

/-- **Every group nested in what a walk leaves** lists some page. -/
theorem walkWithin_nested : ∀ (depth : Nat) {directory : Path} {relative : Text} {g : Nav.Group} {w w' : World},
    walkWithin convert output depth directory relative w = (.ok g, w') → ∀ child, Nested child g.items → child.slugs ≠ []
  | 0, _, _, _, _, _, h => by cases h
  | depth + 1, directory, relative, g, w, w', h => by
    obtain ⟨label, entries, _, _, hadded⟩ := walkWithin_eq_ok h
    refine Action.foldlM_keeps (J := fun g _ => ∀ child, Nested child g.items → child.slugs ≠ [])
      (fun s _ g u g' u' hstep hg => ?_) hadded (fun child hchild => by rcases hchild with h | ⟨h, _⟩ <;> cases h)
    rcases addSibling_eq_ok hstep with ⟨_, below, hbelow, rfl⟩ | ⟨_, slug, _, _, rfl, _⟩ | ⟨_, _, rfl, _⟩
    · have hnested := walkWithin_nested depth hbelow
      by_cases hitems : below.items = []
      · rwa [items_addGroup_of_nil hitems]
      · intro child hchild
        rcases nested_addGroup hchild with hchild | rfl | hchild
        · exact hg child hchild
        · exact slugsOf_ne_nil hitems hnested
        · exact hnested child hchild
    · exact fun child hchild => hg child (nested_addPage hchild)
    · exact hg

end DocFerry.Site
