import DocFerry.Proofs.Nav.Nesting
import DocFerry.Proofs.Site.Hollow
/-!
# The labels that pages are converted for

Every page that a walk writes is converted for the label of its folder's group, and a group lists only pages of its
folder (`walkWithin_labelled`).  No folder is walked twice, so all pages that are written for one folder are converted
for one label (`OneLabel.append`).
-/
namespace DocFerry.Site

open Files Nav

/-! ## Pages of folders -/

/-- **A page of a folder**: written there, and converted for the label of the folder's group. -/
structure PageOf (output : Path) (dirs : List Text) (label : Text) (e : Emission) : Prop where
  target : e.target = output.descend (dirs ++ [e.request.context.baseName ++ newExtension])
  label : e.request.context.groupLabel = some label
  index : e.request.context.isIndex = isIndexName e.request.context.baseName
  base : '/' ∉ e.request.context.baseName

/-- **A page of a folder or of one below it.** -/
def PageUnder (output : Path) (dirs : List Text) (e : Emission) : Prop :=
  ∃ more label, PageOf output (dirs ++ more) label e

/-- **A page that comes from the entries of a folder**: it is one of the folder, or of one below an entry. -/
def PageFrom (output : Path) (dirs : List Text) (label : Text) (names : List Text) (e : Emission) : Prop :=
  PageOf output dirs label e ∨ ∃ name ∈ names, PageUnder output (dirs ++ [name]) e

variable {output : Path} {dirs dirs' : List Text} {label label' : Text} {e : Emission} {es fs : List Emission}

theorem PageOf.unique (h : PageOf output dirs label e) (h' : PageOf output dirs' label' e) : dirs = dirs' ∧ label = label' := by
  have hnames : output.names ++ (dirs ++ [e.request.context.baseName ++ newExtension]) =
      output.names ++ (dirs' ++ [e.request.context.baseName ++ newExtension]) :=
    congrArg Path.names (h.target.symm.trans h'.target)
  exact ⟨List.append_cancel_right (List.append_cancel_left hnames), Option.some.inj (h.label.symm.trans h'.label)⟩

theorem PageFrom.under {names : List Text} (h : PageFrom output dirs label names e) : PageUnder output dirs e := by
  rcases h with h | ⟨name, _, more, other, h⟩
  · exact ⟨[], label, by rwa [List.append_nil]⟩
  · exact ⟨name :: more, other, by simpa using h⟩

theorem PageFrom.mono {names names' : List Text} (hn : ∀ name ∈ names, name ∈ names')
    (h : PageFrom output dirs label names e) : PageFrom output dirs label names' e := by
  rcases h with h | ⟨name, hm, h⟩
  · exact .inl h
  · exact .inr ⟨name, hn name hm, h⟩

/-- **All pages of one folder** are converted for one label. -/
def OneLabel (output : Path) (es : List Emission) : Prop :=
  ∀ e ∈ es, ∀ e' ∈ es, ∀ dirs label label', PageOf output dirs label e → PageOf output dirs label' e' → label = label'

theorem OneLabel.nil : OneLabel output [] := by simp [OneLabel]

theorem label_eq_of_pageFrom {names names' : List Text} (hd : ∀ name ∈ names, name ∉ names') {e' : Emission}
    (he : PageFrom output dirs label names e) (he' : PageFrom output dirs label names' e') {folder : List Text}
    {l l' : Text} (h : PageOf output folder l e) (h' : PageOf output folder l' e') : l = l' := by
  -- Either both are pages of the folder itself, or they lie below entries of different names.
  rcases he with he | ⟨name, hm, more, other, he⟩ <;> rcases he' with he' | ⟨name', hm', more', other', he'⟩
  · exact (h.unique he).2.trans (h'.unique he').2.symm
  · have hfolder := (he.unique h).1.trans (h'.unique he').1
    simp at hfolder
  · have hfolder := (he.unique h).1.trans (h'.unique he').1
    simp at hfolder
  · have hfolder := (he.unique h).1.trans (h'.unique he').1
    simp only [List.append_assoc, List.append_cancel_left_eq, List.singleton_append, List.cons.injEq] at hfolder
    exact (hd name hm (hfolder.1 ▸ hm')).elim

/-- **Pages that come from different entries of a folder** are labelled alike if those of each entry are. -/
theorem OneLabel.append {names names' : List Text} (h : OneLabel output es) (k : OneLabel output fs)
    (hes : ∀ e ∈ es, PageFrom output dirs label names e) (hfs : ∀ e ∈ fs, PageFrom output dirs label names' e)
    (hd : ∀ name ∈ names, name ∉ names') : OneLabel output (es ++ fs) := by
  intro e he e' he' folder l l' hl hl'
  rcases List.mem_append.1 he with he | he <;> rcases List.mem_append.1 he' with he' | he'
  · exact h e he e' he' folder l l' hl hl'
  · exact label_eq_of_pageFrom hd (hes e he) (hfs e' he') hl hl'
  · exact (label_eq_of_pageFrom hd (hes e' he') (hfs e he) hl' hl).symm
  · exact k e he e' he' folder l l' hl hl'

theorem OneLabel.single : OneLabel output [e] := by
  intro e₁ h₁ e₂ h₂ folder l l' hl hl'
  rw [List.mem_singleton.1 h₁] at hl
  rw [List.mem_singleton.1 h₂] at hl'
  exact (hl.unique hl').2

/-! ## Groups of folders -/

/-- **A slug that is that of a page of a folder.** -/
def IsListed (output : Path) (dirs : List Text) (label : Text) (es : List Emission) (slug : Text) : Prop :=
  ∃ e ∈ es, PageOf output dirs label e ∧ slug = Nav.slug (Text.join ['/'] dirs) e.request.context.baseName

/-- **A group that lists pages of one folder**, converted for its label. -/
def OfFolder (output : Path) (es : List Emission) (g : Nav.Group) : Prop :=
  ∃ dirs, (∀ name ∈ dirs, IsEntryName name) ∧ ∀ slug ∈ g.pages, IsListed output dirs g.label es slug

theorem IsListed.mono (h : ∀ e ∈ es, e ∈ fs) {slug : Text} (k : IsListed output dirs label es slug) :
    IsListed output dirs label fs slug := by
  obtain ⟨e, he, hpage, hslug⟩ := k
  exact ⟨e, h e he, hpage, hslug⟩

theorem OfFolder.mono (h : ∀ e ∈ es, e ∈ fs) {g : Nav.Group} (k : OfFolder output es g) : OfFolder output fs g := by
  obtain ⟨dirs, hdirs, hpages⟩ := k
  exact ⟨dirs, hdirs, fun slug hs => (hpages slug hs).mono h⟩

/-- **What some entries of a folder add** to its group and to the pages that are written. -/
structure Fills (output : Path) (dirs : List Text) (label : Text) (names : List Text) (es : List Emission)
    (g g' : Nav.Group) : Prop where
  one : OneLabel output es
  origin : ∀ e ∈ es, PageFrom output dirs label names e
  sameLabel : g'.label = g.label
  pages : ∀ slug ∈ g'.pages, slug ∈ g.pages ∨ IsListed output dirs label es slug
  nested : ∀ h, Nested h g'.items → Nested h g.items ∨ OfFolder output es h

namespace Fills

variable {names names' : List Text} {g g₁ g₂ : Nav.Group}

theorem refl (output : Path) (dirs : List Text) (label : Text) (names : List Text) (g : Nav.Group) :
    Fills output dirs label names [] g g :=
  ⟨.nil, by simp, rfl, fun _ => .inl, fun _ => .inl⟩

theorem trans (h : Fills output dirs label names es g g₁) (k : Fills output dirs label names' fs g₁ g₂)
    (hd : ∀ name ∈ names, name ∉ names') : Fills output dirs label (names ++ names') (es ++ fs) g g₂ where
  one := h.one.append k.one h.origin k.origin hd
  origin e he := (List.mem_append.1 he).elim (fun he => (h.origin e he).mono fun _ => List.mem_append_left _)
    fun he => (k.origin e he).mono fun _ => List.mem_append_right _
  sameLabel := k.sameLabel.trans h.sameLabel
  pages slug hs := by
    rcases k.pages slug hs with hs | hs
    · exact (h.pages slug hs).imp_right (.mono fun _ => List.mem_append_left _)
    · exact .inr (hs.mono fun _ => List.mem_append_right _)
  nested other ho := by
    rcases k.nested other ho with ho | ho
    · exact (h.nested other ho).imp_right (.mono fun _ => List.mem_append_left _)
    · exact .inr (ho.mono fun _ => List.mem_append_right _)

end Fills

/-- **A group that a walk leaves**, and the pages that it writes, are labelled by folder. -/
structure Labelled (output : Path) (dirs : List Text) (es : List Emission) (g : Nav.Group) : Prop where
  one : OneLabel output es
  under : ∀ e ∈ es, PageUnder output dirs e
  pages : ∀ slug ∈ g.pages, IsListed output dirs g.label es slug
  nested : ∀ h, Nested h g.items → OfFolder output es h

section Walk

variable {convert : Converter} {w w' : World} {g g' : Nav.Group}

theorem writePage_labelled {source : Path} (hd : ∀ name ∈ dirs, IsEntryName name) (hf : '/' ∉ source.name) {slug : Text}
    (h : writePage convert output source (Text.join ['/'] dirs) (some label) w = (.ok slug, w')) :
    ∃ e, w'.written = w.written ++ [e] ∧ PageOf output dirs label e ∧
      slug = Nav.slug (Text.join ['/'] dirs) e.request.context.baseName := by
  obtain ⟨_, bytes, _, _, _, hslug, _, _, hw'⟩ := writePage_steps h
  refine ⟨_, congrArg World.written hw', ⟨?_, rfl, rfl, fun hc => hf (mem_of_mem_baseName hc)⟩, hslug⟩
  rw [targetPath_join output hd hf, targetAt, Address.target, Address.folders_append, Address.file_append]

theorem pages_addPage {slug other : Text} (h : other ∈ (g.addPage slug).2.pages) : other ∈ g.pages ∨ other = slug := by
  by_cases hm : slug ∈ g.pages
  · rw [Group.addPage_of_mem hm] at h
    exact .inl h
  · rw [addPage_of_not_mem hm] at h
    simpa [Group.pages, Item.slug?] using h

theorem Labelled.within {es : List Emission} (h : Labelled output dirs es g) (hd : ∀ name ∈ dirs, IsEntryName name)
    {other : Nav.Group} (ho : Within other g) : OfFolder output es other := by
  rcases ho with rfl | ho
  · exact ⟨dirs, hd, h.pages⟩
  · exact h.nested other ho

theorem addSibling_fills (hd : ∀ name ∈ dirs, IsEntryName name) {s : Sibling} (hname : IsEntryName s.name)
    (hpath : s.path.name = s.name) {below : Path → Text → Job Nav.Group}
    (hbelow : ∀ child, below s.path (Text.join ['/'] (dirs ++ [s.name])) w = (.ok child, w') →
      ∃ es, w'.written = w.written ++ es ∧ Labelled output (dirs ++ [s.name]) es child)
    (h : addSibling convert output below (Text.join ['/'] dirs) label g s w = (.ok g', w')) :
    ∃ es, w'.written = w.written ++ es ∧ Fills output dirs label [s.name] es g g' := by
  rcases addSibling_eq_ok h with ⟨_, child, hchild, rfl⟩ | ⟨_, slug, u, hslug, rfl, _, hw⟩ | ⟨_, _, rfl, rfl⟩
  · rw [joinPaths_join dirs (fun hc => hname.1.2 (List.mem_of_head? hc)) fun n hn => (hd n hn).1] at hchild
    obtain ⟨es, hes, hchild⟩ := hbelow child hchild
    refine ⟨es, hes, hchild.one, fun e he => .inr ⟨s.name, List.mem_singleton_self _, hchild.under e he⟩, ?_, ?_, ?_⟩
    · unfold Group.addGroup
      split <;> rfl
    · exact fun slug hs => .inl (by rwa [pages_addGroup] at hs)
    · refine fun other ho => (nested_addGroup ho).imp_right fun ho => hchild.within ?_ ho
      exact List.forall_mem_append.2 ⟨hd, List.forall_mem_singleton.2 hname⟩
  · obtain ⟨e, he, hpage, rfl⟩ := writePage_labelled hd (hpath.symm ▸ hname.1.2) hslug
    refine ⟨[e], hw.trans he, .single, by simpa using .inl hpage, ?_, fun other ho => ?_, fun other ho => ?_⟩
    · unfold Group.addPage
      split <;> rfl
    · refine (pages_addPage ho).imp_right fun ho => ?_
      exact ⟨e, List.mem_singleton_self _, hpage, ho⟩
    · exact .inl (nested_addPage ho)
  · exact ⟨[], by simp, .refl _ _ _ _ _⟩

theorem foldlM_fills (hp : output.Proper) (hd : ∀ name ∈ dirs, IsEntryName name) {depth : Nat}
    (hbelow : ∀ {directory : Path} {dirs : List Text} {child : Nav.Group} {w w' : World}, w.disk.Sound →
      (∀ name ∈ dirs, IsEntryName name) →
      walkWithin convert output depth directory (Text.join ['/'] dirs) w = (.ok child, w') →
      ∃ es, w'.written = w.written ++ es ∧ Labelled output dirs es child) :
    ∀ {entries : List Sibling} {g g' : Nav.Group} {w w' : World}, w.disk.Sound →
      (∀ s ∈ entries, IsEntryName s.name ∧ s.path.name = s.name) → (entries.map Sibling.name).Nodup →
      entries.foldlM (addSibling convert output (walkWithin convert output depth) (Text.join ['/'] dirs) label) g w =
        (.ok g', w') →
      ∃ es, w'.written = w.written ++ es ∧ Fills output dirs label (entries.map Sibling.name) es g g'
  | [], _, _, _, _, _, _, _, h => by
    obtain ⟨rfl, rfl⟩ := Action.pure_eq_ok_iff.1 h
    exact ⟨[], by simp, .refl _ _ _ _ _⟩
  | s :: entries, g, g', w, w', hs, hnames, hnodup, h => by
    obtain ⟨⟨hname, hpath⟩, hrest⟩ := List.forall_mem_cons.1 hnames
    obtain ⟨hnew, hnodup⟩ := List.nodup_cons.1 hnodup
    obtain ⟨g₁, u, hstep, h⟩ := Action.foldlM_cons_eq_ok h
    have hw : Writes w u := addSibling_writes hp (fun child hchild => walkWithin_writes hp depth hchild) hstep
    obtain ⟨es, hes, hfills⟩ := addSibling_fills hd hname hpath (fun child hchild => hbelow hs
      (List.forall_mem_append.2 ⟨hd, List.forall_mem_singleton.2 hname⟩) hchild) hstep
    obtain ⟨fs, hfs, hmore⟩ := foldlM_fills hp hd hbelow (hw.sound hs) hrest hnodup h
    exact ⟨es ++ fs, by rw [hfs, hes, List.append_assoc],
      hfills.trans hmore fun name hn => List.mem_singleton.1 hn ▸ hnew⟩

theorem nodup_of_siblings {d : Disk} {p : Path} {entries : List Sibling} (hs : d.Sound)
    (h : siblings d p = .ok entries) : (entries.map Sibling.name).Nodup := by
  obtain ⟨l, _, hperm, hall⟩ := siblings_spec hs h
  have hnames : entries.map Sibling.name = (entries.map Sibling.path).map Path.name := by
    rw [List.map_map]
    exact List.map_congr_left fun s hm => (siblingAt_spec (hall s hm)).1
  rw [hnames, (hperm.map Path.name).nodup_iff, map_name_child]
  exact Disk.nodup_namesAt hs.nodup l

/-- **A walk labels its pages by folder.** -/
theorem walkWithin_labelled (hp : output.Proper) : ∀ (depth : Nat) {directory : Path} {dirs : List Text} {g : Nav.Group}
    {w w' : World}, w.disk.Sound → (∀ name ∈ dirs, IsEntryName name) →
    walkWithin convert output depth directory (Text.join ['/'] dirs) w = (.ok g, w') →
    ∃ es, w'.written = w.written ++ es ∧ Labelled output dirs es g
  | 0, _, _, _, _, _, _, _, h => by cases h
  | depth + 1, directory, dirs, g, w, w', hs, hd, h => by
    obtain ⟨label, entries, _, hentries, hadded⟩ := walkWithin_eq_ok h
    obtain ⟨es, hes, hfills⟩ := foldlM_fills hp hd (walkWithin_labelled hp depth) hs
      (fun s hm => siblings_entryNames hs hentries s (List.mem_filter.1 hm).1)
      ((nodup_of_siblings hs hentries).sublist (List.filter_sublist.map _)) hadded
    have hlabel : g.label = label := hfills.sameLabel
    refine ⟨es, hes, hfills.one, fun e he => (hfills.origin e he).under, fun slug hslug => ?_, fun other ho => ?_⟩
    · rw [hlabel]
      exact (hfills.pages slug hslug).resolve_left (by simp [Group.pages])
    · refine (hfills.nested other ho).resolve_left ?_
      rintro (h | ⟨h, _⟩) <;> cases h

end Walk
end DocFerry.Site
