import DocFerry.Proofs.Files.Below
import DocFerry.Proofs.Site.Hollow
/-!
# The group of a folder, entry by entry

A walk comes to the entries of a folder in their order.  Those that are hidden, are neither pages nor folders, lead to
no page, or are pages whose base name has appeared before, are passed over, and each of those that remain is an item of
the group: a page by its slug, a folder by its own group (`Mirrors`).  The walk writes pages while it goes, so an
entry is seen as it is when the walk comes to it.

Main statement: the group that a walk leaves mirrors its folder, in the worlds on the way (`walkWithin_mirrors`).
-/
namespace DocFerry.Site

open Files Nav

/-! ## What remains of the entries of a folder -/

/-- An entry of a folder, and the world when a walk comes to it. -/
structure Stop where
  entry : Sibling
  world : World

namespace Stop

def baseName (v : Stop) : Text := Path.baseName v.entry.name

/-- **An entry that stays**: it is shown, and it is a page or a folder from which a page is reached. -/
def Stays (v : Stop) : Prop :=
  v.entry.isIgnored = false ∧
    (v.entry.isPage = true ∨ v.entry.isDirectory = true ∧ Reaches v.world.disk v.entry.path)

end Stop

/-- **Entries without the pages whose base name has appeared before.** -/
def dropRepeated : (seen : List Text) → List Stop → List Stop
  | _, [] => []
  | seen, v :: rest =>
    if v.entry.isPage then
      if v.baseName ∈ seen then dropRepeated seen rest else v :: dropRepeated (v.baseName :: seen) rest
    else v :: dropRepeated seen rest

open Classical in
/-- **What remains of the entries of a folder**, in their order. -/
noncomputable def remaining (seen : List Text) (stops : List Stop) : List Stop :=
  dropRepeated seen (stops.filter fun v => v.Stays)

section Remaining

variable {seen : List Text} {v : Stop} {rest : List Stop}

theorem remaining_cons_of_not (h : ¬ v.Stays) : remaining seen (v :: rest) = remaining seen rest := by
  rw [remaining, List.filter_cons_of_neg (by simpa using h), remaining]

theorem remaining_cons_of_directory (h : v.Stays) (hdir : v.entry.isDirectory = true) :
    remaining seen (v :: rest) = v :: remaining seen rest := by
  have hpage : v.entry.isPage = false := by simp [Sibling.isPage, hdir]
  rw [remaining, List.filter_cons_of_pos (by simpa using h), dropRepeated, hpage]
  rfl

theorem remaining_cons_of_seen (h : v.Stays) (hpage : v.entry.isPage = true) (hseen : v.baseName ∈ seen) :
    remaining seen (v :: rest) = remaining seen rest := by
  rw [remaining, List.filter_cons_of_pos (by simpa using h), dropRepeated, if_pos hpage, if_pos hseen, remaining]

theorem remaining_cons_of_new (h : v.Stays) (hpage : v.entry.isPage = true) (hnew : v.baseName ∉ seen) :
    remaining seen (v :: rest) = v :: remaining (v.baseName :: seen) rest := by
  rw [remaining, List.filter_cons_of_pos (by simpa using h), dropRepeated, if_pos hpage, if_neg hnew, remaining]

theorem dropRepeated_subset : ∀ {stops : List Stop} {seen : List Text}, ∀ u ∈ dropRepeated seen stops, u ∈ stops
  | [], _, _, h => h
  | v :: stops, seen, u, h => by
    rw [dropRepeated] at h
    split at h
    · split at h
      · exact List.mem_cons_of_mem _ (dropRepeated_subset u h)
      · exact (List.mem_cons.1 h).elim (· ▸ List.mem_cons_self) fun h => List.mem_cons_of_mem _ (dropRepeated_subset u h)
    · exact (List.mem_cons.1 h).elim (· ▸ List.mem_cons_self) fun h => List.mem_cons_of_mem _ (dropRepeated_subset u h)

theorem mem_of_mem_remaining {stops : List Stop} {u : Stop} (h : u ∈ remaining seen stops) : u ∈ stops :=
  (List.mem_filter.1 (dropRepeated_subset u h)).1

end Remaining

/-! ## Groups that mirror folders -/

section Mirrors

variable (Met : World → Prop)

mutual

/-- **An item that mirrors an entry**: a page has the slug of its place, and a folder is mirrored by its own group. -/
def ItemMirrors (relative : Text) (v : Stop) : Item → Prop
  | .page slug => v.entry.isPage = true ∧ slug = Nav.slug relative v.baseName
  | .group label expanded items =>
    v.entry.isDirectory = true ∧ Category.groupLabel v.world.disk v.entry.path = .ok label ∧ expanded = false ∧
      ∃ stops : List Stop, siblings v.world.disk v.entry.path = .ok (stops.map Stop.entry) ∧
        (∀ u ∈ stops, Met u.world) ∧ ItemsMirror (joinPaths relative v.entry.name) (remaining [] stops) items

/-- **Items that mirror entries**, one by one. -/
def ItemsMirror (relative : Text) : List Stop → List Item → Prop
  | [], [] => True
  | v :: stops, item :: items => ItemMirrors relative v item ∧ ItemsMirror relative stops items
  | _, _ => False

end

/-- **A group that mirrors a folder**: it has the folder's label, and its items mirror what remains of the entries,
each of which is seen in some world that is met. -/
def Mirrors (w : World) (directory : Path) (relative : Text) (g : Nav.Group) : Prop :=
  Category.groupLabel w.disk directory = .ok g.label ∧ g.expanded = false ∧
    ∃ stops : List Stop, siblings w.disk directory = .ok (stops.map Stop.entry) ∧ (∀ v ∈ stops, Met v.world) ∧
      ItemsMirror Met relative (remaining [] stops) g.items

end Mirrors

variable {Met Met' : World → Prop}

theorem itemMirrors_toItem {relative : Text} {v : Stop} {g : Nav.Group} :
    ItemMirrors Met relative v g.toItem ↔
      v.entry.isDirectory = true ∧ Mirrors Met v.world v.entry.path (joinPaths relative v.entry.name) g := Iff.rfl

/-- **Items mirror entries** if they are as many, and each mirrors the entry in its place. -/
theorem itemsMirror_iff {relative : Text} : ∀ {stops : List Stop} {items : List Item},
    ItemsMirror Met relative stops items ↔ List.Forall₂ (ItemMirrors Met relative) stops items
  | [], [] => by simp [ItemsMirror]
  | [], _ :: _ => by simp [ItemsMirror]
  | _ :: _, [] => by simp [ItemsMirror]
  | v :: stops, item :: items => by rw [ItemsMirror, List.forall₂_cons, itemsMirror_iff]

mutual

theorem ItemMirrors.mono (h : ∀ u, Met u → Met' u) : ∀ {item : Item} {relative : Text} {v : Stop},
    ItemMirrors Met relative v item → ItemMirrors Met' relative v item
  | .page _, _, _, hm => by rwa [ItemMirrors] at hm ⊢
  | .group _ _ items, _, _, hm => by
    rw [ItemMirrors] at hm ⊢
    obtain ⟨hdir, hlabel, hexpanded, stops, hlist, hmet, hitems⟩ := hm
    exact ⟨hdir, hlabel, hexpanded, stops, hlist, fun u hu => h _ (hmet u hu), hitems.mono h⟩

theorem ItemsMirror.mono (h : ∀ u, Met u → Met' u) : ∀ {items : List Item} {relative : Text} {stops : List Stop},
    ItemsMirror Met relative stops items → ItemsMirror Met' relative stops items
  | [], _, [], _ => trivial
  | [], _, _ :: _, hm => hm.elim
  | _ :: _, _, [], hm => hm.elim
  | _ :: _, _, _ :: _, ⟨hitem, hitems⟩ => ⟨hitem.mono h, hitems.mono h⟩

end

theorem Mirrors.mono (h : ∀ u, Met u → Met' u) {w : World} {directory : Path} {relative : Text} {g : Nav.Group}
    (hm : Mirrors Met w directory relative g) : Mirrors Met' w directory relative g := by
  obtain ⟨hlabel, hexpanded, stops, hlist, hmet, hitems⟩ := hm
  exact ⟨hlabel, hexpanded, stops, hlist, fun v hv => h _ (hmet v hv), hitems.mono h⟩

/-! ## Slugs and base names -/

/-- **Two pages of one folder have one slug** only if they have one base name. -/
theorem baseName_eq_of_slug {relative a b : Text} (ha : '/' ∉ a) (hb : '/' ∉ b)
    (h : Nav.slug relative a = Nav.slug relative b) : a = b := by
  have hjoin : ∃ front, ∀ c : Text, '/' ∉ c → joinPaths (forwardSlashes relative) c = front ++ c := by
    by_cases hend : (forwardSlashes relative).isEmpty ∨ (forwardSlashes relative).getLast? = some '/'
    · refine ⟨forwardSlashes relative, fun c hc => ?_⟩
      rw [joinPaths, if_neg fun hh => hc (List.mem_of_head? hh), if_pos hend]
    · refine ⟨forwardSlashes relative ++ ['/'], fun c hc => ?_⟩
      rw [joinPaths, if_neg fun hh => hc (List.mem_of_head? hh), if_neg hend, List.append_assoc]
      rfl
  have hdrop : ∀ c : Text, '/' ∉ c → c.dropWhile (· == '/') = c := by
    rintro (_ | ⟨x, c⟩) hc
    · rfl
    · refine List.dropWhile_cons_of_neg fun hx => hc ?_
      rw [← beq_iff_eq.1 hx]
      exact List.mem_cons_self
  obtain ⟨front, hfront⟩ := hjoin
  rw [Nav.slug, Nav.slug, hfront a ha, hfront b hb, List.dropWhile_append, List.dropWhile_append, hdrop a ha,
    hdrop b hb] at h
  split at h
  · exact h
  · exact List.append_cancel_left h

/-- **The base names under which a group lists pages** of its folder. -/
def Seen (relative : Text) (g : Nav.Group) (seen : List Text) : Prop :=
  ∀ base : Text, '/' ∉ base → (Nav.slug relative base ∈ g.pages ↔ base ∈ seen)

section Seen

variable {relative : Text} {g : Nav.Group} {seen : List Text}

theorem Seen.addGroup (h : Seen relative g seen) (child : Nav.Group) : Seen relative (g.addGroup child).2 seen := by
  rwa [Seen, pages_addGroup]

theorem Seen.addPage (h : Seen relative g seen) {base : Text} (hbase : '/' ∉ base) (hnew : base ∉ seen) :
    Seen relative (g.addPage (Nav.slug relative base)).2 (base :: seen) := by
  intro other hother
  rw [addPage_of_not_mem fun hm => hnew ((h base hbase).1 hm)]
  have hpages : ({ g with items := g.items ++ [.page (Nav.slug relative base)] } : Nav.Group).pages =
      g.pages ++ [Nav.slug relative base] := by simp [Group.pages, Item.slug?]
  rw [hpages, List.mem_append, List.mem_singleton, List.mem_cons, h other hother, or_comm]
  exact or_congr_left ⟨baseName_eq_of_slug hother hbase, fun he => he ▸ rfl⟩

end Seen

/-! ## Walks -/

/-- **The worlds on the way** from one world to another by pages that are written. -/
def Between (w w' u : World) : Prop := Writes w u ∧ Writes u w'

variable {convert : Converter} {output : Path}

/-- **An entry that a walk comes to** leaves the group as it is, or is mirrored by an item that is added. -/
theorem addSibling_mirrors {below : Path → Text → Job Nav.Group} {relative label : Text} {g g' : Nav.Group} {s : Sibling}
    {seen : List Text} {w w' : World} (hname : '/' ∉ s.name) (hpath : s.path.name = s.name) (hshown : s.isIgnored = false)
    (hbelow : ∀ child, below s.path (joinPaths relative s.name) w = (.ok child, w') →
      Mirrors Met w s.path (joinPaths relative s.name) child ∧ (child.items ≠ [] ↔ Reaches w.disk s.path))
    (hseen : Seen relative g seen) (h : addSibling convert output below relative label g s w = (.ok g', w')) :
    ∃ items seen', g' = { g with items := g.items ++ items } ∧ Seen relative g' seen' ∧
      ∀ rest more, ItemsMirror Met relative (remaining seen' rest) more →
        ItemsMirror Met relative (remaining seen (⟨s, w⟩ :: rest)) (items ++ more) := by
  rcases addSibling_eq_ok h with ⟨hdir, child, hchild, rfl⟩ | ⟨hpage, slug, _, hslug, rfl, _⟩ | ⟨hdir, hpage, rfl, _⟩
  · -- A folder is added if its group has items, which it has exactly if a page is reached.
    obtain ⟨hmirrors, hitems⟩ := hbelow child hchild
    have hfile : s.isPage = false := by simp [Sibling.isPage, hdir]
    by_cases hr : Reaches w.disk s.path
    · rw [items_addGroup_of_ne_nil (hitems.2 hr)]
      refine ⟨[child.toItem], seen, rfl, items_addGroup_of_ne_nil (g := g) (hitems.2 hr) ▸ hseen.addGroup child,
        fun rest more hmore => ?_⟩
      rw [remaining_cons_of_directory ⟨hshown, .inr ⟨hdir, hr⟩⟩ hdir]
      exact ⟨itemMirrors_toItem.2 ⟨hdir, hmirrors⟩, hmore⟩
    · rw [items_addGroup_of_nil (not_ne_iff.1 fun hne => hr (hitems.1 hne))]
      refine ⟨[], seen, by rw [List.append_nil], hseen, fun rest more hmore => ?_⟩
      rwa [remaining_cons_of_not fun hstays => hstays.2.elim (by simp [hfile]) fun hstays => hr hstays.2]
  · -- A page is added if its slug is not there yet, which depends on its base name alone.
    obtain rfl : slug = Nav.slug relative (Path.baseName s.name) := by rw [(hasFile_of_writePage hslug).2, hpath]
    have hbase : '/' ∉ Path.baseName s.name := fun hc => hname (mem_of_mem_baseName hc)
    by_cases hnew : Path.baseName s.name ∈ seen
    · rw [Group.addPage_of_mem ((hseen _ hbase).2 hnew)]
      refine ⟨[], seen, by rw [List.append_nil], hseen, fun rest more hmore => ?_⟩
      rwa [remaining_cons_of_seen ⟨hshown, .inl hpage⟩ hpage hnew]
    · have hadded := addPage_of_not_mem fun hm => hnew ((hseen _ hbase).1 hm)
      refine ⟨[.page (Nav.slug relative (Path.baseName s.name))], _, hadded, hseen.addPage hbase hnew,
        fun rest more hmore => ?_⟩
      rw [remaining_cons_of_new ⟨hshown, .inl hpage⟩ hpage hnew]
      exact ⟨⟨hpage, rfl⟩, hmore⟩
  · refine ⟨[], seen, by rw [List.append_nil], hseen, fun rest more hmore => ?_⟩
    rwa [remaining_cons_of_not fun hstays => hstays.2.elim (by simp [hpage]) (by simp [hdir])]

theorem foldlM_mirrors (hp : output.Proper) {depth : Nat} {relative label : Text}
    (hbelow : ∀ {directory : Path} {relative : Text} {g : Nav.Group} {w w' : World}, w.disk.Sound →
      walkWithin convert output depth directory relative w = (.ok g, w') →
      Mirrors (Between w w') w directory relative g) :
    ∀ {entries : List Sibling} {g g' : Nav.Group} {seen : List Text} {w w' : World}, w.disk.Sound →
      (∀ s ∈ entries, '/' ∉ s.name ∧ s.path.name = s.name) → Seen relative g seen →
      (entries.filter fun s => !s.isIgnored).foldlM
        (addSibling convert output (walkWithin convert output depth) relative label) g w = (.ok g', w') →
      ∃ stops items, stops.map Stop.entry = entries ∧ (∀ v ∈ stops, Between w w' v.world) ∧
        g' = { g with items := g.items ++ items } ∧ ItemsMirror (Between w w') relative (remaining seen stops) items
  | [], g, g', seen, w, w', _, _, _, h => by
    obtain ⟨rfl, rfl⟩ := Action.pure_eq_ok_iff.1 h
    exact ⟨[], [], rfl, by simp, by rw [List.append_nil], trivial⟩
  | s :: entries, g, g', seen, w, w', hs, hnames, hseen, h => by
    obtain ⟨⟨hname, hpath⟩, hrest⟩ := List.forall_mem_cons.1 hnames
    by_cases hshown : s.isIgnored = true
    · -- The walk does not come to a hidden entry, which does not stay in whatever world it is seen.
      rw [List.filter_cons_of_neg (by simpa using hshown)] at h
      have hw := foldlM_writes hp (walkWithin_writes hp depth) h
      obtain ⟨stops, items, hentries, hmet, hg, hmirror⟩ := foldlM_mirrors hp hbelow hs hrest hseen h
      refine ⟨⟨s, w⟩ :: stops, items, by rw [List.map_cons, hentries], ?_, hg, ?_⟩
      · exact List.forall_mem_cons.2 ⟨⟨.refl w, hw⟩, hmet⟩
      · rwa [remaining_cons_of_not fun ⟨hstays, _⟩ => by simp [hshown] at hstays]
    · rw [List.filter_cons_of_pos (by simpa using hshown)] at h
      obtain ⟨g₁, u, hstep, h⟩ := Action.foldlM_cons_eq_ok h
      have hwu : Writes w u := addSibling_writes hp (fun child hchild => walkWithin_writes hp depth hchild) hstep
      have hw := foldlM_writes hp (walkWithin_writes hp depth) h
      have hchildren : ∀ child, walkWithin convert output depth s.path (joinPaths relative s.name) w = (.ok child, u) →
          Mirrors (Between w w') w s.path (joinPaths relative s.name) child ∧
            (child.items ≠ [] ↔ Reaches w.disk s.path) := fun child hchild =>
        ⟨(hbelow hs hchild).mono fun x hx => ⟨hx.1, hx.2.trans hw⟩, walkWithin_items_ne_nil_iff hp hs hchild⟩
      obtain ⟨items, seen', rfl, hseen', hadds⟩ := addSibling_mirrors hname hpath (by simpa using hshown) hchildren hseen
        hstep
      obtain ⟨stops, more, hentries, hmet, rfl, hmirror⟩ := foldlM_mirrors hp hbelow (hwu.sound hs) hrest hseen' h
      have hlater : ∀ x, Between u w' x → Between w w' x := fun x hx => ⟨hwu.trans hx.1, hx.2⟩
      refine ⟨⟨s, w⟩ :: stops, items ++ more, by rw [List.map_cons, hentries], ?_, by rw [List.append_assoc],
        hadds _ _ (hmirror.mono hlater)⟩
      exact List.forall_mem_cons.2 ⟨⟨.refl w, hwu.trans hw⟩, fun v hv => hlater _ (hmet v hv)⟩

/-- **The group that a walk leaves mirrors its folder**, in the worlds on the way. -/
theorem walkWithin_mirrors (hp : output.Proper) : ∀ (depth : Nat) {directory : Path} {relative : Text} {g : Nav.Group}
    {w w' : World}, w.disk.Sound → walkWithin convert output depth directory relative w = (.ok g, w') →
    Mirrors (Between w w') w directory relative g
  | 0, _, _, _, _, _, _, h => by cases h
  | depth + 1, directory, relative, g, w, w', hs, h => by
    obtain ⟨label, entries, hlabel, hentries, hadded⟩ := walkWithin_eq_ok h
    have hnames : ∀ s ∈ entries, '/' ∉ s.name ∧ s.path.name = s.name := fun s hm =>
      ⟨(siblings_entryNames hs hentries s hm).1.1.2, (siblings_entryNames hs hentries s hm).2⟩
    have hseen : Seen relative ⟨label, [], false⟩ [] := fun base _ => by simp [Group.pages]
    obtain ⟨stops, items, rfl, hmet, rfl, hmirror⟩ := foldlM_mirrors hp (walkWithin_mirrors hp depth) hs hnames hseen
      hadded
    exact ⟨hlabel, rfl, stops, hentries, hmet, hmirror⟩

end DocFerry.Site
