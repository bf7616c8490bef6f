import DocFerry.Files.Change
import DocFerry.Proofs.Action
import DocFerry.Proofs.Files.Settling
import DocFerry.Proofs.Text.Pieces
/-!
# How a disk grows

Making directories and writing files let a disk grow: every entry keeps its kind, no link is added, and
outside the area that is written to nothing changes but that directories appear where nothing was
(`Disk.Grows`).

Main facts: a path that is found stays found, and leads to the same location (`Disk.Grows.find`), and an entry
put where nothing was, or over one of its kind, lets a disk grow (`Disk.grows_put`).
-/
namespace DocFerry

/-- **A path continued by names.** -/
def Path.descend (p : Path) (names : List Text) : Path := { p with names := p.names ++ names }

theorem Path.child_descend (p : Path) (names : List Text) (name : Text) :
    (p.descend names).child name = p.descend (names ++ [name]) := by
  simp [Path.descend, Path.child]

theorem Path.descend_nil (p : Path) : p.descend [] = p := by simp [Path.descend]

theorem Path.name_descend (p : Path) {names : List Text} (hne : names ≠ []) :
    (p.descend names).name = names.getLast hne := by
  simp [Path.name, Path.descend, List.getLast?_append_of_ne_nil _ hne, List.getLast?_eq_some_getLast hne]

/-- **A name that a path can hold**: neither empty nor a single dot, and without a slash. -/
def Path.IsStep (name : Text) : Prop := Path.isName name = true ∧ '/' ∉ name

/-- **A path as it is read from a text**: of names that a path can hold. -/
def Path.Proper (p : Path) : Prop := ∀ name ∈ p.names, Path.IsStep name

/-- **Every path read from a text is proper.** -/
theorem Path.ofText_proper (s : Text) : (Path.ofText s).Proper := by
  intro name hn
  obtain ⟨hs, hname⟩ := List.mem_filter.1 hn
  exact ⟨hname, Text.not_mem_of_mem_splitWhere (by simp) s name hs⟩

theorem Path.Proper.parent {p : Path} (h : p.Proper) : p.parent.Proper :=
  fun name hn => h name (List.dropLast_subset _ hn)

theorem Path.Proper.descend {p : Path} (h : p.Proper) {names : List Text} (hn : ∀ name ∈ names, Path.IsStep name) :
    (p.descend names).Proper := fun name hm => (List.mem_append.1 hm).elim (h name) (hn name)

namespace Files

/-- **A name that an entry can have**: one that a path can hold, and that does not lead up. -/
def IsEntryName (name : Text) : Prop := Path.IsStep name ∧ name ≠ Path.up

theorem not_mem_up {l : Location} (h : ∀ name ∈ l, IsEntryName name) : Path.up ∉ l := fun hm => (h _ hm).2 rfl

/-- **A walk along proper names from a place of entry names** ends at one. -/
theorem Walks.entryNames {d : Disk} {k : Nat} {base : Location} {names : List Text} {place : Place}
    (h : Walks d k base names place) (hb : ∀ name ∈ base, IsEntryName name)
    (hn : ∀ name ∈ names, Path.IsStep name) : ∀ name ∈ place.location, IsEntryName name := by
  have hsnoc : ∀ {base : Location} {name : Text}, (∀ name ∈ base, IsEntryName name) → Path.IsStep name →
      name ≠ Path.up → ∀ n ∈ base ++ [name], IsEntryName n := by
    intro base name hb hs hup n hm
    rcases List.mem_append.1 hm with hm | hm
    · exact hb n hm
    · exact List.mem_singleton.1 hm ▸ ⟨hs, hup⟩
  induction h with
  | stay => exact hb
  | up _ ih =>
    exact ih (fun n h => hb n (List.dropLast_subset _ h)) fun n h => hn n (List.mem_cons_of_mem _ h)
  | into hup _ _ ih =>
    exact ih (hsnoc hb (hn _ List.mem_cons_self) hup) fun n h => hn n (List.mem_cons_of_mem _ h)
  | @follow _ base _ target rest _ _ _ _ ih =>
    refine ih (fun n h => ?_) fun n h => ?_
    · unfold linkStart at h
      split at h
      · cases h
      · exact hb n h
    · rcases List.mem_append.1 h with h | h
      · exact Path.ofText_proper target n h
      · exact hn n (List.mem_cons_of_mem _ h)
  | file hup => exact hsnoc hb (hn _ List.mem_cons_self) hup
  | absent hup => exact hsnoc hb (hn _ List.mem_cons_self) hup

/-- **Entries of one kind**; of links, the same link. -/
def Entry.SameKind : Entry → Entry → Prop
  | .file _, .file _ => True
  | .directory, .directory => True
  | .link s, .link t => s = t
  | _, _ => False

theorem Entry.SameKind.refl : ∀ e : Entry, e.SameKind e
  | .file _ => trivial
  | .directory => trivial
  | .link _ => rfl

theorem Entry.SameKind.trans {a b c : Entry} (h : a.SameKind b) (k : b.SameKind c) : a.SameKind c := by
  cases a <;> cases b <;> cases c <;> simp_all [SameKind]

theorem Entry.SameKind.directory_iff {a b : Entry} (h : a.SameKind b) : a = .directory ↔ b = .directory := by
  cases a <;> cases b <;> simp_all [SameKind]

/-- **An area of a disk.** -/
abbrev Area := Location → Prop

/-- **No area at all.** -/
def Area.none : Area := fun _ => False

/-- **What lies at or below a location.** -/
def Area.below (base : Location) : Area := fun l => base <+: l

namespace Disk

/-- **A disk in order**: no location is given twice, and every name is one that an entry can have. -/
structure Sound (d : Disk) : Prop where
  nodup : (Table.keys d.entries).Nodup
  names : ∀ l e, d.locate? l = some e → ∀ name ∈ l, IsEntryName name
  here : ∀ name ∈ d.here, IsEntryName name

/-- **A disk grown from another by writing within an area.** -/
structure Grows (area : Area) (d d' : Disk) : Prop where
  links : d.SameLinks d'
  sound : d.Sound → d'.Sound
  kept : ∀ l e, d.locate? l = some e → ∃ e', d'.locate? l = some e' ∧ e.SameKind e'
  outside : ∀ l, ¬ area l → d'.locate? l = d.locate? l ∨ d.locate? l = none ∧ d'.locate? l = some .directory

theorem Grows.refl (area : Area) (d : Disk) : d.Grows area d :=
  ⟨.refl d, id, fun _ e h => ⟨e, h, .refl e⟩, fun _ _ => .inl rfl⟩

theorem Grows.trans {area : Area} {d e f : Disk} (h : d.Grows area e) (k : e.Grows area f) : d.Grows area f where
  links := h.links.trans k.links
  sound hs := k.sound (h.sound hs)
  kept l a ha := by
    obtain ⟨b, hb, hab⟩ := h.kept l a ha
    obtain ⟨c, hc, hbc⟩ := k.kept l b hb
    exact ⟨c, hc, hab.trans hbc⟩
  outside l hl := by
    rcases h.outside l hl with he | ⟨hn, he⟩
    · rw [← he]
      exact k.outside l hl
    · rcases k.outside l hl with hf | ⟨hn', _⟩
      · exact .inr ⟨hn, hf.trans he⟩
      · rw [he] at hn'; cases hn'

theorem Grows.mono {area wider : Area} {d d' : Disk} (h : d.Grows area d') (hw : ∀ l, area l → wider l) :
    d.Grows wider d' :=
  ⟨h.links, h.sound, h.kept, fun l hl => h.outside l fun ha => hl (hw l ha)⟩

/-- **A disk that grows twice** grows, within some area. -/
theorem exists_grows_trans {d e f : Disk} :
    (∃ area, d.Grows area e) → (∃ area, e.Grows area f) → ∃ area, d.Grows area f
  | ⟨area, h⟩, ⟨other, k⟩ =>
    ⟨fun l => area l ∨ other l, (h.mono fun _ hl => .inl hl).trans (k.mono fun _ hl => .inr hl)⟩

theorem Grows.wide {area : Area} {d d' : Disk} (h : d.Grows .none d') : d.Grows area d' := h.mono fun _ h => h.elim

theorem Sound.start {d : Disk} (h : d.Sound) (p : Path) : ∀ name ∈ d.start p, IsEntryName name := by
  unfold Disk.start
  split
  · simp
  · exact h.here

theorem Sound.up_not_mem_here {d : Disk} (h : d.Sound) : Path.up ∉ d.here := not_mem_up h.here

/-- **A proper path leads to a place of entry names.** -/
theorem Sound.entryNames_of_find {d : Disk} (h : d.Sound) {p : Path} (hp : p.Proper) {place : Place}
    (hf : d.find p = .ok place) : ∀ name ∈ place.location, IsEntryName name :=
  (walks_of_find hf).2.entryNames (h.start p) hp

theorem Grows.walks {area : Area} {d d' : Disk} (h : d.Grows area d') {k : Nat} {base l : Location}
    {names : List Text} {e : Entry} (hw : Walks d k base names ⟨l, some e⟩) :
    ∃ e', Walks d' k base names ⟨l, some e'⟩ ∧ e.SameKind e' := by
  generalize hp : (⟨l, some e⟩ : Place) = place at hw
  induction hw with
  | stay =>
    cases hp
    exact ⟨_, .stay, trivial⟩
  | up _ ih =>
    obtain ⟨e', hw, he⟩ := ih hp
    exact ⟨e', .up hw, he⟩
  | into hup hd _ ih =>
    obtain ⟨e', hw, he⟩ := ih hp
    obtain ⟨dir, hd', hk⟩ := h.kept _ _ hd
    cases dir with
    | directory => exact ⟨e', .into hup hd' hw, he⟩
    | file => exact hk.elim
    | link => exact hk.elim
  | follow hup ht _ ih =>
    obtain ⟨e', hw, he⟩ := ih hp
    exact ⟨e', .follow hup ((h.links.link _ _).1 ht) hw, he⟩
  | file hup hf =>
    cases hp
    obtain ⟨file, hf', hk⟩ := h.kept _ _ hf
    cases file with
    | file bytes => exact ⟨_, .file hup hf', trivial⟩
    | directory => exact hk.elim
    | link => exact hk.elim
  | absent => cases hp

/-- **A path that is found stays found**, and leads to the same location. -/
theorem Grows.find {area : Area} {d d' : Disk} (h : d.Grows area d') {p : Path} {l : Location} {e : Entry}
    (hf : d.find p = .ok ⟨l, some e⟩) : ∃ e', d'.find p = .ok ⟨l, some e'⟩ ∧ e.SameKind e' := by
  obtain ⟨hr, hw⟩ := walks_of_find hf
  obtain ⟨e', hw', he⟩ := h.walks hw
  refine ⟨e', ?_, he⟩
  unfold Disk.find
  rw [hr]
  show d'.walkLinks maxLinks (d'.start p) p.names = _
  rw [h.links.start]
  exact hw'.walkLinks

theorem locate?_put (d : Disk) {l : Location} (hl : l ≠ []) (e : Entry) (m : Location) :
    (d.put l e).locate? m = if m = l then some e else d.locate? m := by
  split
  · rename_i hm
    rw [hm, locate?_put_self d e hl]
  · rename_i hm
    rw [locate?_put_ne d e hm]

theorem entries_put (d : Disk) {l : Location} (hl : l ≠ []) (e : Entry) :
    (d.put l e).entries = Table.set l e d.entries ∧ (d.put l e).here = d.here := by
  simp [put, hl]

/-- **An entry put where nothing was, or over one of its kind**, lets a disk grow. -/
theorem grows_put {area : Area} {d : Disk} {l : Location} {e : Entry} (hl : l ≠ [])
    (hup : d.Sound → ∀ name ∈ l, IsEntryName name) (hlink : ∀ target, e ≠ .link target)
    (hold : ∀ old, d.locate? l = some old → old.SameKind e)
    (harea : area l ∨ d.locate? l = none ∧ e = .directory) : d.Grows area (d.put l e) where
  links := by
    refine ⟨(entries_put d hl e).2, fun m target => ?_⟩
    rw [locate?_put d hl]
    split
    · rename_i hm
      subst hm
      constructor
      · intro h
        have hk := hold _ h
        cases e with
        | link t => exact absurd rfl (hlink t)
        | file => exact hk.elim
        | directory => exact hk.elim
      · intro h
        exact absurd (Option.some.inj h) (hlink target)
    · rfl
  sound hs := by
    refine ⟨?_, fun m a hm => ?_, ?_⟩
    · rw [(entries_put d hl e).1]
      exact Table.nodup_keys_set hs.nodup l e
    · rw [locate?_put d hl] at hm
      split at hm
      · rename_i h
        exact h ▸ hup hs
      · exact hs.names m a hm
    · rw [(entries_put d hl e).2]
      exact hs.here
  kept m a hm := by
    rw [locate?_put d hl]
    split
    · rename_i h
      exact ⟨e, rfl, hold a (h ▸ hm)⟩
    · exact ⟨a, hm, .refl a⟩
  outside m hm := by
    rw [locate?_put d hl]
    split
    · rename_i h
      subst h
      rcases harea with h | ⟨hn, he⟩
      · exact absurd h hm
      · exact .inr ⟨hn, he ▸ rfl⟩
    · exact .inl rfl

end Disk
end Files
end DocFerry
