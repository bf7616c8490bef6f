import Mathlib.Data.List.Induction
import DocFerry.Proofs.Files.Change
/-!
# Disks as file systems hold them

A disk is a tree if every name is one that file systems allow and every entry stands in a directory
(`Disk.IsTree`).  Such a disk is in order (`IsTree.sound`), and whatever an entry stands below is a directory
(`IsTree.directory_above`).

Looking at an entry of a directory finds what lies there (`find_child`, `seek_child`), and a file stays as it is
until its own place is written to (`Grows.find_file`).  Removing a tree takes away what lies at or below its root and
nothing else (`removeTree_eq_ok`).
-/
namespace DocFerry.Files

open Text.Utf8 (Octets)

/-- **A name that file systems allow**: one that an entry can have, without a null character. -/
def isFileName (name : Text) : Bool :=
  Path.isName name && name != Path.up && !name.contains '/' && !name.contains (Char.ofNat 0)

theorem isEntryName_of_isFileName {name : Text} (h : isFileName name = true) : IsEntryName name := by
  simp only [isFileName, Bool.and_eq_true, bne_iff_ne, Bool.not_eq_true', List.contains_eq_mem,
    decide_eq_false_iff_not] at h
  exact ⟨⟨h.1.1.1, h.1.2⟩, h.1.1.2⟩

theorem isFileName_not_null {name : Text} (h : isFileName name = true) : name.contains (Char.ofNat 0) = false := by
  simp only [isFileName, Bool.and_eq_true, Bool.not_eq_true'] at h
  exact h.2

namespace Disk

/-- **A disk as a file system holds it.** -/
structure IsTree (d : Disk) : Prop where
  nodup : (Table.keys d.entries).Nodup
  names : ∀ e ∈ d.entries, e.1.all isFileName = true
  parents : ∀ e ∈ d.entries, d.locate? e.1.dropLast = some .directory
  here : d.locate? d.here = some .directory

theorem mem_entries_of_locate? {d : Disk} {l : Location} {e : Entry} (hl : l ≠ []) (h : d.locate? l = some e) :
    (l, e) ∈ d.entries := by
  rw [locate?, if_neg hl] at h
  exact Table.mem_of_get? h

theorem IsTree.fileNames {d : Disk} (h : d.IsTree) {l : Location} {e : Entry} (he : d.locate? l = some e) :
    ∀ name ∈ l, isFileName name = true := by
  intro name hn
  have hl : l ≠ [] := List.ne_nil_of_mem hn
  exact List.all_eq_true.1 (h.names _ (mem_entries_of_locate? hl he)) name hn

theorem IsTree.sound {d : Disk} (h : d.IsTree) : d.Sound :=
  ⟨h.nodup, fun _ _ he name hn => isEntryName_of_isFileName (h.fileNames he name hn),
    fun name hn => isEntryName_of_isFileName (h.fileNames h.here name hn)⟩

/-- **Whatever an entry stands in is a directory.** -/
def Closed (d : Disk) : Prop := ∀ l name e, d.locate? (l ++ [name]) = some e → d.locate? l = some .directory

theorem IsTree.closed {d : Disk} (h : d.IsTree) : d.Closed := fun l name _ he => by
  simpa using h.parents _ (mem_entries_of_locate? (by simp) he)

/-- **Whatever an entry stands below is a directory.** -/
theorem Closed.directory_above {d : Disk} (h : d.Closed) (l : Location) : ∀ (rest : List Text) {e : Entry},
    rest ≠ [] → d.locate? (l ++ rest) = some e → d.locate? l = some .directory := by
  intro rest
  induction rest using List.reverseRecOn with
  | nil => exact fun hr => absurd rfl hr
  | append_singleton rest name ih =>
    intro e _ he
    rw [← List.append_assoc] at he
    have hparent := h _ name e he
    by_cases hrest : rest = []
    · simpa [hrest] using hparent
    · exact ih hrest hparent

theorem IsTree.directory_above {d : Disk} (h : d.IsTree) (l : Location) (rest : List Text) {e : Entry}
    (hrest : rest ≠ []) (he : d.locate? (l ++ rest) = some e) : d.locate? l = some .directory :=
  h.closed.directory_above l rest hrest he

/-- **A disk without links** has none at or below any location. -/
theorem linkFree_of_entries {d : Disk} (h : ∀ e ∈ d.entries, ∀ target, e.2 ≠ .link target) (l : Location) :
    d.LinkFree l := by
  intro m target _ hm
  by_cases hroot : m = []
  · rw [hroot, locate?_root] at hm
    cases hm
  · exact h _ (mem_entries_of_locate? hroot hm) target rfl

/-- **The names in a directory are distinct.** -/
theorem nodup_namesAt {d : Disk} (h : (Table.keys d.entries).Nodup) (l : Location) : (d.namesAt l).Nodup := by
  have hkeys : d.entries.Pairwise fun a b => a.1 ≠ b.1 := List.pairwise_map.1 h
  have hkey : ∀ {m : Location} {name : Text},
      (if m.dropLast = l then m.getLast? else none) = some name → m = l ++ [name] := by
    intro m name hm
    split at hm
    · rename_i hl
      obtain ⟨rest, rfl⟩ := List.getLast?_eq_some_iff.1 hm
      simpa using hl
    · cases hm
  refine hkeys.filterMap _ fun a b hab x hx y hy hxy => hab ?_
  rw [hkey hx, hkey hy, hxy]

/-! ## Looking at the entries of a directory -/

theorem refusal?_eq_none {p : Path} (h : refusal? p = none) :
    p.names.any (·.contains (Char.ofNat 0)) = false := by
  unfold refusal? at h
  split at h
  · cases h
  · rename_i hn
    simpa using hn

/-- **What is found at an entry of a directory** is what lies there, unless that is a link. -/
theorem place_of_find_child {d : Disk} {p : Path} {l : Location} {name : Text} {place : Place}
    (hf : d.find p = .ok ⟨l, some .directory⟩) (hup : name ≠ Path.up)
    (hl : ∀ target, d.locate? (l ++ [name]) ≠ some (.link target)) (h : d.find (p.child name) = .ok place) :
    place = ⟨l ++ [name], d.locate? (l ++ [name])⟩ := by
  obtain ⟨j, m, ha, hb⟩ := @find_descend _ p [name] _ (by simp) h
  cases ha.unique (walks_of_find hf).2
  exact hb.entry_of_single hup hl

theorem isDirectory_of_find {d : Disk} {p : Path} {l : Location} {e : Entry} (h : d.find p = .ok ⟨l, some e⟩) :
    d.isDirectory p = (e == .directory) := by
  rw [isDirectory, at?, h]
  rfl

/-- **An entry of a directory is found** under its name, unless it is a link. -/
theorem find_child {d : Disk} {p : Path} {l : Location} {name : Text} {e : Entry}
    (hf : d.find p = .ok ⟨l, some .directory⟩) (hr : refusal? (p.child name) = none) (hup : name ≠ Path.up)
    (he : d.locate? (l ++ [name]) = some e) (hl : ∀ target, e ≠ .link target) :
    d.find (p.child name) = .ok ⟨l ++ [name], some e⟩ := by
  have hwalk : Walks d 0 l [name] ⟨l ++ [name], some e⟩ := by
    cases e with
    | file bytes => exact .file hup he
    | directory => exact .into hup he .stay
    | link target => exact absurd rfl (hl target)
  have hw := (walks_of_find hf).2.trans hwalk
  unfold find
  rw [hr]
  exact hw.walkLinks

/-- **Looking at an entry of a directory**, when it succeeds, tells what lies there. -/
theorem seek_child {d : Disk} {p : Path} {l : Location} {name : Text} {found : Option Entry}
    (hf : d.find p = .ok ⟨l, some .directory⟩) (hnull : name.contains (Char.ofNat 0) = false) (hup : name ≠ Path.up)
    (hl : ∀ target, d.locate? (l ++ [name]) ≠ some (.link target)) (h : d.seek (p.child name) = .ok found) :
    found = d.locate? (l ++ [name]) := by
  have hsome : ∀ e, d.locate? (l ++ [name]) = some e → refusal? (p.child name) = none →
      d.find (p.child name) = .ok ⟨l ++ [name], some e⟩ := fun e he hr =>
    find_child hf hr hup he fun target ht => hl target (ht ▸ he)
  have hrefused : ∀ problem, refusal? (p.child name) = some problem → problem = .nameTooLong := by
    intro problem hr
    have hpath := refusal?_eq_none (walks_of_find hf).1
    unfold refusal? at hr
    split at hr
    · rename_i hn
      rw [show (p.child name).names = p.names ++ [name] from rfl, List.any_append, hpath] at hn
      simp only [List.any_cons, List.any_nil, Bool.or_false, hnull] at hn
      cases hn
    · split at hr
      · exact (Option.some.inj hr).symm
      · cases hr
  unfold seek at h
  split at h
  · rename_i place hp
    cases h
    rw [place_of_find_child hf hup hl hp]
  · cases h
  · rename_i problem hne hp
    cases h
    cases hr : refusal? (p.child name) with
    | some refused =>
      unfold find at hp
      rw [hr] at hp
      cases hp
      exact absurd (hrefused _ hr) (by simpa using hne)
    | none =>
      cases he : d.locate? (l ++ [name]) with
      | none => rfl
      | some e =>
        rw [hsome e he hr] at hp
        cases hp

/-- **A file that is found stays as it is** while its place is not written to. -/
theorem Grows.find_file {area : Area} {d d' : Disk} (h : d.Grows area d') {p : Path} {l : Location} {bytes : Octets}
    (hf : d.find p = .ok ⟨l, some (.file bytes)⟩) (hl : ¬ area l) : d'.find p = .ok ⟨l, some (.file bytes)⟩ := by
  obtain ⟨e', hf', he⟩ := h.find hf
  cases e' with
  | directory => exact he.elim
  | link => exact he.elim
  | file bytes' =>
    have hat := ((walks_of_find hf).2.entry_of_ne_directory (by simp)).2
    have hat' := ((walks_of_find hf').2.entry_of_ne_directory (by simp)).2
    simp only at hat hat'
    rcases h.outside l hl with ho | ⟨hn, _⟩
    · rw [ho, hat] at hat'
      rw [hf', hat']
    · rw [hat] at hn; cases hn

/-! ## Trees that are removed -/

theorem removeBelow_removeInside (d : Disk) (l : Location) : (d.removeInside l).removeBelow l = d.removeBelow l := by
  simp only [removeBelow, removeInside, List.filter_filter]
  congr 1
  refine List.filter_congr fun e _ => ?_
  cases l.isPrefixOf e.1 <;> simp

theorem removeBelow_put (d : Disk) {l m : Location} (h : l <+: m) (e : Entry) :
    (d.put m e).removeBelow l = d.removeBelow l := by
  unfold put
  split
  · rfl
  · simp only [removeBelow]
    rw [Table.filter_set _ m e fun k => !l.isPrefixOf k, if_neg (by simp [List.isPrefixOf_iff_prefix.2 h])]

/-- **What is left after a tree is removed.** -/
theorem locate?_removeBelow_outside {d : Disk} {l m : Location} (h : ¬ l <+: m) :
    (d.removeBelow l).locate? m = d.locate? m := by
  by_cases hm : m = []
  · rw [hm, locate?_root, locate?_root]
  · rw [locate?_removeBelow d l m hm, if_neg (by simpa [List.isPrefixOf_iff_prefix] using h)]

theorem locate?_removeBelow_inside {d : Disk} {l m : Location} (hm : m ≠ []) (h : l <+: m) :
    (d.removeBelow l).locate? m = none := by
  rw [locate?_removeBelow d l m hm, if_pos (by simpa [List.isPrefixOf_iff_prefix] using h)]

theorem locate?_of_removeBelow {d : Disk} {l m : Location} {e : Entry} (h : (d.removeBelow l).locate? m = some e) :
    d.locate? m = some e := by
  by_cases hp : l <+: m
  · by_cases hm : m = []
    · rw [hm, locate?_root] at h ⊢
      exact h
    · rw [locate?_removeBelow_inside hm hp] at h; cases h
  · rwa [locate?_removeBelow_outside hp] at h

theorem Sound.removeBelow {d : Disk} (h : d.Sound) (l : Location) : (d.removeBelow l).Sound :=
  ⟨Table.nodup_keys_filter h.nodup _, fun _ _ he => h.names _ _ (locate?_of_removeBelow he), h.here⟩

/-- **Removing a tree without links** leaves every link. -/
theorem LinkFree.removeBelow {d : Disk} {l : Location} (h : d.LinkFree l) : d.SameLinks (d.removeBelow l) := by
  refine ⟨rfl, fun m target => ⟨fun hm => ?_, locate?_of_removeBelow⟩⟩
  rw [locate?_removeBelow_outside fun hp => h m target hp hm, hm]

end Disk

theorem isDirectory_iff {d : Disk} {p : Path} :
    d.isDirectory p = true ↔ ∃ l, d.find p = .ok ⟨l, some .directory⟩ := by
  constructor
  · intro h
    rw [Disk.isDirectory, Disk.at?] at h
    split at h
    · rename_i place hf
      obtain ⟨l, e⟩ := place
      obtain rfl : e = some .directory := beq_iff_eq.1 h
      exact ⟨l, hf⟩
    · cases h
  · rintro ⟨l, hf⟩
    rw [Disk.isDirectory_of_find hf, beq_self_eq_true]

/-- **A tree that is removed** was found as a directory; what lies at or below it is gone, and nothing else. -/
theorem removeTree_eq_ok {p : Path} {d d' : Disk} (h : removeTree p d = (.ok (), d')) :
    ∃ l, d.find p = .ok ⟨l, some .directory⟩ ∧ d' = d.removeBelow l := by
  unfold removeTree at h
  obtain ⟨d₁, e, hget, h⟩ := Action.bind_eq_ok_iff.1 h
  cases hget
  have hplain : removeFound p d = (.ok (), d') := by
    cases he : d.entryAt? p with
    | none => rwa [he] at h
    | some e =>
      rw [he] at h
      cases e with
      | link target => cases h
      | file => exact h
      | directory => exact h
  obtain ⟨⟨l, entry⟩, e, hplace, h⟩ := Action.bind_eq_ok_iff.1 hplain
  simp only [check, Prod.mk.injEq] at hplace
  obtain ⟨hf, rfl⟩ := hplace
  rcases entry with _ | ⟨_ | _ | _⟩
  · cases h
  · cases h
  · obtain ⟨_, e, hmod, h⟩ := Action.bind_eq_ok_iff.1 h
    cases hmod
    simp only [step] at h
    split at h
    · rename_i e he
      cases h
      unfold Disk.withoutEmptied at he
      split at he
      · cases he
      · split at he
        · split at he <;> cases he
        · cases he
          exact ⟨l, hf, Disk.removeBelow_removeInside d l⟩
    · cases h
  · cases h

end DocFerry.Files
