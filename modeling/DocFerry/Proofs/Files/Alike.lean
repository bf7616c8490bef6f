import DocFerry.Proofs.Agree
import DocFerry.Proofs.Files.Tree
/-!
# Disks that are alike but for some octets

Two disks can be alike but for the octets of some files (`Disk.AlikeBut`).  Then every path leads to the same place on
both or fails for the same reason (`AlikeBut.find`), and directories that are made and files that are written leave them
alike (`makeDirectories_agrees`, `write_alike`).
-/
namespace DocFerry.Files

open Text.Utf8 (Octets)

/-- **Octets that may differ**, and where. -/
abbrev Difference := Location → Octets → Octets → Prop

/-- **What lies at a location of two disks**: the same, or files whose octets may differ. -/
def EntriesAlike (V : Difference) (l : Location) (e e' : Option Entry) : Prop :=
  e' = e ∨ ∃ b b', e = some (.file b) ∧ e' = some (.file b') ∧ V l b b'

/-- **Where a path leads on two disks.** -/
inductive PlacesAlike (V : Difference) : Except Problem Place → Except Problem Place → Prop
  | ok {l : Location} {e e' : Option Entry} : EntriesAlike V l e e' → PlacesAlike V (.ok ⟨l, e⟩) (.ok ⟨l, e'⟩)
  | error {problem : Problem} : PlacesAlike V (.error problem) (.error problem)

variable {V : Difference} {l : Location} {e e' : Option Entry}

theorem EntriesAlike.refl (V : Difference) (l : Location) (e : Option Entry) : EntriesAlike V l e e := .inl rfl

theorem EntriesAlike.isSome_eq (h : EntriesAlike V l e e') : e'.isSome = e.isSome := by
  rcases h with rfl | ⟨b, b', rfl, rfl, _⟩ <;> rfl

namespace Disk

/-- **Two disks that are alike but for the octets of some files.** -/
structure AlikeBut (V : Difference) (d d' : Disk) : Prop where
  here : d'.here = d.here
  nodup : (Table.keys d.entries).Nodup
  nodup' : (Table.keys d'.entries).Nodup
  entries : ∀ l, EntriesAlike V l (Table.get? l d.entries) (Table.get? l d'.entries)

namespace AlikeBut

variable {d d' : Disk} (h : AlikeBut V d d')

include h

theorem locate? (l : Location) : EntriesAlike V l (d.locate? l) (d'.locate? l) := by
  rw [Disk.locate?, Disk.locate?]
  split
  · exact .refl V l _
  · exact h.entries l

theorem walk {f f' : Location → Text → List Text → Except Problem Place}
    (hf : ∀ base target rest, PlacesAlike V (f base target rest) (f' base target rest)) :
    ∀ (names : List Text) (base : Location), PlacesAlike V (d.walk f base names) (d'.walk f' base names)
  | [], base => .ok (.refl _ _ _)
  | name :: rest, base => by
    rw [Disk.walk, Disk.walk]
    by_cases hup : name = Path.up
    · rw [if_pos hup, if_pos hup]
      exact walk hf rest base.dropLast
    · rw [if_neg hup, if_neg hup]
      rcases h.locate? (base ++ [name]) with he | ⟨b, b', hb, hb', hv⟩
      · rw [he]
        split
        · exact walk hf rest (base ++ [name])
        · exact hf _ _ _
        · split
          · exact .ok (.refl _ _ _)
          · exact .error
        · split
          · exact .error
          · split
            · exact .ok (.refl _ _ _)
            · exact .error
      · rw [hb, hb']
        dsimp only
        split
        · exact .ok (.inr ⟨b, b', rfl, rfl, hv⟩)
        · exact .error

theorem walkLinks : ∀ (k : Nat) (base : Location) (names : List Text),
    PlacesAlike V (d.walkLinks k base names) (d'.walkLinks k base names)
  | 0, base, names => by
    rw [walkLinks_eq, walkLinks_eq]
    exact h.walk (fun _ _ _ => .error) names base
  | k + 1, base, names => by
    rw [walkLinks_eq, walkLinks_eq]
    exact h.walk (fun _ _ _ => walkLinks k _ _) names base

theorem start (p : Path) : d'.start p = d.start p := by rw [Disk.start, Disk.start, h.here]

/-- **Every path leads to the same place** on both disks, or fails for the same reason. -/
theorem find (p : Path) : PlacesAlike V (d.find p) (d'.find p) := by
  rw [Disk.find, Disk.find, h.start]
  cases refusal? p with
  | some problem => exact .error
  | none => exact h.walkLinks _ _ _

theorem seek (p : Path) : d.seek p = d'.seek p ∨ ∃ l b b', d.find p = .ok ⟨l, some (.file b)⟩ ∧
    d.seek p = .ok (some (.file b)) ∧ d'.seek p = .ok (some (.file b')) ∧ V l b b' := by
  have hf := h.find p
  rw [Disk.seek, Disk.seek]
  generalize d.find p = r, d'.find p = r' at hf
  cases hf with
  | @ok l _ _ he =>
    rcases he with rfl | ⟨b, b', rfl, rfl, hv⟩
    · exact .inl rfl
    · exact .inr ⟨l, b, b', rfl, rfl, rfl, hv⟩
  | error => exact .inl rfl

theorem seekDirectory (p : Path) : d.seekDirectory p = d'.seekDirectory p := by
  rw [Disk.seekDirectory, Disk.seekDirectory]
  rcases h.seek p with he | ⟨_, b, b', _, hb, hb', _⟩
  · rw [he]
  · rw [hb, hb']
    rfl

/-- **Every file that is read** has the same octets on both disks, or octets that may differ. -/
theorem read (p : Path) : d.read p = d'.read p ∨ ∃ l b b', d.find p = .ok ⟨l, some (.file b)⟩ ∧
    d.read p = .ok b ∧ d'.read p = .ok b' ∧ V l b b' := by
  have hf := h.find p
  rw [Disk.read, Disk.read]
  generalize d.find p = r, d'.find p = r' at hf
  cases hf with
  | @ok l _ _ he =>
    rcases he with rfl | ⟨b, b', rfl, rfl, hv⟩
    · exact .inl rfl
    · exact .inr ⟨l, b, b', rfl, rfl, rfl, hv⟩
  | error => exact .inl rfl

theorem namesAt_perm (l : Location) : (d.namesAt l).Perm (d'.namesAt l) := by
  rw [List.perm_ext_iff_of_nodup (nodup_namesAt h.nodup l) (nodup_namesAt h.nodup' l)]
  intro name
  rw [mem_namesAt, mem_namesAt, ← Option.isSome_iff_exists, ← Option.isSome_iff_exists, (h.locate? _).isSome_eq]

/-- **A directory holds the same names** on both disks. -/
theorem list (p : Path) : (∃ problem, d.list p = .error problem ∧ d'.list p = .error problem) ∨
    ∃ l names names', d.find p = .ok ⟨l, some .directory⟩ ∧ d.list p = .ok names ∧ d'.list p = .ok names' ∧
      names = d.namesAt l ∧ names.Perm names' := by
  have hf := h.find p
  rw [Disk.list, Disk.list]
  generalize d.find p = r, d'.find p = r' at hf
  cases hf with
  | @ok l _ _ he =>
    rcases he with rfl | ⟨b, b', rfl, rfl, _⟩
    · rename_i entry
      cases entry with
      | none => exact .inl ⟨_, rfl, rfl⟩
      | some entry =>
        cases entry with
        | directory => exact .inr ⟨l, _, _, rfl, rfl, rfl, rfl, h.namesAt_perm l⟩
        | file bytes => exact .inl ⟨_, rfl, rfl⟩
        | link target => exact .inl ⟨_, rfl, rfl⟩
    · exact .inl ⟨_, rfl, rfl⟩
  | error => exact .inl ⟨_, rfl, rfl⟩

theorem keys_perm : (Table.keys d.entries).Perm (Table.keys d'.entries) := by
  rw [List.perm_ext_iff_of_nodup h.nodup h.nodup']
  intro l
  have hkey : ∀ t : Table Location Entry, l ∈ Table.keys t ↔ (Table.get? l t).isSome = true := fun t => by
    rw [Option.isSome_iff_exists]
    exact ⟨Table.get?_ne_none_of_mem_keys, fun ⟨_, he⟩ => Table.mem_keys_of_get? he⟩
  rw [hkey, hkey, (h.entries l).isSome_eq]

theorem hasLink_iff :
    (∃ x ∈ d.entries, (x.2 matches .link _) = true) ↔ ∃ x ∈ d'.entries, (x.2 matches .link _) = true := by
  have hlink : ∀ t : Table Location Entry, (Table.keys t).Nodup →
      ((∃ x ∈ t, (x.2 matches .link _) = true) ↔ ∃ l target, Table.get? l t = some (.link target)) := by
    intro t hn
    constructor
    · rintro ⟨⟨l, e⟩, hm, he⟩
      cases e with
      | link target => exact ⟨l, target, (Table.get?_eq_some_iff_mem hn).2 hm⟩
      | file => cases he
      | directory => cases he
    · rintro ⟨l, target, he⟩
      exact ⟨_, Table.mem_of_get? he, rfl⟩
  have hsame : ∀ l target,
      Table.get? l d.entries = some (.link target) ↔ Table.get? l d'.entries = some (.link target) := by
    intro l target
    rcases h.entries l with he | ⟨b, b', hb, hb', _⟩
    · rw [he]
    · simp [hb, hb']
  rw [hlink _ h.nodup, hlink _ h.nodup']
  simp only [hsame]

/-- **No path is longer** on one of the disks than on the other. -/
theorem depthBound : d.depthBound = d'.depthBound := by
  have hlength : d.entries.length = d'.entries.length := by simpa [Table.keys] using h.keys_perm.length_eq
  have hpasses : d.passes = d'.passes := by
    have hany : d.entries.any (fun e => e.2 matches .link _) = d'.entries.any fun e => e.2 matches .link _ := by
      rw [Bool.eq_iff_iff, List.any_eq_true, List.any_eq_true]
      exact h.hasLink_iff
    exact congrArg (fun b => if b = true then maxLinks + 1 else 1) hany
  rw [Disk.depthBound, Disk.depthBound, hlength, hpasses]

/-- **An entry put on both disks**, or files whose octets may differ. -/
theorem put {l : Location} {e e' : Entry} (he : EntriesAlike V l (some e) (some e')) :
    AlikeBut V (d.put l e) (d'.put l e') := by
  by_cases hl : l = []
  · rw [Disk.put, Disk.put, if_pos hl, if_pos hl]
    exact h
  · refine ⟨?_, ?_, ?_, fun m => ?_⟩
    · rw [(entries_put d' hl e').2, (entries_put d hl e).2, h.here]
    · rw [(entries_put d hl e).1]
      exact Table.nodup_keys_set h.nodup l e
    · rw [(entries_put d' hl e').1]
      exact Table.nodup_keys_set h.nodup' l e'
    · rw [(entries_put d hl e).1, (entries_put d' hl e').1]
      by_cases hm : m = l
      · rw [hm, Table.get?_set_self, Table.get?_set_self]
        exact he
      · rw [Table.get?_set_ne _ _ hm, Table.get?_set_ne _ _ hm]
        exact h.entries m

theorem withDirectory (p : Path) :
    (∃ problem, d.withDirectory p = .error problem ∧ d'.withDirectory p = .error problem) ∨
      ∃ l, d.withDirectory p = .ok (d.put l .directory) ∧ d'.withDirectory p = .ok (d'.put l .directory) := by
  have hf := h.find p.parent
  rw [Disk.withDirectory, Disk.withDirectory]
  cases refusal? p with
  | some problem => exact .inl ⟨problem, rfl, rfl⟩
  | none =>
    cases p.names.getLast? with
    | none => exact .inl ⟨_, rfl, rfl⟩
    | some name =>
      dsimp only
      by_cases hup : name = Path.up
      · rw [if_pos hup, if_pos hup]
        have hf := h.find p
        generalize d.find p = r, d'.find p = r' at hf
        cases hf <;> exact .inl ⟨_, rfl, rfl⟩
      · rw [if_neg hup, if_neg hup]
        generalize d.find p.parent = r, d'.find p.parent = r' at hf
        cases hf with
        | error => exact .inl ⟨_, rfl, rfl⟩
        | @ok l _ _ he =>
          rcases he with rfl | ⟨b, b', rfl, rfl, _⟩
          · rename_i e
            cases e with
            | none => exact .inl ⟨_, rfl, rfl⟩
            | some e =>
              cases e with
              | file => exact .inl ⟨_, rfl, rfl⟩
              | link => exact .inl ⟨_, rfl, rfl⟩
              | directory =>
                dsimp only
                rw [(h.locate? (l ++ [name])).isSome_eq]
                split
                · exact .inl ⟨_, rfl, rfl⟩
                · split
                  · exact .inl ⟨_, rfl, rfl⟩
                  · exact .inr ⟨_, rfl, rfl⟩
          · exact .inl ⟨_, rfl, rfl⟩

theorem withFile (p : Path) (bytes bytes' : Octets) :
    (∃ problem, d.withFile p bytes = .error problem ∧ d'.withFile p bytes' = .error problem) ∨
      ∃ place, d.find p = .ok place ∧ d.withFile p bytes = .ok (d.put place.location (.file bytes)) ∧
        d'.withFile p bytes' = .ok (d'.put place.location (.file bytes')) := by
  have hf := h.find p
  rw [Disk.withFile, Disk.withFile]
  generalize d.find p = r, d'.find p = r' at hf
  cases hf with
  | error => exact .inl ⟨_, rfl, rfl⟩
  | @ok l _ _ he =>
    rcases he with rfl | ⟨b, b', rfl, rfl, _⟩
    · rename_i e
      cases e with
      | none => exact .inr ⟨_, rfl, rfl, rfl⟩
      | some e =>
        cases e with
        | directory => exact .inl ⟨_, rfl, rfl⟩
        | file => exact .inr ⟨_, rfl, rfl, rfl⟩
        | link => exact .inr ⟨_, rfl, rfl, rfl⟩
    · exact .inr ⟨_, rfl, rfl, rfl⟩

end AlikeBut
end Disk

/-! ## Changes -/

section Changes

variable {d d' : Disk} {p : Path}

theorem makeDirectory_agrees (V : Difference) (p : Path) :
    Action.Agrees (Disk.AlikeBut V) Eq Eq (makeDirectory p) (makeDirectory p) := by
  intro d d' h
  rw [makeDirectory_eq, makeDirectory_eq]
  rcases h.withDirectory p with ⟨problem, hd, hd'⟩ | ⟨l, hd, hd'⟩
  · rw [hd, hd']
    exact .error h rfl
  · rw [hd, hd']
    exact .ok (h.put (.refl V l _)) rfl

theorem check_agrees {α : Type} {f : Disk → Except Problem α} (h : ∀ d d', Disk.AlikeBut V d d' → f d = f d') :
    Action.Agrees (Disk.AlikeBut V) Eq Eq (check f) (check f) := by
  intro d d' hd
  rw [check, check, ← h d d' hd]
  cases f d with
  | ok a => exact .ok hd rfl
  | error problem => exact .error hd rfl

theorem ensureDirectory_agrees (V : Difference) (p : Path) :
    Action.Agrees (Disk.AlikeBut V) Eq Eq (ensureDirectory p) (ensureDirectory p) := by
  refine Action.Agrees.tryCatch (makeDirectory_agrees V p) ?_
  rintro problem _ rfl
  refine Action.Agrees.bind (check_agrees fun d d' h => h.seekDirectory p) ?_
  rintro found _ rfl
  split
  · exact Action.Agrees.throw rfl
  · exact Action.Agrees.pure rfl

/-- **Directories that are made** are the same on both disks. -/
theorem makeParentsWithin_agrees (V : Difference) : ∀ (parents : Nat) (reuse : Bool) (p : Path),
    Action.Agrees (Disk.AlikeBut V) Eq Eq (makeParentsWithin parents reuse p) (makeParentsWithin parents reuse p)
  | parents, reuse, p => by
    unfold makeParentsWithin
    refine Action.Agrees.tryCatch (makeDirectory_agrees V p) ?_
    rintro problem _ rfl
    split
    · cases parents with
      | zero => exact Action.Agrees.throw rfl
      | succ parents =>
        refine Action.Agrees.bind (makeParentsWithin_agrees V parents true p.parent) fun _ _ _ => ?_
        split
        · exact ensureDirectory_agrees V p
        · exact makeDirectory_agrees V p
    · refine Action.Agrees.bind (check_agrees fun d d' h => h.seekDirectory p) ?_
      rintro found _ rfl
      split
      · exact Action.Agrees.throw rfl
      · exact Action.Agrees.pure rfl

theorem makeDirectories_agrees (V : Difference) (reuse : Bool) (p : Path) :
    Action.Agrees (Disk.AlikeBut V) Eq Eq (makeDirectories reuse p) (makeDirectories reuse p) :=
  makeParentsWithin_agrees V _ reuse p

/-- **Files that are written** leave the disks alike if their octets may differ where they are written. -/
theorem write_alike (h : Disk.AlikeBut V d d') {bytes bytes' : Octets}
    (hb : ∀ place, d.find p = .ok place → bytes' = bytes ∨ V place.location bytes bytes') :
    Action.Alike (Disk.AlikeBut V) Eq Eq (write p bytes d) (write p bytes' d') := by
  rw [write_eq, write_eq]
  rcases h.withFile p bytes bytes' with ⟨problem, hd, hd'⟩ | ⟨place, hf, hd, hd'⟩
  · rw [hd, hd']
    exact .error h rfl
  · rw [hd, hd']
    refine .ok (h.put ?_) rfl
    rcases hb place hf with rfl | hv
    · exact .refl V _ _
    · exact .inr ⟨bytes, bytes', rfl, rfl, hv⟩

end Changes

end DocFerry.Files
