import DocFerry.Proofs.Action
import DocFerry.Proofs.Files.Change
import DocFerry.Proofs.Json.Refusals
import DocFerry.Proofs.Number.Limit
import DocFerry.Site.Category
/-!
# What a folder's metadata file says

A metadata file is refused for three things only: a whole number of too many digits, too many levels, and a position
that is a whole number beyond every binary number (`Category.ofBytes_eq_error_iff`).  Every other content gives what it
says: nothing unless it is an object, and then each field that is as it should be (`Category.describes_of_ofBytes`).
So the metadata of a folder is not read only if its file is refused, or if the file system refuses the path
(`Category.read_eq_error`).
-/
namespace DocFerry.Site

open Files

variable {d : Disk} {failure : Failure} {bytes : Text.Utf8.Octets} {c : Category}

/-! ## The content of a metadata file -/

namespace Category

/-- **The fields in a file's octets**, none unless they are well-formed text of an object. -/
def fieldsOf? (bytes : Text.Utf8.Octets) : Option (List (Text × Json)) :=
  match (strictText? bytes).map Json.parse with
  | some (.ok (.object fields)) => some fields
  | _ => none

/-- **Why a content is refused.** -/
inductive Refuses (bytes : Text.Utf8.Octets) : Failure → Prop
  | longInteger {s : Text} {digits : Nat} (text : strictText? bytes = some s)
      (refused : Json.parse s = .error (.longInteger digits)) : Refuses bytes (.whole (.longText digits))
  | tooDeep {s : Text} {isObject : Bool} (text : strictText? bytes = some s)
      (refused : Json.parse s = .error (.tooDeep isObject)) : Refuses bytes (.deepData isObject)
  | hugePosition {fields : List (Text × Json)} {i : Int} (object : fieldsOf? bytes = some fields)
      (position : Table.get? "position".toList fields = some (.int i)) (beyond : Binary64.overflow ≤ i.natAbs) :
      Refuses bytes .hugePosition

/-- **A position that a value gives**: a finite binary number, or the one nearest to a whole number that is not beyond
every one of them. -/
def GivesPosition (value : Option Json) (x : Binary64) : Prop :=
  (value = some (.number x) ∧ x.isFinite = true) ∨
    ∃ i, value = some (.int i) ∧ i.natAbs < Binary64.overflow ∧ x = Binary64.ofDecimal (i < 0) i.natAbs 0

/-- **Metadata that an object describes**: each field that is as it should be, and nothing without an object. -/
structure Describes (object : Option (List (Text × Json))) (c : Category) : Prop where
  nothing : object = none → c = {}
  label : ∀ fields, object = some fields → ∀ label, c.label = some label ↔
    Table.get? "label".toList fields = some (.text label) ∧ Text.trim label ≠ []
  position : ∀ fields, object = some fields → ∀ x, c.position = some x ↔
    GivesPosition (Table.get? "position".toList fields) x

theorem labelOf_eq_some_iff {value : Option Json} {label : Text} :
    labelOf value = some label ↔ value = some (.text label) ∧ Text.trim label ≠ [] := by
  unfold labelOf
  split
  · split
    · rename_i hblank
      simp only [reduceCtorEq, false_iff]
      rintro ⟨h, hne⟩
      cases h
      exact hne (List.isEmpty_iff.1 hblank)
    · rename_i hvisible
      constructor
      · rintro ⟨⟩
        exact ⟨rfl, fun h => hvisible (List.isEmpty_iff.2 h)⟩
      · rintro ⟨h, _⟩
        cases h
        rfl
  · rename_i hother
    simp only [reduceCtorEq, false_iff]
    rintro ⟨h, _⟩
    exact hother label h

theorem positionOf_eq_error_iff {value : Option Json} : positionOf value = .error failure ↔
    failure = .hugePosition ∧ ∃ i, value = some (.int i) ∧ Binary64.overflow ≤ i.natAbs := by
  unfold positionOf
  split
  · rename_i i
    have hlimit := Binary64.ofInt?_eq_none_iff i
    split
    · rename_i x hx
      rw [hx] at hlimit
      simp only [reduceCtorEq, false_iff]
      rintro ⟨_, j, h, hj⟩
      cases h
      cases hlimit.2 hj
    · rename_i hnone
      constructor
      · rintro ⟨⟩
        exact ⟨rfl, i, rfl, hlimit.1 hnone⟩
      · rintro ⟨rfl, _⟩
        rfl
  · simp
  · rename_i hint _
    simp only [reduceCtorEq, false_iff]
    rintro ⟨_, i, h, _⟩
    exact hint i h

theorem positionOf_eq_ok {value : Option Json} {position : Option Binary64} (h : positionOf value = .ok position)
    (x : Binary64) : position = some x ↔ GivesPosition value x := by
  unfold positionOf at h
  unfold GivesPosition
  split at h
  · rename_i i
    split at h
    · rename_i y hy
      cases h
      obtain ⟨hbelow, rfl⟩ := Binary64.ofInt?_eq_some_iff.1 hy
      constructor
      · rintro ⟨⟩
        exact .inr ⟨i, rfl, hbelow, rfl⟩
      · rintro (⟨h, _⟩ | ⟨j, h, _, rfl⟩)
        · cases h
        · cases h
          rfl
    · cases h
  · rename_i y
    cases h
    split
    · rename_i hfinite
      constructor
      · rintro ⟨⟩
        exact .inl ⟨rfl, hfinite⟩
      · rintro (⟨h, _⟩ | ⟨_, h, _⟩)
        · cases h
          rfl
        · cases h
    · rename_i hinfinite
      simp only [reduceCtorEq, false_iff]
      rintro (⟨h, hfinite⟩ | ⟨_, h, _⟩)
      · cases h
        exact hinfinite hfinite
      · cases h
  · rename_i hint hnumber
    cases h
    simp only [reduceCtorEq, false_iff]
    rintro (⟨h, _⟩ | ⟨i, h, _⟩)
    · exact hnumber x h
    · exact hint i h

theorem fieldsOf?_eq_some_iff {fields : List (Text × Json)} :
    fieldsOf? bytes = some fields ↔ ∃ s, strictText? bytes = some s ∧ Json.parse s = .ok (.object fields) := by
  unfold fieldsOf?
  constructor
  · intro h
    split at h
    · rename_i fields' hparsed
      obtain ⟨s, hs, hj⟩ := Option.map_eq_some_iff.1 hparsed
      exact ⟨s, hs, Option.some.inj h ▸ hj⟩
    · cases h
  · rintro ⟨s, hs, hj⟩
    rw [hs, Option.map_some, hj]

/-- **A content is refused exactly for what it holds.** -/
theorem ofBytes_eq_error_iff : ofBytes bytes = .error failure ↔ Refuses bytes failure := by
  constructor
  · intro h
    unfold ofBytes at h
    split at h
    · cases h
    · rename_i s hs
      split at h
      · rename_i j hj
        unfold ofJson at h
        split at h
        · rename_i fields
          rcases bind_eq_error h with h | ⟨_, _, h⟩
          · obtain ⟨rfl, i, hi, hbeyond⟩ := positionOf_eq_error_iff.1 h
            exact .hugePosition (fieldsOf?_eq_some_iff.2 ⟨s, hs, hj⟩) hi hbeyond
          · cases h
        · cases h
      · cases h
      · rename_i hj
        cases h
        exact .longInteger hs hj
      · rename_i hj
        cases h
        exact .tooDeep hs hj
  · rintro (⟨hs, hj⟩ | ⟨hs, hj⟩ | ⟨hfields, hposition, hbeyond⟩)
    · simp only [ofBytes, hs, hj]
    · simp only [ofBytes, hs, hj]
    · obtain ⟨s, hs, hj⟩ := fieldsOf?_eq_some_iff.1 hfields
      have herror := positionOf_eq_error_iff.2 ⟨rfl, _, hposition, hbeyond⟩
      simp only [ofBytes, hs, hj, ofJson, herror]
      rfl

theorem Describes.empty : Describes none {} where
  nothing _ := rfl
  label _ h := by cases h
  position _ h := by cases h

/-- **A content that is not refused** gives what it says. -/
theorem describes_of_ofBytes (h : ofBytes bytes = .ok c) : Describes (fieldsOf? bytes) c := by
  unfold ofBytes at h
  unfold fieldsOf?
  cases hs : strictText? bytes with
  | none =>
    rw [hs] at h
    cases h
    exact .empty
  | some s =>
    rw [hs] at h
    dsimp only at h
    rw [Option.map_some]
    cases hj : Json.parse s with
    | error fault =>
      rw [hj] at h
      cases fault with
      | malformed =>
        cases h
        exact .empty
      | longInteger digits => cases h
      | tooDeep isObject => cases h
    | ok j =>
      rw [hj] at h
      cases j with
      | object fields =>
        obtain ⟨position, hposition, h⟩ := bind_eq_ok h
        cases h
        refine ⟨by rintro ⟨⟩, ?_, ?_⟩
        · rintro _ ⟨⟩ label
          exact labelOf_eq_some_iff
        · rintro _ ⟨⟩ x
          exact positionOf_eq_ok hposition x
      | _ =>
        cases h
        exact .empty

end Category

/-! ## Folders with metadata -/

/-- **A folder whose metadata file is refused.** -/
def StopsAt (d : Disk) (directory : Path) (failure : Failure) : Prop :=
  ∃ bytes, d.read (directory.child categoryFile) = .ok bytes ∧ Category.Refuses bytes failure

theorem read_of_seekFile {p : Path} (h : d.seekFile p = .ok (some bytes)) : d.read p = .ok bytes := by
  obtain ⟨found, hs, hfound⟩ := map_eq_ok h
  split at hfound
  · cases hfound
    obtain ⟨⟨l, entry⟩, hf, rfl⟩ := Disk.find_of_seek hs
    rw [Disk.read, hf]
  · cases hfound

/-- **The metadata of a folder**: none without a file, and else what the file's content describes. -/
theorem Category.read_eq_ok {directory : Path} (h : Category.read d directory = .ok c) :
    (d.seekFile (directory.child categoryFile) = .ok none ∧ c = {}) ∨
      ∃ bytes, d.read (directory.child categoryFile) = .ok bytes ∧ Describes (fieldsOf? bytes) c := by
  unfold Category.read at h
  split at h
  · rename_i bytes hfile
    exact .inr ⟨bytes, read_of_seekFile hfile, describes_of_ofBytes h⟩
  · rename_i hnone
    exact .inl ⟨hnone, (Except.ok.inj h).symm⟩
  · cases h

/-- **A folder's metadata is not read** because its file is refused, or because the file system refuses the path. -/
theorem Category.read_eq_error {directory : Path} (h : Category.read d directory = .error failure) :
    StopsAt d directory failure ∨
      ∃ problem, failure = .disk problem ∧ d.seekFile (directory.child categoryFile) = .error problem := by
  unfold Category.read at h
  split at h
  · rename_i bytes hfile
    exact .inl ⟨bytes, read_of_seekFile hfile, ofBytes_eq_error_iff.1 h⟩
  · cases h
  · rename_i problem hproblem
    cases h
    exact .inr ⟨problem, rfl, hproblem⟩

end DocFerry.Site
