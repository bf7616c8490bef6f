import Mathlib.Data.List.Infix
import DocFerry.Json.Parse
/-!
# What a refused text holds

The reader stops behind what it has read, so it only ever sees ends of its text.  A text that is refused for a long
whole number therefore holds a run of digits of that length, and one that is refused for its levels holds more opening
brackets than it may have levels (`parse_eq_error`): every other text is read, or is ill formed.
-/
namespace DocFerry.Json

open Text

/-- **A bracket that opens a level.** -/
def isOpening (c : Char) : Bool := c == '[' || c == '\x7b'

/-- **What a text holds that is refused with a fault**, by a reader that may open so many levels. -/
def Shows (levels : Nat) (s : Text) : Fault → Prop
  | .malformed => True
  | .longInteger n =>
    Whole.digitLimit < n ∧ ∃ digits, digits <:+: s ∧ digits.length = n ∧ ∀ c ∈ digits, c.isDigit = true
  | .tooDeep _ => levels < s.countP isOpening

/-- **A reader's answer on a text**: it stops at an end of the text, or the text shows its fault. -/
def Reads {α : Type} (levels : Nat) (s : Text) : Except Fault (α × Text) → Prop
  | .ok found => found.2 <:+ s
  | .error fault => Shows levels s fault

theorem Shows.mono {levels : Nat} {s t : Text} {fault : Fault} (hst : s <:+ t) (h : Shows levels s fault) :
    Shows levels t fault := by
  cases fault with
  | malformed => trivial
  | longInteger n =>
    obtain ⟨hlong, digits, hin, hdigits⟩ := h
    exact ⟨hlong, digits, hin.trans hst.isInfix, hdigits⟩
  | tooDeep isObject => exact Nat.lt_of_lt_of_le h (hst.sublist.countP_le)

/-- **A level that is opened** is one more for the text that holds its bracket. -/
theorem Shows.deeper {levels : Nat} {s t : Text} {c : Char} {fault : Fault} (hopen : isOpening c = true)
    (hst : s <:+ t) (h : Shows (levels - 1) s fault) : Shows levels (c :: t) fault := by
  cases fault with
  | malformed => trivial
  | longInteger n => exact Shows.mono (hst.trans (List.suffix_cons c t)) h
  | tooDeep isObject =>
    have hcount : s.countP isOpening ≤ t.countP isOpening := hst.sublist.countP_le
    have hone : (c :: t).countP isOpening = t.countP isOpening + 1 := List.countP_cons_of_pos hopen
    have hlevels : levels - 1 < s.countP isOpening := h
    show levels < (c :: t).countP isOpening
    omega

namespace Reads

variable {α β : Type} {levels : Nat} {s t : Text} {x : Except Fault (α × Text)}

theorem mono (hst : s <:+ t) (h : Reads levels s x) : Reads levels t x := by
  cases x with
  | ok found => exact List.IsSuffix.trans h hst
  | error fault => exact Shows.mono hst h

theorem map {f : α × Text → β × Text} (hf : ∀ found, (f found).2 = found.2) (h : Reads levels s x) :
    Reads levels s (x.map f) := by
  cases x with
  | ok found =>
    show (f found).2 <:+ s
    rw [hf found]
    exact h
  | error fault => exact h

/-- **A chain of two readers**: the second one reads on where the first one has stopped. -/
theorem bind {f : α × Text → Except Fault (β × Text)} (h : Reads levels s x)
    (hf : ∀ found : α × Text, found.2 <:+ s → Reads levels s (f found)) : Reads levels s (x >>= f) := by
  cases x with
  | ok found => exact hf found h
  | error fault => exact h

theorem deeper {c : Char} (hopen : isOpening c = true) (hst : s <:+ t) (h : Reads (levels - 1) s x) :
    Reads levels (c :: t) x := by
  cases x with
  | ok found => exact (List.IsSuffix.trans h hst).trans (List.suffix_cons c t)
  | error fault => exact Shows.deeper hopen hst h

theorem malformed : Reads levels s (.error .malformed : Except Fault (α × Text)) := trivial

end Reads

/-! ## Blanks, strings and numbers -/

theorem skip_suffix (s : Text) : skip s <:+ s := List.dropWhile_suffix isSpace

theorem after?_suffix {start s rest : Text} (h : after? start s = some rest) : rest <:+ s :=
  ⟨start, (after?_eq_some_iff.1 h).symm⟩

theorem unit?_suffix {s rest : Text} {n : Nat} (h : unit? s = some (n, rest)) : rest <:+ s := by
  unfold unit? at h
  split at h
  · rename_i a b c d more
    simp only [Option.bind_eq_bind, Option.bind_eq_some_iff, Option.some.injEq, Prod.mk.injEq] at h
    obtain ⟨_, _, _, _, _, _, _, _, _, rfl⟩ := h
    exact ⟨[a, b, c, d], rfl⟩
  · cases h

theorem lowUnit?_suffix {s rest : Text} {n : Nat} (h : lowUnit? s = some (n, rest)) : rest <:+ s := by
  obtain ⟨h, -⟩ := Option.filter_eq_some_iff.1 h
  obtain ⟨inner, hinner, h⟩ := Option.bind_eq_some_iff.1 h
  exact (unit?_suffix h).trans (after?_suffix hinner)

theorem escape?_suffix {s rest : Text} {c : Char} (h : escape? s = some (c, rest)) : rest <:+ s := by
  unfold escape? at h
  split at h
  · rename_i more
    obtain ⟨⟨high, after⟩, hunit, h⟩ := Option.map_eq_some_iff.1 h
    have hafter : after <:+ 'u' :: more := (unit?_suffix hunit).trans (List.suffix_cons _ _)
    dsimp only at h
    split at h
    · rename_i low rest' hlow
      obtain ⟨-, rfl⟩ := Prod.mk.inj h
      split at hlow
      · exact (lowUnit?_suffix hlow).trans hafter
      · cases hlow
    · obtain ⟨-, rfl⟩ := Prod.mk.inj h
      exact hafter
  · obtain ⟨_, _, h⟩ := Option.map_eq_some_iff.1 h
    obtain ⟨-, rfl⟩ := Prod.mk.inj h
    exact List.suffix_cons _ _
  · cases h

theorem string?_suffix : ∀ {fuel : Nat} {s found rest : Text}, string? fuel s = some (found, rest) → rest <:+ s
  | 0, _, _, _, h => by cases h
  | fuel + 1, [], _, _, h => by cases h
  | fuel + 1, c :: more, found, rest, h => by
    rw [string?] at h
    split at h
    · obtain ⟨-, rfl⟩ := Prod.mk.inj (Option.some.inj h)
      exact List.suffix_cons c more
    · split at h
      · cases h
      · split at h
        · rename_i d after hnext
          obtain ⟨_, hrest, h⟩ := Option.map_eq_some_iff.1 h
          obtain ⟨-, rfl⟩ := Prod.mk.inj h
          refine (string?_suffix hrest).trans ?_
          split at hnext
          · exact (escape?_suffix hnext).trans (List.suffix_cons c more)
          · obtain ⟨-, rfl⟩ := Prod.mk.inj (Option.some.inj hnext)
            exact List.suffix_cons c more
        · cases h

/-- **The digits of a whole part** stand at its beginning. -/
theorem wholeDigits_spec (s : Text) :
    (wholeDigits s).1 ++ (wholeDigits s).2 = s ∧ ∀ c ∈ (wholeDigits s).1, c.isDigit = true := by
  unfold wholeDigits
  split
  · refine ⟨rfl, fun c hc => ?_⟩
    rw [List.mem_singleton.1 hc]
    decide
  · exact ⟨List.takeWhile_append_dropWhile, fun c hc => List.all_eq_true.1 List.all_takeWhile c hc⟩

theorem fractionDigits_suffix (s : Text) : (fractionDigits s).2 <:+ s := by
  unfold fractionDigits
  split
  · rename_i c rest
    split
    · exact (List.dropWhile_suffix Char.isDigit).trans ⟨['.', c], rfl⟩
    · exact List.suffix_rfl
  · exact List.suffix_rfl

theorem readSign_suffix (s : Text) : (Binary64.readSign s).2 <:+ s := by
  unfold Binary64.readSign
  split
  · exact List.suffix_cons _ _
  · exact List.suffix_cons _ _
  · exact List.suffix_rfl

theorem power?_suffix {s rest : Text} {e : Int} (h : power? s = some (e, rest)) : rest <:+ s := by
  unfold power? at h
  split at h
  · rename_i c more
    dsimp only at h
    split at h
    · obtain ⟨-, rfl⟩ := Prod.mk.inj (Option.some.inj h)
      exact (List.dropWhile_suffix Char.isDigit).trans ((readSign_suffix more).trans (List.suffix_cons c more))
    · cases h
  · cases h

/-- **A number** is refused for nothing but its form and the digits it has. -/
theorem number?_reads (levels : Nat) (s : Text) : Reads levels s (number? s) := by
  unfold number?
  split
  rename_i negative unsigned heq
  have hsigned : unsigned <:+ s := by
    split at heq <;> obtain ⟨-, rfl⟩ := Prod.mk.inj heq
    · exact List.suffix_cons _ _
    · exact List.suffix_rfl
  obtain ⟨hwhole, hdigits⟩ := wholeDigits_spec unsigned
  have hfraction := fractionDigits_suffix (wholeDigits unsigned).2
  generalize wholeDigits unsigned = parts at hwhole hdigits hfraction ⊢
  obtain ⟨whole, afterWhole⟩ := parts
  dsimp only at hwhole hdigits hfraction ⊢
  generalize fractionDigits afterWhole = parts at hfraction ⊢
  obtain ⟨fraction, afterFraction⟩ := parts
  have hafter : afterFraction <:+ s := (hfraction.trans ⟨whole, hwhole⟩).trans hsigned
  dsimp only
  split
  · trivial
  · split
    · rename_i hpower
      exact (power?_suffix hpower).trans hafter
    · split
      · split
        · rename_i hlong
          have hin : whole <:+: unsigned := ⟨[], afterWhole, by simpa using hwhole⟩
          exact ⟨hlong, whole, hin.trans hsigned.isInfix, rfl, hdigits⟩
        · exact hafter
      · exact hafter

theorem name?_suffix {s rest : Text} {j : Json} (h : name? s = some (j, rest)) : rest <:+ s := by
  obtain ⟨n, -, h⟩ := List.exists_of_findSome?_eq_some h
  obtain ⟨after, hafter, h⟩ := Option.map_eq_some_iff.1 h
  obtain ⟨-, rfl⟩ := Prod.mk.inj h
  exact after?_suffix hafter

/-! ## Values -/

mutual

/-- **A value**: the induction is on the steps of the reader, and a level that is opened is one more bracket. -/
theorem value?_reads : ∀ (fuel levels : Nat) (s : Text), Reads levels s (value? fuel levels s)
  | 0, _, _ => trivial
  | fuel + 1, levels, s => by
    unfold value?
    split
    · rename_i rest
      split
      · rename_i hfound
        exact (string?_suffix hfound).trans (List.suffix_cons _ _)
      · trivial
    · rename_i rest
      have hskip := skip_suffix rest
      split
      · rename_i hl
        rw [hl]
        exact List.countP_pos_iff.2 ⟨_, List.mem_cons_self, rfl⟩
      · split
        · rename_i after hafter
          exact ((List.suffix_cons _ after).trans (hafter ▸ hskip)).trans (List.suffix_cons _ rest)
        · exact .deeper rfl hskip ((items?_reads fuel (levels - 1) _).map fun _ => rfl)
    · rename_i rest
      have hskip := skip_suffix rest
      split
      · rename_i hl
        rw [hl]
        exact List.countP_pos_iff.2 ⟨_, List.mem_cons_self, rfl⟩
      · split
        · rename_i after hafter
          exact ((List.suffix_cons _ after).trans (hafter ▸ hskip)).trans (List.suffix_cons _ rest)
        · exact .deeper rfl hskip ((fields?_reads fuel (levels - 1) _).map fun _ => rfl)
    · split
      · rename_i found hfound
        exact name?_suffix hfound
      · exact number?_reads levels s

theorem items?_reads : ∀ (fuel levels : Nat) (s : Text), Reads levels s (items? fuel levels s)
  | 0, _, _ => trivial
  | fuel + 1, levels, s => by
    unfold items?
    refine (value?_reads fuel levels s).bind fun ⟨item, rest⟩ hrest => ?_
    have hskip : skip rest <:+ s := (skip_suffix rest).trans hrest
    dsimp only
    split
    · rename_i after hafter
      exact (List.suffix_cons _ after).trans (hafter ▸ hskip)
    · rename_i after hafter
      have hmore : skip after <:+ s := (skip_suffix after).trans ((List.suffix_cons _ after).trans (hafter ▸ hskip))
      exact ((items?_reads fuel levels _).mono hmore).map fun _ => rfl
    · trivial

theorem fields?_reads : ∀ (fuel levels : Nat) (s : Text), Reads levels s (fields? fuel levels s)
  | 0, _, _ => trivial
  | fuel + 1, levels, s => by
    unfold fields?
    split
    · rename_i inner
      split
      · trivial
      · rename_i key rest hkey
        have hrest : rest <:+ '"' :: inner := (string?_suffix hkey).trans (List.suffix_cons _ inner)
        split
        · rename_i gap hgap
          have hvalue : skip gap <:+ '"' :: inner :=
            (skip_suffix gap).trans ((List.suffix_cons _ gap).trans (hgap ▸ (skip_suffix rest).trans hrest))
          refine ((value?_reads fuel levels _).mono hvalue).bind fun ⟨value, rest⟩ hrest => ?_
          have hskip : skip rest <:+ '"' :: inner := (skip_suffix rest).trans hrest
          dsimp only
          split
          · rename_i after hafter
            exact (List.suffix_cons _ after).trans (hafter ▸ hskip)
          · rename_i after hafter
            have hmore : skip after <:+ '"' :: inner :=
              (skip_suffix after).trans ((List.suffix_cons _ after).trans (hafter ▸ hskip))
            exact ((fields?_reads fuel levels _).mono hmore).map fun _ => rfl
          · trivial
        · trivial
    · trivial

end

/-- **A text that is refused** shows why. -/
theorem parse_eq_error {s : Text} {fault : Fault} (h : parse s = .error fault) : Shows mostLevels s fault := by
  have hread := (value?_reads (2 * s.length + 1) mostLevels (skip s)).mono (skip_suffix s)
  unfold parse at h
  generalize value? (2 * s.length + 1) mostLevels (skip s) = answer at h hread
  cases answer with
  | error fault' =>
    cases h
    exact hread
  | ok found =>
    dsimp only [bind, Except.bind] at h
    split at h
    · cases h
    · cases h
      trivial

end DocFerry.Json
