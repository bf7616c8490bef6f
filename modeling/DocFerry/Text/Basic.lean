/-!
# Text as a list of characters

Documents, names and labels are lists of characters, so that a rule about them is a recursion on the
list.  This module holds the cuts that every other one is made of: at a character class
(`splitWhere`), at the first occurrence of a needle (`cutAt?`), and the left-to-right replacement of
non-overlapping matches (`substitute`).

Main facts: joining undoes splitting (`join_splitWhere`), a cut loses nothing (`cutAt?_eq_some`),
and a text in which nothing matches is left alone (`substitute_of_none`).
-/
namespace DocFerry

/-- **A text**: its characters in order. -/
abbrev Text := List Char

/-- Texts are compared character by character. -/
instance : LawfulBEq Text := List.instLawfulBEq

/-- What holds of every character of a text is decided along it. -/
instance {P : Char → Prop} [DecidablePred P] (s : Text) : Decidable (∀ c ∈ s, P c) := List.decidableBAll P s

namespace Text

/-- **The pieces between separators**, empty pieces included: always one more than there are
separators. -/
def splitWhere (sep : Char → Bool) : Text → List Text
  | [] => [[]]
  | c :: rest =>
    if sep c then [] :: splitWhere sep rest
    else
      match splitWhere sep rest with
      | [] => [[c]]
      | piece :: pieces => (c :: piece) :: pieces

/-- **Pieces put together with `glue` between neighbours.** -/
def join (glue : Text) : List Text → Text
  | [] => []
  | [piece] => piece
  | piece :: next :: pieces => piece ++ glue ++ join glue (next :: pieces)

/-- **What follows a fixed beginning**, if the text begins so. -/
def after? : (start : Text) → Text → Option Text
  | [], s => some s
  | _ :: _, [] => none
  | a :: start, c :: s => if a = c then after? start s else none

/-- **The first occurrence of `needle`**: the text before it and the text after it. -/
def cutAt? (needle : Text) : Text → Option (Text × Text)
  | [] => if needle.isEmpty then some ([], []) else none
  | c :: rest =>
    match after? needle (c :: rest) with
    | some after => some ([], after)
    | none => (cutAt? needle rest).map fun cut => (c :: cut.1, cut.2)

def has (needle s : Text) : Bool :=
  (cutAt? needle s).isSome

/-- **The text without its last characters in a class.** -/
def dropEndWhile (p : Char → Bool) (s : Text) : Text :=
  (s.reverse.dropWhile p).reverse

/-- **A recogniser of marked-up text**: for a match at the start of the text, what to write for it
and the text after it. -/
abbrev Matcher := Text → Option (Text × Text)

/-- `substitute` inside a match of which `skip` characters are still to pass. -/
def substituteFrom (m : Matcher) : Nat → Text → Text
  | _, [] => []
  | skip + 1, _ :: rest => substituteFrom m skip rest
  | 0, c :: rest =>
    match m (c :: rest) with
    | some (written, after) => written ++ substituteFrom m (rest.length - after.length) rest
    | none => c :: substituteFrom m 0 rest

/-- **Every match replaced**, from left to right; a match starts where the one before it ended or
later. -/
def substitute (m : Matcher) (s : Text) : Text :=
  substituteFrom m 0 s

/-- **The matcher of one fixed text.** -/
def literal (found written : Text) : Matcher := fun s =>
  (after? found s).map fun after => (written, after)

/-- **Every occurrence of one fixed text replaced.** -/
def replaceAll (found written : Text) (s : Text) : Text :=
  substitute (literal found written) s

/-! ## Small laws -/

theorem splitWhere_ne_nil (sep : Char → Bool) (s : Text) : splitWhere sep s ≠ [] := by
  cases s with
  | nil => simp [splitWhere]
  | cons c rest => simp only [splitWhere]; split <;> (try split) <;> simp

theorem join_cons_cons (glue piece next : Text) (pieces : List Text) :
    join glue (piece :: next :: pieces) = piece ++ glue ++ join glue (next :: pieces) := rfl

/-- **Joining undoes splitting** at a single character. -/
theorem join_splitWhere (sep : Char) (s : Text) : join [sep] (splitWhere (· == sep) s) = s := by
  induction s with
  | nil => rfl
  | cons c rest ih =>
    simp only [splitWhere]
    cases h : splitWhere (· == sep) rest with
    | nil => exact absurd h (splitWhere_ne_nil _ _)
    | cons piece pieces =>
      rw [h] at ih
      split
      · rename_i hc
        rw [join_cons_cons, ih]
        simp_all
      · cases pieces with
        | nil => simpa [join] using ih
        | cons next pieces => simpa [join] using ih

theorem after?_eq_some_iff {start s rest : Text} : after? start s = some rest ↔ s = start ++ rest := by
  induction start generalizing s with
  | nil => simp [after?]
  | cons a start ih =>
    cases s with
    | nil => simp [after?]
    | cons c s =>
      by_cases h : a = c
      · subst h; simp [after?, ih]
      · simp [after?, h, Ne.symm h]

theorem cutAt?_eq_some {needle s before after : Text} (h : cutAt? needle s = some (before, after)) :
    s = before ++ needle ++ after := by
  induction s generalizing before with
  | nil =>
    simp only [cutAt?] at h
    split at h <;> simp_all
  | cons c rest ih =>
    simp only [cutAt?] at h
    split at h
    · rename_i found hp
      obtain ⟨rfl, rfl⟩ := Prod.mk.inj (Option.some.inj h)
      simpa using after?_eq_some_iff.1 hp
    · obtain ⟨cut, hc, he⟩ := Option.map_eq_some_iff.1 h
      obtain ⟨rfl, rfl⟩ := Prod.mk.inj he
      simp [ih hc]

/-- **A text in which nothing matches is left alone.** -/
theorem substitute_of_none (m : Matcher) (s : Text)
    (h : ∀ t, t <:+ s → t ≠ [] → m t = none) : substitute m s = s := by
  unfold substitute
  induction s with
  | nil => rfl
  | cons c rest ih =>
    rw [substituteFrom, h _ List.suffix_rfl (by simp)]
    simp only [List.cons.injEq, true_and]
    exact ih fun t ht hn => h t (ht.trans (List.suffix_cons c rest)) hn

end Text
end DocFerry
