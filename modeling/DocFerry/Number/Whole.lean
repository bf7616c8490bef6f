import DocFerry.Number.Reading
import DocFerry.Number.Shortest
import DocFerry.Text.Quoted
/-!
# Whole numbers in free text

A written whole number has an optional sign, and digits to a base, of any script and in either case.
Blanks may stand around it, and in front of its digits the letters that name its base.  To the base
ten no number is read or shown that has too many digits.

Main facts: a number with too many digits is the only one without a text (`text?_eq_error_iff`), and
an empty text is no number (`read_nil`).
-/
namespace DocFerry.Whole

open Binary64

/-- **The longest whole number that is read or shown**, in decimal digits. -/
def digitLimit : Nat := 4300

/-- **Why a whole number is not read or shown.** -/
inductive Fault where
  /-- A text has so many decimal digits. -/
  | longText (digits : Nat)
  /-- A number has too many decimal digits. -/
  | longNumber
  /-- A text is no number to the base. -/
  | notNumber (base : Nat) (s : Text)
  deriving DecidableEq, Repr

/-- **What is told about too many digits.** -/
def limitText : Text := "Exceeds the limit (4300 digits) for integer string conversion".toList

def remedyText : Text := "; use sys.set_int_max_str_digits() to increase the limit".toList

/-- **The text of a fault**: of a text that is no number only the beginning is told. -/
def Fault.message : Fault → Text
  | .longText digits =>
    limitText ++ ": value has ".toList ++ decimalDigits digits ++ " digits".toList ++ remedyText
  | .longNumber => limitText ++ remedyText
  | .notNumber base s =>
    "invalid literal for int() with base ".toList ++ decimalDigits base ++ ": ".toList ++
      (Text.quoted s).take 200

/-- **The value of an ASCII digit to a base.** -/
def digit? (base : Nat) (c : Char) : Option Nat := (Text.hexValue? c).filter (· < base)

/-- **The letters that name a base.** -/
def baseLetters : List (Nat × Char) := [(2, 'b'), (8, 'o'), (16, 'x')]

/-- **The text after the letters of the base**, if it starts with them. -/
def afterBase (base : Nat) (s : Text) : Text :=
  match s with
  | '0' :: c :: rest => if baseLetters.lookup base == some c.toLower then rest else s
  | _ => s

/-- **A whole number to a base**, in free text. -/
def read (base : Nat) (s : Text) : Except Fault Int :=
  let (negative, rest) := readSign ((s.map asciiDigit).dropWhile isMargin)
  let rest := afterBase base rest
  let digits := rest.takeWhile fun c => (digit? base c).isSome
  if base = 10 ∧ digitLimit < digits.length then .error (.longText digits.length)
  else if digits.isEmpty || !(rest.drop digits.length).all isMargin then .error (.notNumber base s)
  else
    let n := digits.foldl (fun n c => n * base + (digit? base c).getD 0) 0
    .ok (if negative then -(n : Int) else n)

/-- **A whole number with too many digits.** -/
def isLong (i : Int) : Bool := tenTo digitLimit ≤ i.natAbs

/-- **A whole number in decimal**, however many digits it has. -/
def text (i : Int) : Text := (if i < 0 then ['-'] else []) ++ decimalDigits i.natAbs

/-- **A whole number as it is shown.** -/
def text? (i : Int) : Except Fault Text := if isLong i then .error .longNumber else .ok (text i)

theorem text?_eq_error_iff {i : Int} {fault : Fault} :
    text? i = .error fault ↔ isLong i = true ∧ fault = .longNumber := by
  unfold text?
  by_cases h : isLong i = true
  · rw [if_pos h]
    constructor
    · intro e
      cases e
      exact ⟨h, rfl⟩
    · rintro ⟨_, rfl⟩
      rfl
  · rw [if_neg h]
    constructor
    · intro e
      cases e
    · exact fun e => absurd e.1 h

theorem read_nil (base : Nat) : read base [] = .error (.notNumber base []) := by
  simp [read, readSign, afterBase]

end DocFerry.Whole
