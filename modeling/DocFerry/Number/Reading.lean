import DocFerry.Text.Blank
import DocFerry.Text.Case
import DocFerry.Text.Digit
import DocFerry.Number.Rounding
/-!
# Reading numbers

A written number has an optional sign, digits with an optional point and an optional power of ten,
or is an infinity or the value that is not a number.  In free text (`readNumber?`) blanks around it
are dropped, the digits of every script count, letters count in either case, and one underscore may
stand between two digits.

Main fact: `readNumber?` accepts no text without a digit or a letter (`readNumber?_nil`).
-/
namespace DocFerry.Binary64

/-- **The value of a run of ASCII digits.** -/
def naturalOf (digits : Text) : Nat :=
  digits.foldl (fun n c => n * 10 + (c.toNat - 0x30)) 0

/-- **An optional sign**: whether the number is negative, and the text after the sign. -/
def readSign : Text → Bool × Text
  | '-' :: rest => (true, rest)
  | '+' :: rest => (false, rest)
  | s => (false, s)

/-- **An optional power of ten** that ends the text, zero if there is none. -/
def readExponent? : Text → Option Int
  | [] => some 0
  | c :: rest =>
    if c == 'e' || c == 'E' then
      let (negative, digits) := readSign rest
      if digits.isEmpty || !digits.all Char.isDigit then none
      else some (if negative then -(naturalOf digits : Int) else naturalOf digits)
    else none

/-- **An unsigned decimal**: the digits without their point, and the power of ten. -/
def readDecimal? (s : Text) : Option (Nat × Int) :=
  let whole := s.takeWhile Char.isDigit
  let rest := s.dropWhile Char.isDigit
  let (fraction, tail) :=
    match rest with
    | '.' :: more => (more.takeWhile Char.isDigit, more.dropWhile Char.isDigit)
    | _ => ([], rest)
  if whole.isEmpty && fraction.isEmpty then none
  else (readExponent? tail).map fun e => (naturalOf (whole ++ fraction), e - fraction.length)

/-- **The names of the values without digits.** -/
def readName? (s : Text) : Option Nat :=
  let name := s.map Char.toLower
  if name = "inf".toList ∨ name = "infinity".toList then some infiniteMagnitude
  else if name = "nan".toList then some notANumber.magnitude
  else none

/-- **A number in plain ASCII**: sign, then a decimal or a name. -/
def readPlain? (s : Text) : Option Binary64 :=
  let (negative, rest) := readSign s
  match readDecimal? rest with
  | some (digits, e) => some (ofDecimal negative digits e)
  | none => (readName? rest).map fun magnitude => ⟨negative, magnitude⟩

/-- **Underscores between digits dropped**; none if one stands elsewhere. -/
def dropUnderscores? : (afterDigit : Bool) → Text → Option Text
  | _, [] => some []
  | afterDigit, '_' :: rest =>
    if afterDigit && rest.head?.any Char.isDigit then dropUnderscores? false rest else none
  | _, c :: rest => (dropUnderscores? c.isDigit rest).map (c :: ·)

/-- **Blanks that may surround a number**: all but the ASCII information separators. -/
def isMargin (c : Char) : Bool :=
  Text.isBlank c && !(0x1c ≤ c.toNat && c.toNat ≤ 0x1f)

/-- **A digit of any script as the ASCII digit**, every other character as it is. -/
def asciiDigit (c : Char) : Char :=
  match Text.digitValue? c with
  | some v => Char.ofNat (0x30 + v)
  | none => c

def readNumber? (s : Text) : Option Binary64 :=
  let inner := Text.dropEndWhile isMargin (s.dropWhile isMargin)
  (dropUnderscores? false (inner.map asciiDigit)).bind readPlain?

theorem readNumber?_nil : readNumber? [] = none := by decide

end DocFerry.Binary64
