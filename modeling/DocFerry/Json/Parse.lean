import DocFerry.Json.Basic
import DocFerry.Number.Whole
/-!
# Reading JSON

A data file holds one value and nothing else.  Beyond the standard, the three names of binary
numbers without digits are read.  A whole number of more than 4300 digits is refused as such, and so
is a value with too many levels of arrays and objects, unless the text is refused before it is
reached.

Main fact: a text without a value is refused (`parse_nil`).
-/
namespace DocFerry.Json

open Text

/-- **Why a text is not read.** -/
inductive Fault where
  | malformed
  /-- It holds a whole number of so many digits. -/
  | longInteger (digits : Nat)
  /-- It has too many levels, the last of them an array, or an object. -/
  | tooDeep (isObject : Bool)
  deriving DecidableEq, Repr

/-- **The most levels of arrays and objects** that a text may have. -/
def mostLevels : Nat := 985

def isSpace (c : Char) : Bool := c == ' ' || c == '\t' || c == '\n' || c == '\r'

def skip (s : Text) : Text := s.dropWhile isSpace

/-- **The sixteen-bit unit of an escape**, after its `u`. -/
def unit? : Text → Option (Nat × Text)
  | a :: b :: c :: d :: rest => do
    let a ← hexValue? a
    let b ← hexValue? b
    let c ← hexValue? c
    let d ← hexValue? d
    some (((a * 16 + b) * 16 + c) * 16 + d, rest)
  | _ => none

/-- **The characters of escapes by one letter.** -/
def letterEscapes : List (Char × Char) :=
  [('"', '"'), ('\\', '\\'), ('/', '/'), ('b', Char.ofNat 8), ('f', Char.ofNat 12), ('n', '\n'),
    ('r', '\r'), ('t', '\t')]

/-- **The second unit of a pair**, with its escape. -/
def lowUnit? (s : Text) : Option (Nat × Text) :=
  ((after? ['\\', 'u'] s).bind unit?).filter fun u => 0xdc00 ≤ u.1 && u.1 ≤ 0xdfff

/-- **The character of an escape**, after its backslash. -/
def escape? : Text → Option (Char × Text)
  | 'u' :: rest =>
    (unit? rest).map fun (high, rest) =>
      match if 0xd800 ≤ high && high ≤ 0xdbff then lowUnit? rest else none with
      | some (low, rest) =>
        (Char.ofNat (0x10000 + (high - 0xd800) * 0x400 + (low - 0xdc00)), rest)
      | none => (if 0xd800 ≤ high && high ≤ 0xdfff then Char.ofNat 0xfffd else Char.ofNat high, rest)
  | c :: rest => (letterEscapes.lookup c).map fun d => (d, rest)
  | [] => none

/-- **A string after its opening quotation mark**: its text and what follows it. -/
def string? : (fuel : Nat) → Text → Option (Text × Text)
  | 0, _ => none
  | _, [] => none
  | fuel + 1, c :: rest =>
    if c == '"' then some ([], rest)
    else if c.toNat < 0x20 then none
    else
      match if c == '\\' then escape? rest else some (c, rest) with
      | some (d, rest) => (string? fuel rest).map fun found => (d :: found.1, found.2)
      | none => none

/-- **The digits of a whole part**: a zero alone, or digits of which the first is not zero. -/
def wholeDigits (s : Text) : Text × Text :=
  match s with
  | '0' :: rest => (['0'], rest)
  | _ => (s.takeWhile Char.isDigit, s.dropWhile Char.isDigit)

/-- **A fraction**: its digits, none if there is no point with a digit after it. -/
def fractionDigits (s : Text) : Text × Text :=
  match s with
  | '.' :: c :: rest =>
    if c.isDigit then (c :: rest.takeWhile Char.isDigit, rest.dropWhile Char.isDigit) else ([], s)
  | _ => ([], s)

/-- **A power of ten**, none if there is no letter with digits after it. -/
def power? (s : Text) : Option (Int × Text) :=
  match s with
  | c :: rest =>
    let (negative, digits) := Binary64.readSign rest
    let run := digits.takeWhile Char.isDigit
    if (c == 'e' || c == 'E') && !run.isEmpty then
      some (if negative then -(Binary64.naturalOf run : Int) else Binary64.naturalOf run,
        digits.dropWhile Char.isDigit)
    else none
  | [] => none

/-- **A number**: whole if it has neither fraction nor power. -/
def number? (s : Text) : Except Fault (Json × Text) :=
  let (negative, unsigned) : Bool × Text :=
    match s with
    | '-' :: rest => (true, rest)
    | _ => (false, s)
  let (whole, afterWhole) := wholeDigits unsigned
  let (fraction, afterFraction) := fractionDigits afterWhole
  if whole.isEmpty then .error .malformed
  else
    match power? afterFraction with
    | some (e, rest) =>
      .ok (.number (Binary64.ofDecimal negative (Binary64.naturalOf (whole ++ fraction))
        (e - fraction.length)), rest)
    | none =>
      if fraction.isEmpty then
        if Whole.digitLimit < whole.length then .error (.longInteger whole.length)
        else
          let n : Int := Binary64.naturalOf whole
          .ok (.int (if negative then -n else n), afterFraction)
      else
        .ok (.number (Binary64.ofDecimal negative (Binary64.naturalOf (whole ++ fraction))
          (-(fraction.length : Int))), afterFraction)

def names : List (Text × Json) :=
  [("null".toList, .null), ("true".toList, .bool true), ("false".toList, .bool false),
    ("NaN".toList, .number Binary64.notANumber), ("Infinity".toList, .number (.infinity false)),
    ("-Infinity".toList, .number (.infinity true))]

/-- **A value that is a name**, and what follows it. -/
def name? (s : Text) : Option (Json × Text) :=
  names.findSome? fun n => (after? n.1 s).map fun rest => (n.2, rest)

mutual

/-- **A value at the start of a text**, and what follows it; so many levels may be opened in it. -/
def value? : (fuel : Nat) → (levels : Nat) → Text → Except Fault (Json × Text)
  | 0, _, _ => .error .malformed
  | fuel + 1, levels, s =>
    match s with
    | '"' :: rest =>
      match string? fuel rest with
      | some (found, rest) => .ok (.text found, rest)
      | none => .error .malformed
    | '[' :: rest =>
      if levels = 0 then .error (.tooDeep false)
      else
        match skip rest with
        | ']' :: rest => .ok (.array [], rest)
        | inner => (items? fuel (levels - 1) inner).map fun found => (.array found.1, found.2)
    | '\x7b' :: rest =>
      if levels = 0 then .error (.tooDeep true)
      else
        match skip rest with
        | '\x7d' :: rest => .ok (.object [], rest)
        | inner =>
          (fields? fuel (levels - 1) inner).map fun found =>
            (.object (Table.ofEntries found.1), found.2)
    | _ =>
      match name? s with
      | some found => .ok found
      | none => number? s

/-- The items of an array, from one item on. -/
def items? : (fuel : Nat) → (levels : Nat) → Text → Except Fault (List Json × Text)
  | 0, _, _ => .error .malformed
  | fuel + 1, levels, s => do
    let (item, rest) ← value? fuel levels s
    match skip rest with
    | ']' :: rest => .ok ([item], rest)
    | ',' :: rest => (items? fuel levels (skip rest)).map fun found => (item :: found.1, found.2)
    | _ => .error .malformed

/-- The fields of an object, from one key on. -/
def fields? : (fuel : Nat) → (levels : Nat) → Text → Except Fault (List (Text × Json) × Text)
  | 0, _, _ => .error .malformed
  | fuel + 1, levels, s =>
    match s with
    | '"' :: rest =>
      match string? fuel rest with
      | none => .error .malformed
      | some (key, rest) =>
        match skip rest with
        | ':' :: rest => do
          let (value, rest) ← value? fuel levels (skip rest)
          match skip rest with
          | '\x7d' :: rest => .ok ([(key, value)], rest)
          | ',' :: rest =>
            (fields? fuel levels (skip rest)).map fun found => ((key, value) :: found.1, found.2)
          | _ => .error .malformed
        | _ => .error .malformed
    | _ => .error .malformed

end

/-- **The value that a text holds.**  Every step of the reader consumes a character, or opens one
level whose bracket has been consumed, so twice the length of the text is fuel enough. -/
def parse (s : Text) : Except Fault Json := do
  let (value, rest) ← value? (2 * s.length + 1) mostLevels (skip s)
  if (skip rest).isEmpty then .ok value else .error .malformed

theorem parse_nil : parse [] = .error .malformed := by rfl

end DocFerry.Json
