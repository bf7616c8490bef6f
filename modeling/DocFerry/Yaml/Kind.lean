import DocFerry.Config.Calendar
import DocFerry.Text.Basic
import DocFerry.Yaml.Token
/-!
# The kind of a scalar

What a scalar stands for is seen from its text, by rules that depend on the version of the format:
truth values, binary numbers, whole numbers, the mark that merges mappings, the null value, days and
times, the mark of a default value, and the marks of the format itself are tried in this order, and
everything else is a text.

Main fact: the empty scalar is the null value in every version (`kindOf_nil`).
-/
namespace DocFerry.Yaml

inductive Kind where
  | bool
  | number
  | int
  /-- The mark that merges mappings into another. -/
  | merge
  | null
  /-- A day, or a day with a time. -/
  | timestamp
  /-- The mark of the default value of a mapping. -/
  | standard
  /-- A mark of the format itself. -/
  | mark
  | text
  deriving DecidableEq, Repr

/-! ## Small patterns -/

/-- **A word in lower case, with a capital, and in upper case.** -/
def spellings (word : String) : List Text :=
  let s := word.toList
  [s, s.take 1 |>.map Char.toUpper |> (· ++ s.drop 1), s.map Char.toUpper]

def isDigitMark (c : Char) : Bool := c.isDigit || c == '_'

/-- **Digits and underscores, at least one of either.** -/
def isMarkedRun (isDigit : Char → Bool) (s : Text) : Bool :=
  !s.isEmpty && s.all fun c => isDigit c || c == '_'

/-- **A digit and then digits and underscores.** -/
def isMarkedNumber (s : Text) : Bool := s.head?.any Char.isDigit && s.all isDigitMark

/-- **The text after a sign**, if it has one. -/
def unsigned : Text → Text
  | '-' :: rest => rest
  | '+' :: rest => rest
  | s => s

def isSigned (s : Text) : Bool := s.head? == some '-' || s.head? == some '+'

/-- **A power of ten**, whose sign may be left out or not. -/
def isPower (signRequired : Bool) : Text → Bool
  | c :: rest =>
    let digits := unsigned rest
    (c == 'e' || c == 'E') && (!signRequired || isSigned rest) && !digits.isEmpty &&
      digits.all Char.isDigit
  | [] => false

/-- **The pieces of a number to the base sixty** between its colons. -/
def isSixtieth (s : Text) : Bool :=
  match s with
  | [a] => a.isDigit
  | [a, b] => '0' ≤ a && a ≤ '5' && b.isDigit
  | _ => false

/-! ## Numbers -/

/-- **A binary number without its sign.** -/
def isUnsignedNumber (s : Text) : Bool :=
  let run := s.takeWhile isDigitMark
  let rest := s.dropWhile isDigitMark
  isMarkedNumber run &&
    match rest with
    | '.' :: more =>
      let tail := more.dropWhile isDigitMark
      tail.isEmpty || isPower false tail
    | _ => isPower false rest

/-- **A fraction without a whole part.** -/
def isFraction : Text → Bool
  | '.' :: more =>
    let tail := more.dropWhile isDigitMark
    !(more.takeWhile isDigitMark).isEmpty && (tail.isEmpty || isPower true tail)
  | _ => false

/-- **A binary number to the base sixty**, without its sign. -/
def isSixtyNumber (s : Text) : Bool :=
  match s.dropWhile (· != '.') with
  | '.' :: fraction =>
    match Text.splitWhere (· == ':') (s.takeWhile (· != '.')) with
    | first :: second :: more =>
      isMarkedNumber first && (second :: more).all isSixtieth && fraction.all isDigitMark
    | _ => false
  | _ => false

def isNumber (version : Version) (s : Text) : Bool :=
  let rest := unsigned s
  isUnsignedNumber rest ||
    (if version = oldVersion then isFraction s || isSixtyNumber rest else isFraction rest) ||
    [".inf", ".Inf", ".INF"].any (rest == ·.toList) || [".nan", ".NaN", ".NAN"].any (s == ·.toList)

/-- **A whole number after the letters that name its base.** -/
def isBased (letters : String) (isDigit : Char → Bool) (s : Text) : Bool :=
  ((Text.after? letters.toList s).map (isMarkedRun isDigit)).getD false

/-- **A digit to the base eight.** -/
def isOctal (c : Char) : Bool := '0' ≤ c && c ≤ '7'

/-- **A digit to the base sixteen.** -/
def isHexDigit (c : Char) : Bool := c.isDigit || ('a' ≤ c.toLower && c.toLower ≤ 'f')

/-- **A whole number to the base sixty**, without its sign. -/
def isSixtyInt (s : Text) : Bool :=
  match Text.splitWhere (· == ':') s with
  | first :: second :: more =>
    isMarkedNumber first && first.head? != some '0' && (second :: more).all isSixtieth
  | _ => false

def isInt (version : Version) (s : Text) : Bool :=
  let rest := unsigned s
  (isSigned s || s.head?.any Char.isDigit) &&
    (isBased "0b" (fun c => c == '0' || c == '1') rest || isBased "0x" isHexDigit rest ||
      (if version = oldVersion then
        isMarkedRun isOctal rest || rest == ['0'] || (isMarkedNumber rest && rest.head? != some '0') ||
          isSixtyInt rest
      else isBased "0o" isOctal rest || isMarkedRun Char.isDigit rest))

/-! ## Days and times -/

/-- **A zone** as it is written. -/
structure ZoneParts where
  name : Text
  /-- It is behind the zone without offset. -/
  isBehind : Bool := false
  /-- The hours of its offset. -/
  hours : Text := []
  /-- The minutes of its offset. -/
  minutes : Text := []

/-- **The parts of a day and time** as they are written. -/
structure TimestampParts where
  year : Text
  month : Text
  /-- The day of the month. -/
  day : Text
  /-- Hour, minute, second and the fraction of a second. -/
  time : Option (Text × Text × Text × Text) := none
  zone : Option ZoneParts := none

/-- **Digits**, at least and at most so many, and what follows them. -/
def digits? (least most : Nat) (s : Text) : Option (Text × Text) :=
  let run := (s.take most).takeWhile Char.isDigit
  if run.length < least then none else some (run, s.drop run.length)

/-- **A zone** after a time, none in it if nothing follows the time. -/
def zone? (s : Text) : Option (Option ZoneParts) :=
  if s.isEmpty then some none
  else
    let name := s.dropWhile fun c => c == ' ' || c == '\t'
    match name with
    | ['Z'] => some (some { name })
    | c :: rest =>
      if c == '-' || c == '+' then do
        let (hours, rest) ← digits? 1 2 rest
        match rest with
        | [] => some (some { name, isBehind := c == '-', hours })
        | ':' :: rest =>
          let (minutes, rest) ← digits? 2 2 rest
          if rest.isEmpty then some (some { name, isBehind := c == '-', hours, minutes }) else none
        | _ => none
      else none
    | [] => none

/-- **A time of day** and its zone, from the hour on. -/
def time? (s : Text) : Option ((Text × Text × Text × Text) × Option ZoneParts) := do
  let (hour, rest) ← digits? 1 2 s
  let (minute, rest) ← (Text.after? [':'] rest).bind (digits? 2 2)
  let (second, rest) ← (Text.after? [':'] rest).bind (digits? 2 2)
  let (fraction, rest) :=
    match rest with
    | '.' :: more => (more.takeWhile Char.isDigit, more.dropWhile Char.isDigit)
    | _ => ([], rest)
  let zone ← zone? rest
  some ((hour, minute, second, fraction), zone)

/-- **The text of a time of day** after what parts it from the day: a letter, or blanks. -/
def timeText? : Text → Option Text
  | c :: rest =>
    if c == 'T' || c == 't' then some rest
    else if c == ' ' || c == '\t' then some (rest.dropWhile fun c => c == ' ' || c == '\t')
    else none
  | [] => none

/-- **A text without the line feed at its end**, if it has one: a scalar may end with one and still be
of a kind. -/
def withoutEnd (s : Text) : Text := if s.getLast? = some '\n' then s.dropLast else s

/-- **A day**, and a time if one follows. -/
def timestamp? (s : Text) : Option TimestampParts := do
  let (year, rest) ← digits? 4 4 (withoutEnd s)
  let (month, rest) ← (Text.after? ['-'] rest).bind (digits? 1 2)
  let (day, rest) ← (Text.after? ['-'] rest).bind (digits? 1 2)
  if rest.isEmpty then some { year, month, day }
  else
    let (time, zone) ← (timeText? rest).bind time?
    some { year, month, day, time := some time, zone }

/-- **A scalar that is a day or time of itself**: without a time, month and day have two digits. -/
def isTimestamp (s : Text) : Bool :=
  match timestamp? s with
  | some p => p.time.isSome || (p.month.length = 2 && p.day.length = 2)
  | none => false

/-! ## The kind -/

def boolSpellings (version : Version) : List Text :=
  if version = oldVersion then
    [['y'], ['Y'], ['n'], ['N']] ++
      ["yes", "no", "true", "false", "on", "off"].flatMap spellings
  else ["true", "false"].flatMap spellings

/-- **The spellings of the null value.** -/
def nullSpellings : List Text := [] :: ['~'] :: spellings "null"

def mergeMark : Text := ['<', '<']

/-- **The mark of a default value.** -/
def standardMark : Text := ['=']

/-- **Marks of the format itself**, which stand for no value. -/
def formatMarks : List Text := [['!'], ['&'], ['*']]

/-- What a text without a line feed at its end stands for. -/
def kindOfWord (version : Version) (s : Text) : Kind :=
  if (boolSpellings version).contains s then .bool
  else if isNumber version s then .number
  else if isInt version s then .int
  else if s = mergeMark then .merge
  else if nullSpellings.contains s then .null
  else if isTimestamp s then .timestamp
  else if s = standardMark then .standard
  else if formatMarks.contains s then .mark
  else .text

/-- **What a scalar stands for**, seen from its text; a line feed alone is a text. -/
def kindOf (version : Version) (s : Text) : Kind :=
  if s = ['\n'] then .text else kindOfWord version (withoutEnd s)

theorem kindOf_nil (version : Version) : kindOf version [] = .null := by
  by_cases h : version = oldVersion
  · subst h; decide
  · have : boolSpellings version = ["true", "false"].flatMap spellings := by simp [boolSpellings, h]
    simp only [kindOf, withoutEnd, List.getLast?_nil, reduceCtorEq, if_false, kindOfWord, this, isNumber,
      isInt, h]
    decide

end DocFerry.Yaml
