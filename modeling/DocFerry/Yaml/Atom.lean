import DocFerry.Config.Value
import DocFerry.Number.Reading
import DocFerry.Number.Sum
import DocFerry.Text.Case
import DocFerry.Yaml.Fault
import DocFerry.Yaml.Kind
/-!
# The values of scalars

Each kind of scalar has its own way from the text to the value.  Underscores in numbers are passed
over.  In the older version of the format a leading zero means the base eight, and colons part the
places of a number to the base sixty.

Main fact: a truth value is true or false (`readBool_eq_ok`).
-/
namespace DocFerry.Yaml

open Config

def withoutMarks (s : Text) : Text := s.filter (· != '_')

/-- **The sign of a number** and the text after it; a number is not empty. -/
def signOf (s : Text) : Except Fault (Bool × Text) :=
  if s.isEmpty then .error .emptyNumber else .ok (s.head? == some '-', unsigned s)

/-- **Words for the two truth values**, in lower case. -/
def boolWords : Table Text Bool :=
  [("yes", true), ("no", false), ("y", true), ("n", false), ("true", true), ("false", false),
    ("on", true), ("off", false)].map fun w => (w.1.toList, w.2)

def readBool (s : Text) : Except Fault Bool :=
  match Table.get? (Text.lower s) boolWords with
  | some b => .ok b
  | none => .error (.unknownName (Text.quoted (Text.lower s)))

/-- **A whole number to a base** in free text. -/
def readWhole (base : Nat) (s : Text) : Except Fault Int := (Whole.read base s).mapError .whole

/-- **A whole number to the base sixty**, from its places. -/
def readSixty (places : List Text) : Except Fault Int :=
  places.foldlM (fun n place => (readWhole 10 place).map fun d => n * 60 + d) 0

/-- **A whole number after its sign.** -/
def readUnsignedInt (version : Version) (s : Text) : Except Fault Int :=
  if s = ['0'] then .ok 0
  else if let some digits := Text.after? "0b".toList s then readWhole 2 digits
  else if let some digits := Text.after? "0x".toList s then readWhole 16 digits
  else if let some digits := Text.after? "0o".toList s then readWhole 8 digits
  else if version = oldVersion ∧ s.isEmpty then .error .emptyNumber
  else if version = oldVersion ∧ s.head? = some '0' then readWhole 8 s
  else if version = oldVersion ∧ s.contains ':' then readSixty (Text.splitWhere (· == ':') s)
  else readWhole 10 s

def readInt (version : Version) (s : Text) : Except Fault Int := do
  let (negative, rest) ← signOf (withoutMarks s)
  let n ← readUnsignedInt version rest
  .ok (if negative then -n else n)

/-- **A binary number in free text**, or the fault of being none. -/
def readNumber (s : Text) : Except Fault Binary64 :=
  match Binary64.readNumber? s with
  | some x => .ok x
  | none => .error (.notNumber s)

/-- **A binary number to the base sixty**, from its places, the last first: what its places are worth
and the worth of the next one. -/
def sumSixty : (worth : Nat) → (sum : Binary64) → List Binary64 → Except Fault Binary64
  | _, sum, [] => .ok sum
  | worth, sum, place :: places =>
    match Binary64.ofInt? worth with
    | some w => sumSixty (worth * 60) (sum.plus (place.times w)) places
    | none => .error .hugeWorth

/-- **A binary number after its sign**, in lower case and with digits.  The older version knows places
to the base sixty, and cuts every other number at its power of ten. -/
def readUnsignedFloat (version : Version) (s : Text) : Except Fault Binary64 :=
  if version = oldVersion ∧ s.contains ':' then do
    let places ← (Text.splitWhere (· == ':') s).mapM readNumber
    sumSixty 1 .zero places.reverse
  else if version = oldVersion ∧ 2 < (Text.splitWhere (· == 'e') s).length then .error .manyPowers
  else readNumber s

/-- **A binary number.**  A value that is not a number and is read from other words than its own is
told apart from the standard one. -/
def readFloat (version : Version) (s : Text) : Except Fault Binary64 := do
  let (negative, rest) ← signOf (Text.lower (withoutMarks s))
  if rest = ".inf".toList then .ok (.infinity negative)
  else if rest = ".nan".toList then .ok .notANumber
  else
    let x ← readUnsignedFloat version rest
    .ok (if x.isNaN then .otherNotANumber else if negative then x.negate else x)

/-- **Millionths of a second** from the digits of a fraction, rounded at the seventh; one million if
they round up to a second. -/
def micros (fraction : Text) : Nat :=
  let six := Binary64.naturalOf ((fraction ++ List.replicate 6 '0').take 6)
  if (fraction[6]?.any fun c => '4' < c) then six + 1 else six

/-- **The zone of a time**, from its parts. -/
def readZone (z : ZoneParts) : Except CalendarFault Zone :=
  let offset : Int := (Binary64.naturalOf z.hours * 3600 + Binary64.naturalOf z.minutes * 60 : Nat)
  Zone.mk? (if z.isBehind then -offset else offset) z.name

/-- **A day or a day with a time.**  The zone is checked first. -/
def readTimestamp (s : Text) : Except Fault Value :=
  match timestamp? s with
  | none => .error .malformed
  | some p => Except.mapError Fault.calendar do
    let zone ← p.zone.mapM readZone
    let day ← Day.mk? (Binary64.naturalOf p.year) (Binary64.naturalOf p.month)
      (Binary64.naturalOf p.day)
    match p.time with
    | none => return .day day
    | some (hour, minute, second, fraction) =>
      let micro := micros fraction
      let roundsUp := micro = 1000000
      let m ← Moment.mk? day (Binary64.naturalOf hour) (Binary64.naturalOf minute)
        (Binary64.naturalOf second) (if roundsUp then 0 else micro) zone
      if roundsUp then return .moment (← m.nextSecond) else return .moment m

/-! ## Octets -/

/-- **The value of a letter of a text that stands for octets.** -/
def letterValue? (c : Char) : Option Nat :=
  if 'A' ≤ c ∧ c ≤ 'Z' then some (c.toNat - 0x41)
  else if 'a' ≤ c ∧ c ≤ 'z' then some (c.toNat - 0x61 + 26)
  else if c.isDigit then some (c.toNat - 0x30 + 52)
  else if c = '+' then some 62
  else if c = '/' then some 63
  else none

/-- **Octets written as letters**: four letters stand for three octets, and the last ones are filled
up with marks.  `place` counts the letters of the group, `left` holds what they leave over, and
`pads` counts the marks since the last letter; other characters are passed over. -/
def octetsFrom? : (place left pads : Nat) → Text → Option (List UInt8)
  | place, _, _, [] => if place = 0 then some [] else none
  | place, left, pads, c :: rest =>
    if c = '=' then
      if 2 ≤ place ∧ 4 ≤ place + (pads + 1) then some []
      else octetsFrom? place left (if 2 ≤ place then pads + 1 else pads) rest
    else
      match letterValue? c with
      | none => octetsFrom? place left pads rest
      | some v =>
        match place with
        | 0 => octetsFrom? 1 v 0 rest
        | 1 => (octetsFrom? 2 (v % 16) 0 rest).map (UInt8.ofNat (left * 4 + v / 16) :: ·)
        | 2 => (octetsFrom? 3 (v % 4) 0 rest).map (UInt8.ofNat (left * 16 + v / 4) :: ·)
        | _ => (octetsFrom? 0 0 0 rest).map (UInt8.ofNat (left * 64 + v) :: ·)

def readOctets (s : Text) : Except Fault (List UInt8) :=
  match if s.all fun c => c.toNat < 128 then octetsFrom? 0 0 0 s else none with
  | some bytes => .ok bytes
  | none => .error .malformed

/-- **The value of a scalar of a kind.**  The marks stand for no value. -/
def readKind (version : Version) (s : Text) : Kind → Except Fault Value
  | .bool => (readBool s).map .bool
  | .number => (readFloat version s).map .number
  | .int => (readInt version s).map .int
  | .merge => .error .malformed
  | .null => .ok .null
  | .timestamp => readTimestamp s
  | .standard | .mark => .error .malformed
  | .text => .ok (.text s)

theorem readBool_eq_ok {s : Text} {b : Bool} (h : readBool s = .ok b) :
    Table.get? (Text.lower s) boolWords = some b := by
  unfold readBool at h
  split at h
  · cases h; assumption
  · cases h

end DocFerry.Yaml
