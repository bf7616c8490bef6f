import DocFerry.Config.Calendar
import DocFerry.Number.Whole
/-!
# Why a settings text is not read

A file may hold no text, or a text may lack the form of a settings text, or hold a scalar that does
not stand for any value of its kind.

Main fact: only a file without text and a text without the form of a settings text fail without a
word (`message?_eq_none_iff`).
-/
namespace DocFerry.Yaml

/-- **Why a settings text is not read.** -/
inductive Fault where
  /-- The text has not the form of a settings text. -/
  | malformed
  /-- The file is no well-formed text. -/
  | undecodable
  /-- An escape stands for no character: its number is too large, or negative. -/
  | codePoint
  /-- The number of an escape has more than thirty-one bits. -/
  | hugeCode
  /-- The format has no such version. -/
  | version (major minor : Nat)
  /-- A day or time does not exist. -/
  | calendar (fault : Config.CalendarFault)
  /-- A whole number is not read. -/
  | whole (fault : Whole.Fault)
  /-- A text declared as a binary number is none. -/
  | notNumber (s : Text)
  /-- A text declared as a number is empty. -/
  | emptyNumber
  /-- A binary number has more than one power of ten. -/
  | manyPowers
  /-- The worth of a place of a number to the base sixty is beyond every binary number. -/
  | hugeWorth
  /-- A text declared as a truth value is none. -/
  | unknownName (s : Text)
  /-- A key holds a list or a mapping. -/
  | unfitKey (kind : String)
  /-- An ordered mapping has a key twice. -/
  | repeatedKey
  deriving DecidableEq, Repr

/-- **The text of a fault**, if it has one. -/
def Fault.message? : Fault → Option Text
  | .malformed | .undecodable => none
  | .codePoint => some "chr() arg not in range(0x110000)".toList
  | .hugeCode => some "Python int too large to convert to C int".toList
  | .version major minor =>
    some ("version minor part can only be 2 or 1, got (".toList ++ Binary64.decimalDigits major ++
      ", ".toList ++ Binary64.decimalDigits minor ++ [')'])
  | .calendar fault => some fault.message
  | .whole fault => some fault.message
  | .notNumber s => some ("could not convert string to float: ".toList ++ Text.quoted s)
  | .emptyNumber => some "string index out of range".toList
  | .manyPowers => some "too many values to unpack (expected 2)".toList
  | .hugeWorth => some "int too large to convert to float".toList
  | .unknownName s => some s
  | .unfitKey kind => some ("unhashable type: ".toList ++ Text.quoted kind.toList)
  | .repeatedKey => some []

/-- **What must be there for a text to have the form of a settings text.** -/
def formed {α : Type} : Option α → Except Fault α
  | some a => .ok a
  | none => .error .malformed

theorem Fault.message?_eq_none_iff (f : Fault) :
    f.message? = none ↔ f = .malformed ∨ f = .undecodable := by
  cases f <;> simp [Fault.message?]

end DocFerry.Yaml
