import DocFerry.Table
import DocFerry.Text.Basic
import DocFerry.Number.Binary64
/-!
# JSON values

The values of a data file.  Whole numbers and binary numbers are kept apart, and an object is a
table: its keys are in order of first mention, and a key given twice has its last value.
-/
namespace DocFerry

inductive Json where
  | null
  | bool (b : Bool)
  | int (i : Int)
  | number (x : Binary64)
  | text (s : Text)
  | array (items : List Json)
  | object (fields : List (Text × Json))
  deriving Inhabited

namespace Json

/-- **A text value from a word of this library.** -/
def word (s : String) : Json := .text s.toList

/-- **An object with keys that are words of this library.** -/
def record (fields : List (String × Json)) : Json :=
  .object (fields.map fun f => (f.1.toList, f.2))

/-- **A field of an object**, none for other values. -/
def field? (key : String) : Json → Option Json
  | .object fields => Table.get? key.toList fields
  | _ => none

end Json
end DocFerry
