import DocFerry.Json.Basic
import DocFerry.Text.Quoted
import DocFerry.Number.Shortest
/-!
# Writing JSON

Values are written in pure ASCII: every other character is an escape of one or two sixteen-bit
units.  In the indented form each item of a non-empty array or object has a line of its own, two
spaces deeper than its container; the compact form has no space at all.
-/
namespace DocFerry.Json

open Text

/-- **One sixteen-bit unit as an escape.** -/
def unitEscape (n : Nat) : Text := '\\' :: 'u' :: hexPadded 4 n

def escapeChar (c : Char) : Text :=
  let n := c.toNat
  if c == '"' then ['\\', '"']
  else if c == '\\' then ['\\', '\\']
  else if c == '\n' then ['\\', 'n']
  else if c == '\r' then ['\\', 'r']
  else if c == '\t' then ['\\', 't']
  else if n == 0x8 then ['\\', 'b']
  else if n == 0xc then ['\\', 'f']
  else if 0x20 ≤ n && n < 0x7f then [c]
  else if n < 0x10000 then unitEscape n
  else unitEscape (0xd800 + (n - 0x10000) / 0x400) ++ unitEscape (0xdc00 + (n - 0x10000) % 0x400)

/-- **A string between its quotation marks.** -/
def printString (s : Text) : Text := '"' :: s.flatMap escapeChar ++ ['"']

def printInt (i : Int) : Text :=
  (if i < 0 then ['-'] else []) ++ Binary64.decimalDigits i.natAbs

/-- **A binary number**, or the name of the value that has no digits. -/
def printNumber (x : Binary64) : Text :=
  if x.isNaN then "NaN".toList
  else if x.isFinite then x.render
  else if x.negative then "-Infinity".toList
  else "Infinity".toList

/-- **A new line at a depth of indentation**; in the compact form nothing. -/
def newLine : Option Nat → Text
  | none => []
  | some depth => '\n' :: List.replicate (2 * depth) ' '

/-- **The colon between a key and its value.** -/
def colon (depth : Option Nat) : Text := if depth.isSome then [':', ' '] else [':']

mutual

/-- **A value at a depth of indentation**, or compact without one. -/
def printAt (depth : Option Nat) : Json → Text
  | .null => "null".toList
  | .bool true => "true".toList
  | .bool false => "false".toList
  | .int i => printInt i
  | .number x => printNumber x
  | .text s => printString s
  | .array [] => "[]".toList
  | .array (item :: items) =>
    let inner := depth.map (· + 1)
    '[' :: newLine inner ++ printAt inner item ++ printItems inner items ++ newLine depth ++ [']']
  | .object [] => ['\x7b', '\x7d']
  | .object ((key, value) :: fields) =>
    let inner := depth.map (· + 1)
    '\x7b' :: newLine inner ++ printString key ++ colon inner ++ printAt inner value ++
      printFields inner fields ++ newLine depth ++ ['\x7d']

/-- The items of an array after the first. -/
def printItems (depth : Option Nat) : List Json → Text
  | [] => []
  | item :: items => ',' :: newLine depth ++ printAt depth item ++ printItems depth items

/-- The fields of an object after the first. -/
def printFields (depth : Option Nat) : List (Text × Json) → Text
  | [] => []
  | (key, value) :: fields =>
    ',' :: newLine depth ++ printString key ++ colon depth ++ printAt depth value ++
      printFields depth fields

end

def indented (j : Json) : Text := printAt (some 0) j

def compact (j : Json) : Text := printAt none j

end DocFerry.Json
