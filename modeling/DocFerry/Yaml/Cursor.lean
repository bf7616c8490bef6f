import DocFerry.Text.Basic
/-!
# A place in a settings text

A cursor is the rest of a text with its place: how many characters have been passed, how many lines,
and the column.  The end of the text reads as the null character, which no settings text holds.

Main fact: going on by one character passes one character (`index_next`).
-/
namespace DocFerry.Yaml

structure Cursor where
  /-- What is still to be read. -/
  rest : Text
  index : Nat := 0
  line : Nat := 0
  /-- Characters passed on this line, byte-order marks apart. -/
  column : Nat := 0

/-- **The end of a text**, as a character. -/
def endMark : Char := Char.ofNat 0

/-- **Characters that end a line in a settings text.** -/
def isBreak (c : Char) : Bool :=
  c == '\n' || c.toNat == 0x85 || c.toNat == 0x2028 || c.toNat == 0x2029

/-- **Any line break or the end of the text.** -/
def isBreakOrEnd (c : Char) : Bool := isBreak c || c == endMark

/-- **Any line break or the end of the text, a space, or a tab.** -/
def isEndOrBlank (c : Char) : Bool := isBreakOrEnd c || c == ' ' || c == '\t'

/-- **A space, or any line break or the end of the text.** -/
def isSpaceBreakOrEnd (c : Char) : Bool := isBreakOrEnd c || c == ' '

namespace Cursor

def peek (c : Cursor) : Char := c.rest.headD endMark

def peekAt (c : Cursor) (n : Nat) : Char := (c.rest.drop n).headD endMark

/-- **The place after the next character**: of all line breaks only the line feed starts a new line
of the count. -/
def next (c : Cursor) : Cursor :=
  match c.rest with
  | [] => c
  | ch :: rest =>
    if ch = '\n' then ⟨rest, c.index + 1, c.line + 1, 0⟩
    else ⟨rest, c.index + 1, c.line, if ch.toNat = 0xfeff then c.column else c.column + 1⟩

/-- **The place some characters further on.** -/
def skip (c : Cursor) : (n : Nat) → Cursor
  | 0 => c
  | n + 1 => c.next.skip n

/-- **The run of characters of a class**, and the place after it. -/
def run (c : Cursor) (p : Char → Bool) : Text × Cursor :=
  let found := c.rest.takeWhile p
  (found, c.skip found.length)

/-- **The place after a run of characters of a class.** -/
def skipWhile (c : Cursor) (p : Char → Bool) : Cursor := (c.run p).2

def skipSpaces (c : Cursor) : Cursor := c.skipWhile (· == ' ')

/-- **A line break**, as it is written in a value, and the place after it. -/
def lineBreak? (c : Cursor) : Option (Char × Cursor) :=
  if c.peek == '\n' || c.peek.toNat == 0x85 then some ('\n', c.next)
  else if isBreak c.peek then some (c.peek, c.next)
  else none

/-- **The place after a line break**, if there is one. -/
def skipBreak (c : Cursor) : Cursor := (c.lineBreak?.map (·.2)).getD c

/-- **The place at the end of a comment**, if one starts here. -/
def skipComment (c : Cursor) : Cursor := if c.peek == '#' then c.skipWhile (!isBreakOrEnd ·) else c

/-- **Three marks of a kind** that stand alone. -/
def isMarker (c : Cursor) (mark : Char) : Bool :=
  c.rest.take 3 == [mark, mark, mark] && isEndOrBlank (c.peekAt 3)

def isSeparator (c : Cursor) : Bool := c.isMarker '-' || c.isMarker '.'

theorem index_next {c : Cursor} (h : c.rest ≠ []) : c.next.index = c.index + 1 := by
  unfold next
  split
  · contradiction
  · split <;> rfl

end Cursor
end DocFerry.Yaml
