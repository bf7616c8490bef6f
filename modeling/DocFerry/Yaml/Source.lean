import DocFerry.Text.Lines
import DocFerry.Text.Utf8
import DocFerry.Yaml.Fault
/-!
# What can be read of a settings file

A settings file is read piece by piece while its tokens are looked for, so a fault in its form that
stands in front is met before octets further on that are no text.  The first two pieces are read at
once, and a piece with a character that cannot be printed is refused as a whole.

Main facts: a text of printable characters is read to its end (`ofText_of_allowed`), and of a text
with any other character within the first two pieces nothing is read (`ofText_unprintable`).
-/
namespace DocFerry.Yaml

open Text.Utf8 (Octets)

/-- **Characters a settings text may hold.** -/
def isAllowed (c : Char) : Bool :=
  let n := c.toNat
  n == 0x9 || n == 0xa || n == 0xd || (0x20 ≤ n && n ≤ 0x7e) || n == 0x85 || (0xa0 ≤ n && n ≤ 0xd7ff) ||
    (0xe000 ≤ n && n ≤ 0xfffd) || 0x10000 ≤ n

/-- **What can be read of a settings file**, and why it cannot be read further. -/
structure Source where
  /-- The text that can be read. -/
  text : Text
  /-- Why the text goes on unread, none if this is all of it. -/
  stop : Option Fault := none

namespace Source

def pieceSize : Nat := 4096

def blockSize : Nat := 8192

/-- **How far a text is read** of which so many characters can be: in whole pieces, and not at all
without the first two. -/
def reach (n : Nat) : Nat :=
  if n < 2 * pieceSize then 0 else n / pieceSize * pieceSize

/-- **A source read** up to the first piece with a character that cannot be printed. -/
def checked (s : Source) : Source :=
  if s.text.all isAllowed then s
  else ⟨s.text.take (reach (s.text.takeWhile isAllowed).length), some .malformed⟩

def ofText (s : Text) : Source := checked { text := s }

/-- **The characters in front of the first octets that are no text.** -/
def wellFormed (bytes : Octets) : Text :=
  ((Text.Utf8.pieces bytes).takeWhile Option.isSome).filterMap id

/-- **The source of a file's octets.** -/
def ofOctets (bytes : Octets) : Source :=
  match Text.Utf8.decode? bytes with
  | some s => ofText (Text.unifyNewlines s)
  | none =>
    let good := (Text.Utf8.encode (wellFormed bytes)).length
    let s := Text.unifyNewlines (wellFormed (bytes.take (good / blockSize * blockSize)))
    checked ⟨s.take (reach s.length), some .undecodable⟩

theorem ofText_of_allowed {s : Text} (h : s.all isAllowed = true) : ofText s = { text := s } := by
  simp only [ofText, checked, h, if_true]

theorem ofText_unprintable {s : Text} (h : s.all isAllowed = false)
    (hs : s.length < 2 * pieceSize) : ofText s = ⟨[], some .malformed⟩ := by
  have hle := (List.takeWhile_sublist (l := s) isAllowed).length_le
  have hr : reach (s.takeWhile isAllowed).length = 0 := if_pos (by omega)
  simp only [ofText, checked, h, Bool.false_eq_true, if_false, hr, List.take_zero]

end Source
end DocFerry.Yaml
