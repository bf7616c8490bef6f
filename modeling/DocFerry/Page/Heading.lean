import DocFerry.Text.Blank
import DocFerry.Text.Lines
/-!
# The first heading of a page

A level-one heading is a line of one hash, a space or tab, and at least one more character.  Its
offsets count characters and enclose the line without its newline.

Main fact: taking a heading out removes the characters between its offsets and nothing else
(`without_length`).
-/
namespace DocFerry.Page

open Text

/-- **A heading found in a text.** -/
structure Heading where
  /-- The heading without its hash. -/
  text : Text
  /-- Offset of the heading's line. -/
  start : Nat
  /-- Offset just past the line, before its newline. -/
  stop : Nat
  deriving DecidableEq, Repr

/-- **The heading on a line**: the line without its hash, trimmed. -/
def headingText? : Text → Option Text
  | '#' :: c :: rest => if isSpaceOrTab c && !rest.isEmpty then some (trim (c :: rest)) else none
  | _ => none

/-- **The first heading among lines** of which the first starts at an offset. -/
def firstHeadingFrom : (offset : Nat) → List Text → Option Heading
  | _, [] => none
  | offset, line :: rest =>
    match headingText? line with
    | some text => some ⟨text, offset, offset + line.length⟩
    | none => firstHeadingFrom (offset + line.length + 1) rest

/-- **The first level-one heading of a text.** -/
def firstHeading (s : Text) : Option Heading := firstHeadingFrom 0 (lines s)

/-- **A text without the line of a heading.** -/
def Heading.without (h : Heading) (s : Text) : Text := s.take h.start ++ s.drop h.stop

theorem Heading.without_length (h : Heading) (s : Text) (hs : h.start ≤ h.stop)
    (he : h.stop ≤ s.length) : (h.without s).length + (h.stop - h.start) = s.length := by
  simp only [Heading.without, List.length_append, List.length_take, List.length_drop]
  omega

end DocFerry.Page
