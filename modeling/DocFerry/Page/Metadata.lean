import DocFerry.Table
import DocFerry.Text.Blank
import DocFerry.Text.Lines
import DocFerry.Markup.Tag
/-!
# Page metadata

A page may open with a block of `key: value` lines between two delimiter lines of three hyphens.
The block is read leniently: a line without a colon or without a key says nothing, a key given twice
keeps its first place and its last value, and one quotation mark at each end of a value is dropped.

Main fact: a text that does not open with a delimiter has no metadata (`split_of_no_opening`).
-/
namespace DocFerry.Page

open Text

/-- **Metadata**: keys with their values, in order of first mention. -/
abbrev Metadata := Table Text Text

/-- **A value without one quotation mark at each end.** -/
def stripQuotes (value : Text) : Text :=
  let value := (Markup.quote? value).getD value
  if value.getLast?.any Markup.isQuote then value.dropLast else value

/-- **The entry on a line of a block.** -/
def entryOn? (line : Text) : Option (Text × Text) :=
  (cutAt? [':'] line).bind fun (key, value) =>
    if (trim key).isEmpty then none else some (trim key, stripQuotes (trim value))

def parseBlock (block : Text) : Metadata := Table.ofEntries ((allLines block).filterMap entryOn?)

/-- **A delimiter line**: three hyphens, then nothing but spaces and tabs. -/
def isDelimiter (line : Text) : Bool := (after? "---".toList line).any (·.all isSpaceOrTab)

/-- **Lines up to the first delimiter line, and the lines after it.** -/
def cutAtDelimiter? : List Text → Option (List Text × List Text)
  | [] => none
  | line :: rest =>
    if isDelimiter line then some ([], rest)
    else (cutAtDelimiter? rest).map fun cut => (line :: cut.1, cut.2)

/-- **The lines of the block and the lines of the body**, given the lines after the opening
delimiter.  The block takes its first line even if that looks like a delimiter, as long as another
delimiter follows; otherwise a delimiter right after the opening ends an empty block. -/
def cutBlock? : List Text → Option (List Text × List Text)
  | [] => none
  | line :: rest =>
    match cutAtDelimiter? rest with
    | some cut => some (line :: cut.1, cut.2)
    | none => if isDelimiter line then some ([], rest) else none

/-- **The metadata block of a page and what follows it**, if the page opens with one. -/
def block? (s : Text) : Option (Text × Text) :=
  match lines s with
  | opening :: rest =>
    if isDelimiter opening then (cutBlock? rest).map fun cut => (unlines cut.1, unlines cut.2)
    else none
  | [] => none

/-- **The metadata of a page and its body.** -/
def split (s : Text) : Metadata × Text :=
  match block? s with
  | some (block, body) => (parseBlock block, body)
  | none => ([], s)

/-- **The metadata of a page and its body**, where blanks may stand before the block. -/
def splitLenient (s : Text) : Metadata × Text :=
  match block? (trimStart s) with
  | some (block, body) => (parseBlock block, body)
  | none => ([], s)

/-- **A text that does not open with a delimiter has no metadata.** -/
theorem split_of_no_opening {s : Text} (h : (lines s).head?.all (!isDelimiter ·) = true) :
    split s = ([], s) := by
  unfold split block?
  cases hl : lines s with
  | nil => rfl
  | cons opening rest =>
    rw [hl] at h
    simp only [List.head?_cons, Option.all_some, Bool.not_eq_true'] at h
    simp [h]

end DocFerry.Page
