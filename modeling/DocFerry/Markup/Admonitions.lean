import DocFerry.Text.Blank
import DocFerry.Text.Case
import DocFerry.Text.Lines
import DocFerry.Markup.Tabs
/-!
# Admonitions

An admonition is a fenced block of lines: an opening line `:::kind`, at least one line, and the
first closing line `:::` after that.  It becomes a callout component named for its kind.  A fence
that is never closed stays as it is.

Main fact: lines without a fence stay as they are (`convertLines_of_no_opening`).
-/
namespace DocFerry.Markup

open Text

/-- **Callout components by kind of admonition**, in lower case. -/
def calloutTags : List (Text × Text) :=
  [("info", "Info"), ("note", "Note"), ("tip", "Tip"), ("warning", "Warning"),
    ("caution", "Warning"), ("danger", "Warning")].map fun t => (t.1.toList, t.2.toList)

/-- **The callout component of a kind**: a note for kinds that are not known. -/
def admonitionTag (kind : Text) : Text :=
  (calloutTags.lookup (lower kind)).getD "Note".toList

/-- **A fence line**: what follows its three colons. -/
def fence? (line : Text) : Option Text := after? ":::".toList (line.dropWhile isSpaceOrTab)

/-- **An opening line**: the kind it names, possibly none. -/
def opening? (line : Text) : Option Text := (fence? line).map (·.takeWhile Char.isAlpha)

/-- **A closing line**: a fence and nothing else. -/
def isClosing (line : Text) : Bool := (fence? line).any (·.all isSpaceOrTab)

/-- **The lines before the first closing line and those after it.** -/
def cutAtClosing? : List Text → Option (List Text × List Text)
  | [] => none
  | line :: rest =>
    if isClosing line then some ([], rest)
    else (cutAtClosing? rest).map fun cut => (line :: cut.1, cut.2)

/-- **The inside of an admonition**, given the lines after its opening: at least one line is inside,
even one that looks like a closing line. -/
def inside? : List Text → Option (List Text × List Text)
  | [] => none
  | line :: rest => (cutAtClosing? rest).map fun cut => (line :: cut.1, cut.2)

/-- **A callout component** around a body. -/
def callout (tag body : Text) : Text :=
  paragraph ('<' :: tag ++ ['>']) ++ trim body ++ paragraph ("</".toList ++ tag ++ ['>'])

/-- `convertLines` with `skip` lines of an admonition still to pass. -/
def convertLinesFrom : (skip : Nat) → List Text → List Text
  | _, [] => []
  | skip + 1, _ :: rest => convertLinesFrom skip rest
  | 0, line :: rest =>
    match opening? line, inside? rest with
    | some kind, some (body, after) =>
      callout (admonitionTag kind) (unlines body) ::
        convertLinesFrom (rest.length - after.length) rest
    | _, _ => line :: convertLinesFrom 0 rest

/-- **Every admonition among lines as one callout.** -/
def convertLines (ls : List Text) : List Text := convertLinesFrom 0 ls

/-- **Every admonition as a callout component.** -/
def convertAdmonitions (s : Text) : Text := unlines (convertLines (lines s))

/-- **Lines without a fence stay as they are.** -/
theorem convertLines_of_no_opening {ls : List Text} (h : ∀ line ∈ ls, opening? line = none) :
    convertLines ls = ls := by
  unfold convertLines
  induction ls with
  | nil => rfl
  | cons line rest ih =>
    rw [convertLinesFrom, h line (by simp)]
    simpa using ih fun l hl => h l (by simp [hl])

end DocFerry.Markup
