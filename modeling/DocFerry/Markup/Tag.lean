import DocFerry.Text.Basic
import DocFerry.Text.Word
/-!
# Tags

The pieces of component tags that the conversions look for: the opening of a tag with a given name, the
end of a tag, and an attribute that stands on its own.
-/
namespace DocFerry.Markup

open Text

/-- **The opening of a tag**: `<` and the name, where the name goes no further.  What follows the
name, which is never nothing. -/
def tagStart? (name s : Text) : Option Text :=
  match after? ('<' :: name) s with
  | some (c :: rest) => if isWordChar c then none else some (c :: rest)
  | _ => none

/-- **The end of a tag**: what stands before the first `>`, and what follows it. -/
def tagEnd? (s : Text) : Option (Text × Text) := cutAt? ['>'] s

/-- **A whole opening tag**: what stands between its name and its `>`, and what follows. -/
def openTag? (name s : Text) : Option (Text × Text) :=
  (tagStart? name s).bind tagEnd?

/-- **The matcher of an opening tag**, written anew from what stands after its name. -/
def openTag (name : Text) (written : Text → Text) : Matcher := fun s =>
  (openTag? name s).map fun tag => (written tag.1, tag.2)

def isQuote (c : Char) : Bool := c == '"' || c == '\''

/-- **One quotation mark** at the start: what follows it. -/
def quote? : Text → Option Text
  | c :: rest => if isQuote c then some rest else none
  | [] => none

/-- **A run of one or more characters up to a quotation mark**, the mark itself and what follows. -/
def quotedRun? (s : Text) : Option (Text × Char × Text) :=
  match s.takeWhile (!isQuote ·), s.dropWhile (!isQuote ·) with
  | _ :: _, mark :: rest => some (s.takeWhile (!isQuote ·), mark, rest)
  | _, _ => none

/-- **Characters an attribute name goes on with.** -/
def isAttributeChar (c : Char) : Bool := isWordChar c || c == '-'

/-- **The first place inside a tag where an attribute may start and is recognised**: what stands
before it, and what the recogniser makes of it.  `previous` is the character before the text. -/
def seekAttribute {α : Type} (recognise : Text → Option α) : (previous : Char) → Text → Option (Text × α)
  | _, [] => none
  | previous, c :: rest =>
    match if isAttributeChar previous then none else recognise (c :: rest) with
    | some found => some ([], found)
    | none =>
      if c == '>' then none
      else (seekAttribute recognise c rest).map fun found => (c :: found.1, found.2)

theorem quote?_eq_some {s rest : Text} (h : quote? s = some rest) :
    ∃ mark, s = mark :: rest ∧ isQuote mark = true := by
  cases s with
  | nil => cases h
  | cons c s =>
    rw [quote?] at h
    split at h
    · rename_i hquote
      cases h
      exact ⟨c, rfl, hquote⟩
    · cases h

theorem tagEnd?_eq_some {s attributes rest : Text} (h : tagEnd? s = some (attributes, rest)) :
    s = attributes ++ '>' :: rest := by
  simpa using cutAt?_eq_some h

end DocFerry.Markup
