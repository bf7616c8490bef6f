import DocFerry.Markup.Tag
/-!
# Bracketed names

Text in angle brackets whose name runs into a square bracket or a backslash is no tag; its angle
brackets are escaped so that they are shown.
-/
namespace DocFerry.Markup

open Text

def isNameChar (c : Char) : Bool := c.isAlphanum || c == '_'

/-- **Angle brackets around a name that runs into a bracket or backslash**: the text between them,
and what follows. -/
def bracketed? (s : Text) : Option (Text × Text) := do
  let inner ← after? ['<'] s
  match inner.dropWhile isNameChar with
  | c :: _ => if c == '[' || c == '\\' then tagEnd? inner else none
  | [] => none

/-- **Every such pair of angle brackets escaped.** -/
def escapeBracketedTags (s : Text) : Text :=
  substitute
    (fun t => (bracketed? t).map fun b => ("&lt;".toList ++ b.1 ++ "&gt;".toList, b.2)) s

end DocFerry.Markup
