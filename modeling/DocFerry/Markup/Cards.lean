import DocFerry.Text.Blank
import DocFerry.Markup.Tag
/-!
# Cards

Lists of cards become groups of two columns, and a card's destination `to` becomes its link `href`.
-/
namespace DocFerry.Markup

open Text

/-- **A card's destination**, and what follows it up to the end of the tag: the quoted value, the
rest of the tag, and what follows the tag. -/
structure Destination where
  /-- The value with its quotation marks. -/
  value : Text
  /-- What stands between the value and the end of the tag. -/
  attributes : Text
  rest : Text

def destination? (s : Text) : Option Destination := do
  let quotedValue ← after? "to=".toList s
  let mark ← quotedValue.head?
  let (value, closing, afterValue) ← (quote? quotedValue).bind quotedRun?
  let (attributes, rest) ← tagEnd? afterValue
  some ⟨mark :: value ++ [closing], attributes, rest⟩

/-- **A card with a destination**, written with a link. -/
def linkedCard : Matcher := fun s => do
  let inner ← tagStart? "Card".toList s
  let (before, d) ← seekAttribute destination? 'd' inner
  some ("<Card".toList ++ trimEnd before ++ " href=".toList ++ d.value ++ d.attributes ++ ['>'],
    d.rest)

/-- **Card lists as groups, and destinations as links.** -/
def convertCards (s : Text) : Text :=
  let s := substitute (openTag "CardList".toList fun _ => "<CardGroup cols=\x7b2\x7d>".toList) s
  let s := replaceAll "</CardList>".toList "</CardGroup>".toList s
  substitute linkedCard s

end DocFerry.Markup
