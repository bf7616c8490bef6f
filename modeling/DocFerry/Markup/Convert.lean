import DocFerry.Markup.Imports
import DocFerry.Markup.Comments
import DocFerry.Markup.Tabs
import DocFerry.Markup.Admonitions
import DocFerry.Markup.Images
import DocFerry.Markup.Cards
import DocFerry.Markup.Brackets
/-!
# The markup of a page

All conversions in their order.  Images come after tabs and callouts have been set on paragraphs of
their own, and brackets are escaped last, when no tag is left to be renamed.
-/
namespace DocFerry.Markup

/-- **The conversions of a page's markup**, in order. -/
def conversions : List (Text → Text) :=
  [stripPlatformImports, convertComments, convertTabs, convertAdmonitions, canonicalizeImages,
    convertCards, escapeBracketedTags]

/-- **The markup of a page after the move.** -/
def convertMarkup (body : Text) : Text := conversions.foldl (fun s convert => convert s) body

end DocFerry.Markup
