import DocFerry.Text.TitleCase
import DocFerry.Markup.Convert
import DocFerry.Page.Metadata
import DocFerry.Page.Heading
/-!
# Converting a page

A page keeps its body, with its markup converted, under a new metadata block that holds the title
alone.  The title is the one in the old metadata, else the first heading, which then leaves the
body, else `Overview` for an index page and the label of the file name for any other.  An index page
titled like the group that lists it is also called `Overview`.
-/
namespace DocFerry.Page

open Text

/-- **The title of an index page** without one of its own. -/
def overviewTitle : Text := "Overview".toList

/-- **What a page's conversion depends on**, besides its text. -/
structure Context where
  /-- The file name without its last extension. -/
  baseName : Text
  /-- The page is the index or readme of its folder. -/
  isIndex : Bool
  /-- The label of the group that lists the page. -/
  groupLabel : Option Text
  deriving DecidableEq, Repr

/-- **The title before the rule on index pages**, and the body without the block and the heading it
was taken from. -/
def Context.titleSource (ctx : Context) (body : Text) : Text × Text :=
  let (metadata, rest) := splitLenient body
  match (Table.get? "title".toList metadata).filter (!·.isEmpty) with
  | some title => (title, rest)
  | none =>
    match firstHeading rest with
    | some heading => (heading.text, heading.without rest)
    | none => (if ctx.isIndex then overviewTitle else Text.titleCase ctx.baseName, rest)

/-- **A title that would repeat the group's label** on an index page, whatever its case. -/
def Context.repeatsLabel (ctx : Context) (title : Text) : Bool :=
  ctx.isIndex && ctx.groupLabel.any fun label => !label.isEmpty && lower title = lower label

/-- **The title of a page and its body.** -/
def Context.resolveTitle (ctx : Context) (body : Text) : Text × Text :=
  let (title, rest) := ctx.titleSource body
  (if ctx.repeatsLabel title then overviewTitle else title, rest)

/-- **A title inside double quotes**: each double quote gets a backslash. -/
def escapeTitle (title : Text) : Text :=
  title.flatMap fun c => if c == '"' then ['\\', '"'] else [c]

/-- **A metadata block with a title alone.** -/
def titleBlock (title : Text) : Text :=
  "---\ntitle: \"".toList ++ escapeTitle title ++ "\"\n---\n\n".toList

def Context.convert (ctx : Context) (raw : Text) : Text :=
  let (title, body) := ctx.resolveTitle (Markup.convertMarkup raw)
  titleBlock title ++ trimStart body

end DocFerry.Page
