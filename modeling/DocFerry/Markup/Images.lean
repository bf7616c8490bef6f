import DocFerry.Text.Blank
import DocFerry.Markup.Tag
/-!
# Image references

Static assets end up in one folder, so a reference into any of the old asset folders leads to the
same absolute path afterwards.  Four shapes are recognised: a Markdown image, a raw tag with a quoted
source, and a raw tag whose source is required, with or without its default export.
-/
namespace DocFerry.Markup

open Text

/-- **Where every image is found after the move.** -/
def imageRoot : Text := "/images/".toList

/-- **The old asset folders**, with their closing slash. -/
def assetFolders : List Text := ["img/", "images/", "assets/"].map String.toList

def dropOptional (start s : Text) : Text := (after? start s).getD s

/-- **Leading steps to the same or the parent folder dropped.** -/
def dropSteps : Text → Text
  | '.' :: '/' :: rest => dropSteps rest
  | '.' :: '.' :: '/' :: rest => dropSteps rest
  | s => s

/-- **A slash, or any number of steps**, dropped. -/
def dropBase : Text → Text
  | '/' :: rest => rest
  | s => dropSteps s

/-- **The way into an old asset folder**: the path inside that folder, and all that follows. -/
def assetPath? (s : Text) : Option Text :=
  let s := dropOptional "static/".toList (dropOptional "@site/".toList (dropBase (trimStart s)))
  assetFolders.findSome? (after? · s)

/-- **A Markdown image with a text and a path below the image root.** -/
def markdownImage (alt target : Text) : Text :=
  "![".toList ++ alt ++ "](".toList ++ imageRoot ++ target ++ [')']

/-- **A path without its trailing blanks**, but never nothing. -/
def trimTarget : Text → Text
  | [] => []
  | c :: rest => c :: trimEnd rest

/-- **A Markdown image of an old asset**: its text, its path, and what follows. -/
def markdownReference? (s : Text) : Option (Text × Text × Text) := do
  let (alt, afterAlt) ← (after? "![".toList s).bind (cutAt? [']'])
  let path ← (after? ['('] afterAlt).bind assetPath?
  let (target, rest) ← cutAt? [')'] path
  if target.isEmpty then none else some (alt, trimTarget target, rest)

/-- **What stands around a quoted source** in a tag. -/
structure SourceShape where
  opener : Text
  closer : Text

/-- **The shapes of a source in a raw tag**, in the order in which they are looked for. -/
def sourceShapes : List SourceShape :=
  [⟨[], []⟩, ⟨"\x7brequire(".toList, ")\x7d".toList⟩,
    ⟨"\x7brequire(".toList, ").default\x7d".toList⟩]

/-- **A source attribute of one shape**: the path of its asset, and what follows the tag. -/
def SourceShape.source? (shape : SourceShape) (s : Text) : Option (Text × Text) := do
  let value ← (after? ("src=".toList ++ shape.opener) s).bind quote?
  let (target, _, afterQuote) ← (assetPath? value).bind quotedRun?
  let (_, rest) ← (after? shape.closer afterQuote).bind tagEnd?
  some (target, rest)

/-- **A raw image tag of one shape** as a Markdown image. -/
def SourceShape.tagImage (shape : SourceShape) : Matcher := fun s => do
  let inner ← tagStart? "img".toList s
  let (_, target, rest) ← seekAttribute shape.source? 'g' inner
  some (markdownImage "Image".toList target, rest)

/-- **Every recognised image reference on the path where the image is after the move.** -/
def canonicalizeImages (s : Text) : Text :=
  let s := substitute (fun t => (markdownReference? t).map fun r => (markdownImage r.1 r.2.1, r.2.2)) s
  sourceShapes.foldl (fun s shape => substitute shape.tagImage s) s

theorem dropSteps_nil : dropSteps [] = [] := rfl

end DocFerry.Markup
