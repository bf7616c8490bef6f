import DocFerry.Nav.Group
import DocFerry.Nav.Slug
import DocFerry.Site.Siblings
/-!
# Walking the documents

A folder of the old site becomes a group: its pages are converted and written at the same place of
the new site, its subfolders become nested groups, and both stand in the order of the folder.  A
folder without any page leaves no group in its parent.  When a page is written where another one has
been, its slug is not listed again, and the log warns of it.

Main fact: a page is an index page exactly if its name without extension is one of two in lower case
(`isIndexName_iff`).
-/
namespace DocFerry.Site

open Files Nav

/-- **Names of index pages** without their extension, in lower case. -/
def indexNames : List Text := ["index", "readme"].map String.toList

/-- **The name of an index page**, in any case. -/
def isIndexName (baseName : Text) : Bool := Text.lower baseName ∈ indexNames

/-- **The extension of every new page.** -/
def newExtension : Text := ".mdx".toList

/-- **The path of a new page** below the root of the new site. -/
def targetPath (output : Path) (relative baseName : Text) : Path :=
  (output.joinText relative).joinText (baseName ++ newExtension)

/-- **A page converted and written**; its slug.  `label` is the label of the group that lists it. -/
def writePage (convert : Converter) (output source : Path) (relative : Text) (label : Option Text) :
    Job Text := do
  let baseName := Path.baseName source.name
  let raw ← Job.check fun d => (readDocument d source).mapError .disk
  let request : Request := ⟨raw, baseName, isIndexName baseName, label⟩
  let target := targetPath output relative baseName
  Job.onDisk (makeDirectories true target.parent)
  Job.onDisk (write target (Text.Utf8.encode (convert request)))
  Job.emit ⟨target, request⟩
  Job.tell .debug "mint_migrate.walker" ("wrote ".toList ++ target.text)
  return slug relative baseName

/-- **A warning about a page written where another one has been.** -/
def overwriteWarning (source : Path) (slug : Text) : Text :=
  source.text ++ " overwrote an earlier document with slug ".toList ++ slug

/-- **An entry of a folder added to its group**: a subfolder is walked by `below`, and a page is written. -/
def addSibling (convert : Converter) (output : Path) (below : Path → Text → Job Nav.Group) (relative label : Text)
    (g : Nav.Group) (s : Sibling) : Job Nav.Group :=
  if s.isDirectory then do
    let child ← below s.path (joinPaths relative s.name)
    return (g.addGroup child).2
  else if s.isPage then do
    let slug ← writePage convert output s.path relative (some label)
    let (added, g) := g.addPage slug
    if !added then
      Job.tell .warning "mint_migrate.walker" (overwriteWarning s.path slug)
    return g
  else return g

/-- A folder walked, to a bounded depth. -/
def walkWithin (convert : Converter) (output : Path) : (depth : Nat) → Path → Text → Job Nav.Group
  | 0, _, _ => throw (.disk .tooDeep)
  | depth + 1, directory, relative => do
    let label ← Job.check fun d => Category.groupLabel d directory
    let entries ← Job.check fun d => siblings d directory
    (entries.filter fun s => !s.isIgnored).foldlM
      (addSibling convert output (walkWithin convert output depth) relative label)
      { label := label }

/-- **The group of a folder** and everything below it, with its pages written.  `relative` is the
folder's place below the root of the documents. -/
def walk (convert : Converter) (output directory : Path) (relative : Text) : Job Nav.Group := do
  walkWithin convert output (← Job.look Disk.depthBound) directory relative

theorem isIndexName_iff (baseName : Text) :
    isIndexName baseName = true ↔
      Text.lower baseName = "index".toList ∨ Text.lower baseName = "readme".toList := by
  simp [isIndexName, indexNames]

end DocFerry.Site
