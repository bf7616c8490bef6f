import DocFerry.Nav.Buckets
import DocFerry.Site.Walk
/-!
# The navigation of a site

The entries of the documents' root are walked in order.  The folder of shared partial pages is left
out, the items of the folder of guides are hoisted, every other folder is placed by its name, and
pages in the root stand alone.

Main fact: an entry that is ignored or holds shared partials changes nothing (`addEntry_skipped`).
-/
namespace DocFerry.Site

open Files Nav

/-- **The folder whose items are hoisted**, in lower case. -/
def guidesFolder : Text := "guides".toList

/-- **The folder of shared partial pages**, in lower case. -/
def partialsFolder : Text := "partials".toList

/-- **Entries of the root that are left out.** -/
def isSkipped (s : Sibling) : Bool := s.isIgnored || Text.lower s.name == partialsFolder

/-- **The group of a top-level folder put into its bucket**, unless it is empty. -/
def placeGroup (c : Classifier) (b : Buckets) (name : Text) (g : Nav.Group) : Buckets :=
  if g.isEmpty then b
  else if Text.lower name = guidesFolder then b.hoist g
  else b.put (c.place name) g

/-- **An entry of the root added to the buckets.** -/
def addEntry (convert : Converter) (output : Path) (c : Classifier) (b : Buckets) (s : Sibling) :
    Job Buckets :=
  if isSkipped s then return b
  else if s.isDirectory then do
    let g ← walk convert output s.path s.name
    return placeGroup c b s.name g
  else if s.isPage then do
    let slug ← writePage convert output s.path [] (some gettingStartedLabel)
    return b.addLoose slug
  else return b

/-- **The buckets of a site**, with its pages written. -/
def assemble (convert : Converter) (output : Path) (c : Classifier) (docs : Path) : Job Buckets := do
  let entries ← Job.check fun d => siblings d docs
  entries.foldlM (addEntry convert output c) (.forPlatforms c.platforms)

theorem addEntry_skipped {convert : Converter} {output : Path} {c : Classifier} {b : Buckets}
    {s : Sibling} (h : isSkipped s = true) : addEntry convert output c b s = pure b := by
  simp [addEntry, h]

end DocFerry.Site
