import DocFerry.Site.Assemble
import DocFerry.Site.Brand
import DocFerry.Site.Folders
/-!
# A migration

A run finds the documents and assets, empties the output folder, copies the assets, takes over the
brand, converts the documents and writes the manifest last.  It is refused, before anything is
changed, if there are no documents or if the output folder would hold them.

Main fact: a run without documents changes nothing (`run_of_no_docs`).
-/
namespace DocFerry.Site

open Files Nav

/-- **The output folder of a run** that is given none. -/
def defaultOutput : Path := Path.word "mintlify-output"

structure Settings where
  output : Path := defaultOutput
  /-- The folder of documents, if given. -/
  docs : Option Path := none
  /-- The folder of static assets, if given. -/
  static : Option Path := none
  /-- Where folders that are not given are looked for. -/
  searchRoot : Path := {}
  /-- The output folder is emptied first. -/
  clean : Bool := true
  brand : Config.BrandSettings := {}
  navbar : Config.Navbar := {}
  footer : Config.Footer := {}
  classifier : Classifier := .standard

structure Outcome where
  docs : Path
  output : Path
  manifest : Path
  /-- Every page written, in order of first writing. -/
  pages : List Path
  /-- The brand of the new site. -/
  brand : Brand
  /-- The tabs of the new site. -/
  tabs : List Tab

/-- **The name of the manifest file.** -/
def manifestFile : Text := "docs.json".toList

/-- **The manifest written** into the output folder, and its path. -/
def writeManifest (output : Path) (manifest : Json) : Job Path := do
  let path := output.child manifestFile
  Job.onDisk (write path (Text.Utf8.encode (manifestText manifest)))
  return path

/-- **Whether the output folder would hold the documents**: it is at or above them. -/
def overlaps (d : Disk) (docs output : Path) : Except Problem Bool := do
  let inner ← d.resolve docs
  let outer ← d.resolve output
  return outer.isPrefixOf inner

/-- **The first mentions of paths**, in order. -/
def firstMentions : (seen : List Path) → List Path → List Path
  | _, [] => []
  | seen, p :: rest =>
    if p ∈ seen then firstMentions seen rest else p :: firstMentions (p :: seen) rest

/-- **The folders a run works with**: documents, and assets if there are any. -/
def Settings.folders (s : Settings) (d : Disk) : Except Failure (Path × Option Path) := do
  let docs ← docsFolder d s.searchRoot s.docs
  let static ← (staticFolder d s.searchRoot s.static).mapError .disk
  return (docs, static)

def Settings.prepareOutput (s : Settings) : Job Unit :=
  Job.onDisk (if s.clean then resetOutput s.output else makeDirectories true s.output)

def Settings.run (s : Settings) : Job Outcome := do
  let (docs, static) ← Job.check s.folders
  Job.tell .info "mint_migrate.migrator" ("converting docs from ".toList ++ docs.text)
  if ← Job.onDisk (check (overlaps · docs s.output)) then throw (.overlap s.output)
  s.prepareOutput
  let images ← copyAssets static s.output
  let detected ← Job.onDisk (check (detectBrand · docs.parent static (some images)))
  let brand := detected.withSettings s.brand
  modify fun w => { w with written := [] }
  let buckets ← assemble .standard s.output s.classifier docs
  let manifestPath ← writeManifest s.output (manifest buckets.tabs brand s.brand s.navbar s.footer)
  let written := (← get).written
  return { docs, output := s.output, manifest := manifestPath,
           pages := firstMentions [] (written.map Emission.target), brand, tabs := buckets.tabs }

theorem run_of_no_docs {s : Settings} {w : World} {failure : Failure}
    (h : s.folders w.disk = .error failure) : s.run w = (.error failure, w) := by
  unfold Settings.run
  rw [Action.bind_apply]
  simp [Job.check, h]

end DocFerry.Site
