import DocFerry.Command.Basic
/-!
# What a command looks at

The places of a disk that a command reads or writes, so that nothing else need be known of the disk.

Main fact: the output folder is always among them (`output_mem_placesOf`).
-/
namespace DocFerry.Command

open Files Site

/-- **The settings file that a command reads.** -/
def settingsPath : Command → Path
  | .migrate o => o.config.getD settingsFile
  | .classify _ config => config.getD settingsFile

/-- **Where a folder may be**, given or looked for. -/
def candidates (root : Path) (given : Option Path) (name : String) : List Path :=
  match given with
  | some p => [p]
  | none => searchPlaces.map fun place => (root.join place).joinText name.toList

/-- **The files beside a folder of documents that tell about the old site.** -/
def siteFiles (docs : Path) : List Path :=
  docs.parent.join oldStyles :: oldSettings.map docs.parent.child

/-- **The places that a run reads or writes.** -/
def placesOf (s : Settings) : List Path :=
  let docs := candidates s.searchRoot s.docs "docs"
  s.output :: docs ++ candidates s.searchRoot s.static "static" ++ docs.flatMap siteFiles

/-- **The places that a command looks at** beside its settings file, with the settings that are read
from it. -/
def places (settings : Settings) : Command → List Path
  | .migrate o => placesOf (o.apply settings)
  | .classify _ _ => []

/-- **The location of a path by its text**: two dots lead to the location before. -/
def plainLocation (here : Location) (p : Path) : Location :=
  Disk.locationAlong (if p.absolute then [] else here) p.names

theorem output_mem_placesOf (s : Settings) : s.output ∈ placesOf s := by simp [placesOf]

end DocFerry.Command
