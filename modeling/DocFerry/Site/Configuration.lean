import DocFerry.Site.Document
import DocFerry.Site.Migration
import DocFerry.Yaml.Content
/-!
# The settings file

A run may be configured by a file.  Relative paths in it start from the folder that the file is in,
which is also where folders that are not given are looked for.  A file that holds nothing, or a value
that counts as nothing, leaves every setting at its default.

Main fact: a settings file that is not there changes nothing unless it is asked for
(`readSettings_absent`).
-/
namespace DocFerry.Site

open Files Config

/-- **The settings file** of a run that is given none. -/
def settingsFile : Path := Path.word "mint-migrate.yaml"

/-- **A value that counts as nothing.** -/
def isNothing : Value → Bool
  | .null => true
  | .bool b => !b
  | .int i => i == 0
  | .number x => x.magnitude == 0
  | .text s => s.isEmpty
  | .octets bytes => bytes.isEmpty
  | .list items | .tuple items | .set items => items.isEmpty
  | .map entries | .ordered entries => entries.isEmpty
  | .loop _ v => isNothing v
  | .day _ | .moment _ | .back _ => false

/-- **The entries of a settings file.** -/
def topEntries (v : Value) : Except Failure Entries :=
  if isNothing v then .ok []
  else
    match v.entries? with
    | some entries => .ok entries
    | none => .error .settingsNotMapping

/-- **The entries of a section of the settings file.** -/
def sectionEntries (name : String) (entries : Entries) : Except Fault Entries :=
  mapping name.toList (Value.field? name entries)

/-- **A path in the settings file**, which starts from a folder if it is relative. -/
def anchoredPath (base : Path) (name : String) (entries : Entries) : Except Fault (Option Path) := do
  let s ← optionalText name entries
  .ok (s.map base.joinText)

/-- **Whether the output folder is emptied first.** -/
def readClean (defaults : Entries) : Except Fault Bool :=
  match Value.field? "clean" defaults with
  | none => .ok true
  | some (.bool b) => .ok b
  | some _ => .error (.notTruth "defaults.clean".toList)

/-- **The settings in the entries of a file** that is in a folder. -/
def settingsOf (base : Path) (entries : Entries) : Except Fault Settings := do
  let defaults ← sectionEntries "defaults" entries
  let clean ← readClean defaults
  let output ← anchoredPath base "output_dir" defaults
  let docs ← anchoredPath base "docs_dir" defaults
  let static ← anchoredPath base "static_dir" defaults
  let brand ← readBrand (← sectionEntries "branding" entries)
  let navbar ← readNavbar (← sectionEntries "navbar" entries)
  let footer ← readFooter (← sectionEntries "footer" entries)
  let classifier ← readClassifier (← sectionEntries "classification" entries)
  return {
    output := output.getD (base.join defaultOutput)
    docs, static, searchRoot := base, clean, brand, navbar, footer, classifier }

/-- **The settings in a file's octets.** -/
def settingsOfBytes (base : Path) (bytes : Text.Utf8.Octets) : Except Failure Settings :=
  match Yaml.load (.ofOctets bytes) with
  | .error fault => .error (.settings fault)
  | .ok v => do
    let entries ← topEntries v
    (settingsOf base entries).mapError .section

/-- **The folder that a file is in**, from the root on. -/
def folderOf (d : Disk) (file : Path) : Path := (Path.rooted (d.settle file)).parent

/-- **The settings of a run**, from a file if it is there. -/
def readSettings (d : Disk) (given : Option Path) (required : Bool) : Except Failure Settings :=
  let file := given.getD settingsFile
  match d.seekAny file with
  | .error problem => .error (.disk problem)
  | .ok false => if required then .error (.settingsMissing file) else .ok {}
  | .ok true =>
    match d.read file with
    | .ok bytes => settingsOfBytes (folderOf d file) bytes
    | .error problem => .error (.disk problem)

theorem readSettings_absent {d : Disk} {given : Option Path}
    (h : d.seekAny (given.getD settingsFile) = .ok false) : readSettings d given false = .ok {} := by
  simp [readSettings, h]

end DocFerry.Site
