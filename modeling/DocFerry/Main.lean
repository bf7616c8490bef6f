import DocFerry.Command.Execute
import DocFerry.Command.Reach
/-!
# The program

Files are read into a disk, a command is carried out on it, and what it has changed is written back.
A link counts as what it leads to.
-/
namespace DocFerry

open Files Command

/-- **The variables of the environment that stand for arguments.** -/
def argumentVariables : List String :=
  ["INPUT_DOCS_DIR", "INPUT_STATIC_DIR", "INPUT_OUTPUT_DIR", "INPUT_CONFIG", "INPUT_CLEAN",
    "INPUT_NO_CLEAN", "INPUT_LOG_LEVEL", "INPUT_NAMES"]

/-- **The deepest tree that is read.** -/
def treeDepth : Nat := 64

def locationText (l : Location) : String := String.ofList (Path.rooted l).text

def environmentArguments : IO (Table Text Text) :=
  argumentVariables.filterMapM fun name => do
    return (← IO.getEnv name).map fun value => (name.toList, value.toList)

/-- **The folders above a location**, outermost first. -/
def foldersAbove (l : Location) : List Location := (List.range l.length).map l.take

/-- A tree read into a disk, to a bounded depth. -/
def readTree : (depth : Nat) → Disk → Location → IO Disk
  | 0, d, _ => return d
  | depth + 1, d, l => do
    let place := (← IO.currentDir) / locationText l
    if ← place.isDir then
      let entries ← place.readDir
      entries.foldlM (fun d e => readTree depth d (l ++ [e.fileName.toList])) (d.put l .directory)
    else if ← place.pathExists then
      return d.put l (.file (← IO.FS.readBinFile place).toList)
    else return d

/-- **The tree at a place read into a disk**, with the folders above it. -/
def readPlace (d : Disk) (p : Path) : IO Disk := do
  let l := plainLocation d.here p
  let above ← (foldersAbove l).filterM fun l => do ((← IO.currentDir) / locationText l).isDir
  readTree treeDepth (above.foldl (fun d l => d.put l .directory) d) l

/-- **What a command has changed written back.** -/
def writeBack (old new : Disk) : IO Unit := do
  for (l, e) in old.entries.reverse do
    if (new.locate? l).isNone then
      match e with
      | .directory => IO.FS.removeDir (locationText l)
      | _ => IO.FS.removeFile (locationText l)
  for (l, e) in new.entries do
    if old.locate? l ≠ some e then
      match e with
      | .directory => IO.FS.createDirAll (locationText l)
      | .file bytes => IO.FS.writeBinFile (locationText l) ⟨bytes.toArray⟩
      | .link _ => pure ()

/-- **A command carried out** on the files that it looks at; the exit code. -/
def carryOut (command : Command) : IO UInt32 := do
  let here := (Path.ofText (toString (← IO.currentDir)).toList).names
  let d ← readPlace { here } command.settingsPath
  let settings := (Site.readSettings d (some command.settingsPath) false).toOption.getD {}
  let d ← (command.places settings).foldlM readPlace d
  let (result, changed) := command.execute d
  writeBack d changed
  match result with
  | .ok report =>
    IO.print (String.ofList report.stdout)
    IO.eprint (String.ofList report.stderr)
    return UInt32.ofNat report.exit
  | .error failure =>
    IO.eprint (String.ofList (errorLine failure))
    return 1

end DocFerry

def main (arguments : List String) : IO UInt32 := do
  let environment ← DocFerry.environmentArguments
  match DocFerry.Command.ofArguments? environment (arguments.map String.toList) with
  | some command => DocFerry.carryOut command
  | none =>
    IO.eprint (String.ofList DocFerry.Command.usage)
    return 1
