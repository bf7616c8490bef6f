import DocFerry.Command.Basic
/-!
# What commands do

A command reads the settings first.  What it tells stands on the standard output, the log and the
failures it knows how to tell on the standard error, and the exit code is zero exactly if nothing
failed.  Paths below the working directory are told without it.

Main facts: a level of the log that is not known stops a migration before anything is read
(`runMigration_unknownLevel`), and the preview changes nothing (`preview_disk`).
-/
namespace DocFerry.Command

open Files Site

/-- **What a command leaves for its reader.** -/
structure Report where
  exit : Nat
  stdout : Text := []
  stderr : Text := []
  deriving DecidableEq, Repr

def line (s : Text) : Text := s ++ ['\n']

/-- **A path as it is told**: without the working directory if it is below. -/
def shownPath (d : Disk) (p : Path) : Text :=
  if p.absolute then ((p.below? (.rooted d.here)).getD p).text else p.text

/-- **Failures to read the settings that a command tells itself.** -/
def isToldOfSettings : Failure → Bool
  | .section (.unprintable _) => false
  | .settingsMissing _ | .settingsNotMapping | .section _ => true
  | .settings .malformed | .settings (.unfitKey _) => true
  | .disk .missing => true
  | _ => false

/-- **Failures of a run that a command tells itself.** -/
def isToldOfRun : Failure → Bool
  | .docsMissing _ | .docsNotFound | .overlap _ | .whole _ | .disk .nullInPath => true
  | _ => false

/-- **A failure as it is told.** -/
def errorLine (failure : Failure) : Text :=
  line ("error: ".toList ++ failure.message?.getD "the file cannot be read".toList)

/-- **The lines of a log** at some weight or more. -/
def logLines (least : Nat) (log : List Record) : Text :=
  (log.filter fun r => least ≤ r.level.weight).flatMap fun r => line r.line

/-- **The report of a failure** that a command tells itself; any other failure goes on. -/
def failed (isTold : Failure → Bool) (shownLog : Text) (failure : Failure) : Except Failure Report :=
  if isTold failure then .ok { exit := 1, stderr := shownLog ++ errorLine failure } else .error failure

def summary (d : Disk) (o : Outcome) : Text :=
  let output := shownPath d o.output
  line ("detected docs at ".toList ++ shownPath d o.docs) ++
    line ("wrote ".toList ++ shownPath d o.manifest) ++
    line ("Migrated ".toList ++ o.brand.name ++ " (".toList ++ Binary64.decimalDigits o.pages.length ++
      " pages) to ".toList ++ output ++ ['.']) ++
    line ("Next: cd ".toList ++ output ++ " && mint dev".toList)

def runMigration (o : MigrateOptions) (d : Disk) : Except Failure Report × Disk :=
  match threshold o.logLevel with
  | .error failure => (.error failure, d)
  | .ok least =>
    match readSettings d o.config o.config.isSome with
    | .error failure => (failed isToldOfSettings [] failure, d)
    | .ok settings =>
      match (o.apply settings).run { disk := d } with
      | (.error failure, w) => (failed isToldOfRun (logLines least w.log) failure, w.disk)
      | (.ok outcome, w) =>
        (.ok { exit := 0, stdout := summary w.disk outcome, stderr := logLines least w.log }, w.disk)

/-- **The place of a folder in words.** -/
def placeLine (c : Nav.Classifier) (name : Text) : Text :=
  let place := c.place name
  let platform := place.platform.getD []
  line (name ++ ": ".toList ++ place.tab ++
    (if platform.isEmpty then [] else " / ".toList ++ platform))

/-- **A preview of the places of folders.** -/
def preview (names : List Text) (config : Option Path) (d : Disk) : Except Failure Report × Disk :=
  match readSettings d config config.isSome with
  | .error failure => (failed isToldOfSettings [] failure, d)
  | .ok settings => (.ok { exit := 0, stdout := names.flatMap (placeLine settings.classifier) }, d)

def execute : Command → Disk → Except Failure Report × Disk
  | .migrate o => runMigration o
  | .classify names config => preview names config

/-- **What is told about arguments that are not understood.** -/
def usage : Text :=
  line ("usage: migrate [--docs-dir P] [--static-dir P] [--output-dir P] [--config P] ".toList ++
      "[--clean|--no-clean] [--log-level L]".toList) ++
    line "       classify NAME... [--config P]".toList

/-- **The program**: the command of its arguments carried out. -/
def program (environment : Table Text Text) (arguments : List Text) (d : Disk) :
    Except Failure Report × Disk :=
  match ofArguments? environment arguments with
  | some command => command.execute d
  | none => (.ok { exit := 1, stderr := usage }, d)

theorem runMigration_unknownLevel {o : MigrateOptions} {d : Disk} {failure : Failure}
    (h : threshold o.logLevel = .error failure) : runMigration o d = (.error failure, d) := by
  simp [runMigration, h]

theorem preview_disk (names : List Text) (config : Option Path) (d : Disk) :
    (preview names config d).2 = d := by
  unfold preview
  split <;> rfl

end DocFerry.Command
