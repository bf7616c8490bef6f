import DocFerry.Files.Change
import DocFerry.Page.Convert
import DocFerry.Site.Failure
/-!
# The world of a run

A run works on a disk, tells what it does in a log, and keeps the pages it has written.  All three
are kept also when the run stops.

Main fact: a change of the disk leaves the log and the pages alone (`onDisk_rest`).
-/
namespace DocFerry.Site

open Files

/-- **How much a record of the log matters.** -/
inductive Level where
  /-- For the search of faults. -/
  | debug
  | info
  /-- Something is not as it should be. -/
  | warning
  deriving DecidableEq, Repr

def Level.weight : Level → Nat
  | .debug => 10
  | .info => 20
  | .warning => 30

def Level.name : Level → Text
  | .debug => "DEBUG".toList
  | .info => "INFO".toList
  | .warning => "WARNING".toList

structure Record where
  level : Level
  /-- The part of the program that tells it. -/
  teller : Text
  message : Text
  deriving DecidableEq, Repr

def Record.line (r : Record) : Text := r.level.name ++ ' ' :: r.teller ++ ": ".toList ++ r.message

/-- **The weights that names of levels stand for.** -/
def levelWeights : List (Text × Nat) :=
  [("CRITICAL", 50), ("FATAL", 50), ("ERROR", 40), ("WARN", 30), ("WARNING", 30), ("INFO", 20),
    ("DEBUG", 10), ("NOTSET", 0)].map fun l => (l.1.toList, l.2)

/-- **The least weight that is shown** at a level given by name in either case. -/
def threshold (name : Text) : Except Failure Nat :=
  match levelWeights.lookup (Text.upper name) with
  | some weight => .ok weight
  | none => .error (.unknownLevel (Text.upper name))

/-- **A page to be converted**: its text and what else the conversion depends on. -/
structure Request where
  /-- The text of the page. -/
  raw : Text
  /-- What else the conversion depends on. -/
  context : Page.Context
  deriving DecidableEq, Repr

abbrev Converter := Request → Text

def Converter.standard : Converter := fun r => r.context.convert r.raw

/-- **A page written**: where, and from what. -/
structure Emission where
  /-- The path of the new page. -/
  target : Path
  /-- What it was converted from. -/
  request : Request
  deriving DecidableEq, Repr

structure World where
  disk : Disk
  /-- The log, oldest record first. -/
  log : List Record := []
  /-- The pages written, oldest first. -/
  written : List Emission := []

/-- **A job**: a result or a failure, either way with the world it leaves. -/
abbrev Job (α : Type) := Action World Failure α

namespace Job

/-- **A change of the disk as a job.** -/
def onDisk {α : Type} (c : Change α) : Job α := fun w =>
  match c w.disk with
  | (.ok a, d) => (.ok a, { w with disk := d })
  | (.error problem, d) => (.error (.disk problem), { w with disk := d })

/-- **What looking at the disk yields.** -/
def look {α : Type} (f : Disk → α) : Job α := fun w => (.ok (f w.disk), w)

/-- **What looking at the disk yields**, or its failure. -/
def check {α : Type} (f : Disk → Except Failure α) : Job α := fun w => (f w.disk, w)

/-- **A record added to the log.** -/
def tell (level : Level) (teller : String) (message : Text) : Job Unit :=
  modify fun w => { w with log := w.log ++ [⟨level, teller.toList, message⟩] }

/-- **A page added to those written.** -/
def emit (e : Emission) : Job Unit := modify fun w => { w with written := w.written ++ [e] }

theorem onDisk_rest {α : Type} (c : Change α) (w : World) :
    (onDisk c w).2.log = w.log ∧ (onDisk c w).2.written = w.written := by
  simp only [onDisk]
  split <;> exact ⟨rfl, rfl⟩

end Job
end DocFerry.Site
