import DocFerry.Action
import DocFerry.Files.Lookup
/-!
# Changing a disk

Directories and files are made, trees are removed, and files and trees are copied.  A change that
takes several steps may fail after some of them; the disk then stays as those steps have left it.

Main facts: making one directory or writing one file changes one location, and only if it succeeds
(`makeDirectory_eq`, `write_eq`).
-/
namespace DocFerry.Files

open Text.Utf8 (Octets)

/-- **A change of the disk** with a result, or a problem; either way with the disk it leaves. -/
abbrev Change (α : Type) := Action Disk Problem α

/-- **The result of looking at the disk.** -/
def look {α : Type} (f : Disk → α) : Change α := fun d => (.ok (f d), d)

/-- **What looking at the disk yields**, or its problem. -/
def check {α : Type} (f : Disk → Except Problem α) : Change α := fun d => (f d, d)

/-- **A step that succeeds with a new disk**, or leaves the disk as it is. -/
def step (f : Disk → Except Problem Disk) : Change Unit := fun d =>
  match f d with
  | .ok d' => (.ok (), d')
  | .error problem => (.error problem, d)

namespace Disk

/-- **One new directory**, whose parent must be there. -/
def withDirectory (d : Disk) (p : Path) : Except Problem Disk :=
  match refusal? p, p.names.getLast? with
  | some problem, _ => .error problem
  | none, none => .error .present
  | none, some name =>
    if name = Path.up then
      match d.find p with
      | .ok _ => .error .present
      | .error problem => .error problem
    else
      match d.find p.parent with
      | .ok ⟨l, some .directory⟩ =>
        if (d.locate? (l ++ [name])).isSome then .error .present
        else if exceeds longestName name then .error .nameTooLong
        else .ok (d.put (l ++ [name]) .directory)
      | .ok ⟨_, some _⟩ => .error .notDirectory
      | .ok ⟨_, none⟩ => .error .missing
      | .error problem => .error problem

/-- **A file with new content**; its directory must be there. -/
def withFile (d : Disk) (p : Path) (bytes : Octets) : Except Problem Disk :=
  match d.find p with
  | .ok ⟨_, some .directory⟩ => .error .isDirectory
  | .ok ⟨l, _⟩ => .ok (d.put l (.file bytes))
  | .error problem => .error problem

end Disk

def makeDirectory (p : Path) : Change Unit := step (·.withDirectory p)

def write (p : Path) (bytes : Octets) : Change Unit := step (·.withFile p bytes)

/-- **A directory that is there afterwards**, made if its parent is there. -/
def ensureDirectory (p : Path) : Change Unit := do
  try makeDirectory p
  catch problem =>
    if problem = .missing ∨ !(← check (·.seekDirectory p)) then throw problem

/-- A directory made together with missing parents, up to a number of them. -/
def makeParentsWithin : (parents : Nat) → (reuse : Bool) → Path → Change Unit
  | parents, reuse, p => do
    try makeDirectory p
    catch problem =>
      if problem = .missing then
        match parents with
        | 0 => throw problem
        | parents + 1 =>
          makeParentsWithin parents true p.parent
          if reuse then ensureDirectory p else makeDirectory p
      else if !reuse || !(← check (·.seekDirectory p)) then throw problem

/-- **A directory made together with its missing parents**; with `reuse`, a directory that is already
there is as good. -/
def makeDirectories (reuse : Bool) (p : Path) : Change Unit :=
  makeParentsWithin p.names.length reuse p

/-- **A directory's name removed** once everything in it is gone: a path that ends by leading up, or
has no name, cannot be removed itself. -/
def Disk.withoutEmptied (d : Disk) (p : Path) (l : Location) : Except Problem Disk :=
  match p.names.getLast? with
  | none => .error .invalid
  | some name =>
    if name = Path.up then
      match d.find p.parent with
      | .ok ⟨_, some .directory⟩ => .error .notEmpty
      | .ok ⟨_, some _⟩ => .error .notDirectory
      | .ok ⟨_, none⟩ => .error .missing
      | .error problem => .error problem
    else .ok (d.removeBelow l)

/-- **The directory found at a path removed** with everything in it. -/
def removeFound (p : Path) : Change Unit := do
  let place ← check (·.find p)
  match place.entry with
  | some .directory =>
    modify (·.removeInside place.location)
    step (·.withoutEmptied p place.location)
  | some _ => throw .notDirectory
  | none => throw .missing

/-- **A directory removed with everything in it**, if the path itself is no link. -/
def removeTree (p : Path) : Change Unit := do
  match (← get).entryAt? p with
  | some (.link _) => throw .linkedTree
  | _ => removeFound p

/-- **A file copied** to a path, or into the directory at that path. -/
def copyFile (source target : Path) : Change Unit := do
  let d ← get
  let target := if d.isDirectory target then target.child source.name else target
  match d.find source, d.find target with
  | .ok ⟨l, some _⟩, .ok ⟨m, some _⟩ => if l = m then throw (.sameFile source target)
  | _, _ => pure ()
  write target (← check (·.read source))

/-- **A step tried**: whether it failed. -/
def fails (c : Change Unit) : Change Bool := do
  try c; return false
  catch _ => return true

/-- A tree copied into a directory, to a bounded depth. -/
def copyTreeWithin : (depth : Nat) → (source target : Path) → Change Unit
  | 0, _, _ => throw .tooDeep
  | depth + 1, source, target => do
    let names ← check (·.list source)
    ensureDirectory target
    let failed ← names.mapM fun name => fails do
      if ← look (·.isDirectory (source.child name)) then
        copyTreeWithin depth (source.child name) (target.child name)
      else copyFile (source.child name) (target.child name)
    if failed.any id then throw .incomplete

/-- **The most times that a path passes one directory**: once, unless links lead around. -/
def Disk.passes (d : Disk) : Nat :=
  if d.entries.any fun e => e.2 matches .link _ then Disk.maxLinks + 1 else 1

/-- **A depth that no path on a disk exceeds**: a path passes each directory so many times. -/
def Disk.depthBound (d : Disk) : Nat := d.passes * (d.entries.length + 2)

/-- **A tree copied into a directory**, over what is there.  Every entry is tried; if some fail, the
whole fails after all the others have been copied. -/
def copyTree (source target : Path) : Change Unit := do
  copyTreeWithin (← get).depthBound source target

theorem makeDirectory_eq (p : Path) (d : Disk) :
    makeDirectory p d = match d.withDirectory p with
      | .ok d' => (.ok (), d')
      | .error problem => (.error problem, d) := rfl

theorem write_eq (p : Path) (bytes : Octets) (d : Disk) :
    write p bytes d = match d.withFile p bytes with
      | .ok d' => (.ok (), d')
      | .error problem => (.error problem, d) := rfl

end DocFerry.Files
