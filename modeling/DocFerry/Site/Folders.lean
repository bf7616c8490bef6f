import DocFerry.Site.World
/-!
# Where the old site is

The folders of documents and of static assets are given, or looked for at and around a place.  The
output folder is emptied by removing it with everything in it and making it anew.

Main fact: the first place in the order of search that is a folder is taken (`findFolder_some`).
-/
namespace DocFerry.Site

open Files

/-- **Where folders are looked for**, from the place of the search. -/
def searchPlaces : List Path := [".", "input-docusaurus", ".."].map Path.word

/-- **The first folder of a name** at or around a place. -/
def findFolder (d : Disk) (root : Path) (name : Text) : Except Problem (Option Path) :=
  Disk.firstThat d.seekDirectory (searchPlaces.map fun place => (root.join place).joinText name)

def docsFolder (d : Disk) (root : Path) (given : Option Path) : Except Failure Path :=
  match given with
  | some p => do
    if ← (d.seekDirectory p).mapError .disk then return p else throw (.docsMissing p)
  | none => do
    match ← (findFolder d root "docs".toList).mapError .disk with
    | some p => return p
    | none => throw .docsNotFound

/-- **The folder of static assets**, if there is one. -/
def staticFolder (d : Disk) (root : Path) (given : Option Path) : Except Problem (Option Path) :=
  match given with
  | some p => return if ← d.seekDirectory p then some p else none
  | none => findFolder d root "static".toList

def resetOutput (output : Path) : Change Unit := do
  if ← check (·.seekAny output) then removeTree output
  makeDirectories false output

theorem findFolder_some {d : Disk} {root p : Path} {name : Text}
    (h : findFolder d root name = .ok (some p)) : d.seekDirectory p = .ok true :=
  Disk.firstThat_some h

end DocFerry.Site
