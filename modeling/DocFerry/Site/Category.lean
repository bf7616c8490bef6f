import DocFerry.Json.Parse
import DocFerry.Text.TitleCase
import DocFerry.Site.Document
/-!
# Folder metadata

A folder may hold a file that labels it and gives it a position.  A file that is missing, ill formed
or no object says nothing, and each field that is not as it should be is passed over on its own: a
label must be a text that is not blank, and a position a finite number.

Main fact: a folder without such a file has no metadata (`ofBytes_undecodable`).
-/
namespace DocFerry.Site

open Files

/-- **The name of a folder's metadata file.** -/
def categoryFile : Text := "_category_.json".toList

structure Category where
  /-- The label of its group. -/
  label : Option Text := none
  /-- Its rank among its siblings. -/
  position : Option Binary64 := none
  deriving DecidableEq, Repr

namespace Category

/-- **The label that a value gives.** -/
def labelOf : Option Json → Option Text
  | some (.text s) => if (Text.trim s).isEmpty then none else some s
  | _ => none

/-- **The position that a value gives**: a whole number beyond every binary number stops the run. -/
def positionOf : Option Json → Except Failure (Option Binary64)
  | some (.int i) =>
    match Binary64.ofInt? i with
    | some x => .ok (some x)
    | none => .error .hugePosition
  | some (.number x) => .ok (if x.isFinite then some x else none)
  | _ => .ok none

/-- **The metadata that a value gives.** -/
def ofJson : Json → Except Failure Category
  | .object fields => do
    let position ← positionOf (Table.get? "position".toList fields)
    .ok ⟨labelOf (Table.get? "label".toList fields), position⟩
  | _ => .ok {}

/-- **The metadata in a file's octets.** -/
def ofBytes (bytes : Text.Utf8.Octets) : Except Failure Category :=
  match strictText? bytes with
  | none => .ok {}
  | some s =>
    match Json.parse s with
    | .ok j => ofJson j
    | .error .malformed => .ok {}
    | .error (.longInteger digits) => .error (.whole (.longText digits))
    | .error (.tooDeep isObject) => .error (.deepData isObject)

/-- **The metadata of the folder at a path.** -/
def read (d : Disk) (directory : Path) : Except Failure Category :=
  match d.seekFile (directory.child categoryFile) with
  | .ok (some bytes) => ofBytes bytes
  | .ok none => .ok {}
  | .error problem => .error (.disk problem)

/-- **The label of a folder's group**: its own, or the label of its name. -/
def groupLabel (d : Disk) (directory : Path) : Except Failure Text := do
  let c ← read d directory
  .ok (match c.label with
    | some label => label
    | none => Text.titleCase directory.name)

theorem ofBytes_undecodable {bytes : Text.Utf8.Octets} (h : strictText? bytes = none) :
    ofBytes bytes = .ok {} := by
  simp [ofBytes, h]

end Category
end DocFerry.Site
