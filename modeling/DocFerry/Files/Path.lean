import DocFerry.Text.Basic
/-!
# Paths

A path is a list of names, from the root or from the working directory.  Empty names and single dots
vanish when a path is read; two dots stay, because what they lead to depends on the files.  A path
written with exactly two slashes in front is written so again; it leads where one slash leads.

Main facts: going to a child and back to the parent changes nothing (`parent_child`), and the child
has the name that was gone to (`name_child`).
-/
namespace DocFerry

inductive PathStart where
  | here
  | root
  /-- At the root, written with two slashes. -/
  | doubledRoot
  deriving DecidableEq, Repr, Inhabited

/-- **A path**: names from the root, or from the working directory. -/
structure Path where
  start : PathStart := .here
  /-- Its names, none of them empty or a single dot. -/
  names : List Text := []
  deriving DecidableEq, Repr, Inhabited

namespace Path

/-- **The name that leads to the parent.** -/
def up : Text := ['.', '.']

def isName (s : Text) : Bool := !s.isEmpty && s != ['.']

/-- **The path starts at the root.** -/
def absolute (p : Path) : Bool := p.start != .here

/-- **The path of names from the root on.** -/
def rooted (names : List Text) : Path := ⟨.root, names⟩

/-- **The start written in a text.** -/
def startOf : Text → PathStart
  | '/' :: '/' :: '/' :: _ => .root
  | '/' :: '/' :: _ => .doubledRoot
  | '/' :: _ => .root
  | _ => .here

/-- **The path written in a text.** -/
def ofText (s : Text) : Path := ⟨startOf s, (Text.splitWhere (· == '/') s).filter isName⟩

/-- **A path from a word of this library.** -/
def word (s : String) : Path := ofText s.toList

/-- **The text of a path**: a single dot for the working directory itself. -/
def text (p : Path) : Text :=
  match p.start with
  | .here => if p.names.isEmpty then ['.'] else Text.join ['/'] p.names
  | .root => '/' :: Text.join ['/'] p.names
  | .doubledRoot => '/' :: '/' :: Text.join ['/'] p.names

/-- **A path continued by another**, which replaces it if it starts at the root. -/
def join (p q : Path) : Path := if q.absolute then q else { p with names := p.names ++ q.names }

/-- **A path continued by a text.** -/
def joinText (p : Path) (s : Text) : Path := p.join (ofText s)

/-- **The path of an entry** of the directory at a path. -/
def child (p : Path) (name : Text) : Path := { p with names := p.names ++ [name] }

/-- **The path without its last name**; a path without names is its own parent. -/
def parent (p : Path) : Path := { p with names := p.names.dropLast }

/-- **The last name**, empty if there is none. -/
def name (p : Path) : Text := p.names.getLast?.getD []

/-- **The rest of a path below another.** -/
def below? (p base : Path) : Option Path :=
  if p.start = base.start ∧ base.names.isPrefixOf p.names then
    some ⟨.here, p.names.drop base.names.length⟩
  else none

/-- **A name without its last extension**; a name without a dot is kept. -/
def baseName (name : Text) : Text :=
  match (name.reverse.dropWhile (· != '.')) with
  | _ :: rest => rest.reverse
  | [] => name

theorem parent_child (p : Path) (name : Text) : (p.child name).parent = p := by
  simp [parent, child]

theorem name_child (p : Path) (name : Text) : (p.child name).name = name := by
  simp [Path.name, child]

end Path
end DocFerry
