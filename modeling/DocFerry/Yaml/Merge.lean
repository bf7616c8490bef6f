import DocFerry.Yaml.Node
/-!
# Mappings that take over entries

A mapping with a merge mark takes over the entries of another mapping, or of several, in front of its
own.  This is done once for each mapping and changes the nodes, so that a mapping taken over later
has all its entries.  A mapping may take over its own entries; the mark is gone before they are looked
at.

Main fact: a mapping without marks stays as it is (`takeOver_nil`).
-/
namespace DocFerry.Yaml

namespace Graph

def tagAt (g : Graph) (n : Nat) : Tag := (g[n]?.map Node.tag).getD .unknown

def contentAt (g : Graph) (n : Nat) : Content := (g[n]?.map Node.content).getD (.list [])

/-- **The entries of a mapping**, none of them for other nodes. -/
def entriesAt (g : Graph) (n : Nat) : List (Nat × Nat) :=
  match g.contentAt n with
  | .map entries => entries
  | _ => []

/-- **A mapping has taken over entries.** -/
def isMergedAt (g : Graph) (n : Nat) : Bool := g[n]?.any Node.isMerged

/-- **A node declared to be something else.** -/
def setTag (g : Graph) (n : Nat) (tag : Tag) : Graph := g.modify n fun node => { node with tag }

/-- **The entries of a mapping replaced.** -/
def setEntries (g : Graph) (n : Nat) (entries : List (Nat × Nat)) : Graph :=
  g.modify n fun node => { node with content := .map entries }

/-- **Entries taken over by a mapping**, in front of its own. -/
def addMerged (g : Graph) (n : Nat) (merged : List (Nat × Nat)) : Graph :=
  g.modify n fun node => { node with content := .map (merged ++ g.entriesAt n), isMerged := true }

/-- **The text that stands for a scalar**: a mapping stands for its default value. -/
def scalarText? (g : Graph) : (fuel : Nat) → Nat → Option Text
  | 0, _ => none
  | fuel + 1, n =>
    match g.contentAt n with
    | .scalar s => some s
    | .list _ => none
    | .map entries =>
      (entries.find? fun e => g.tagAt e.1 = .scalar .standard).bind fun e => g.scalarText? fuel e.2

end Graph

abbrev Merging := StateT Graph (Except Fault)

/-- **The entries of a mapping to be taken over**, after it has been completed itself. -/
def completeEntries (complete : Nat → Merging Unit) (n : Nat) : Merging (List (Nat × Nat)) := do
  match (← get).contentAt n with
  | .map _ =>
    complete n
    return (← get).entriesAt n
  | _ => throw .malformed

/-- **The entries that a node gives to a mapping**: of several mappings those of the last come
first. -/
def givenEntries (complete : Nat → Merging Unit) (n : Nat) : Merging (List (Nat × Nat)) := do
  match (← get).contentAt n with
  | .list items =>
    let given ← items.mapM (completeEntries complete)
    return given.reverse.flatten
  | _ => completeEntries complete n

/-- **The entries that a mapping takes over**, found from an entry on, of which there may be only one
mark with any.  Its marks are dropped on the way, and marks of a default value become texts. -/
def takeOver (complete : Nat → Merging Unit) (n : Nat) :
    (done merged todo : List (Nat × Nat)) → Merging (List (Nat × Nat))
  | _, merged, [] => return merged
  | done, merged, (key, value) :: todo => do
    let tag := (← get).tagAt key
    if tag = .scalar .merge then
      if !merged.isEmpty then throw .malformed
      let own := done ++ todo
      modify (Graph.setEntries · n own)
      let given ← givenEntries complete value
      if (← get).entriesAt n = own then takeOver complete n done given todo else return given
    else
      if tag = .scalar .standard then modify (Graph.setTag · key (.scalar .text))
      takeOver complete n (done ++ [(key, value)]) merged todo

/-- **A mapping completed** by the entries that it takes over. -/
def complete : (fuel : Nat) → Nat → Merging Unit
  | 0, _ => throw .malformed
  | fuel + 1, n => do
    let merged ← takeOver (complete fuel) n [] [] ((← get).entriesAt n)
    if !merged.isEmpty then modify (Graph.addMerged · n merged)

theorem takeOver_nil (complete : Nat → Merging Unit) (n : Nat) (done merged : List (Nat × Nat)) :
    takeOver complete n done merged [] = pure merged := rfl

end DocFerry.Yaml
