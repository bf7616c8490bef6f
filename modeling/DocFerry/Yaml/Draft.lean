import DocFerry.Config.SetOrder
import DocFerry.Yaml.Atom
import DocFerry.Yaml.Merge
/-!
# Collections as they are built

A collection is made empty at once, and its content is read later, in the order in which collections
have been made; so a collection may hold itself.  A key is read with all its content at once: inside
it, a collection whose content is still being read stands for no value, and a list stands for its
items at that time.

Main facts: a collection that has just been begun is known (`isBegun_begin`), and one that is begun
stays so (`isBegun_put`).
-/
namespace DocFerry.Yaml

open Config

inductive Part where
  /-- A value that is no collection. -/
  | value (v : Value)
  /-- The collection made for the node of a number. -/
  | collection (number : Nat)
  /-- A pair, with a number of its own. -/
  | pair (number : Nat) (first second : Part)
  deriving Inhabited

inductive Collection where
  | list (items : List Part)
  | map (entries : List (Value × Part))
  | set (keys : List Value)
  /-- A mapping declared as ordered. -/
  | ordered (entries : List (Value × Part))
  deriving Inhabited

/-- **The name of a kind of collection.** -/
def Collection.name : Collection → String
  | .list _ => "list"
  | .map _ => "dict"
  | .set _ => "set"
  | .ordered _ => "ordereddict"

/-- **The collection without content** that a tag declares. -/
def Tag.empty? : Tag → Option Collection
  | .list | .pairs => some (.list [])
  | .map => some (.map [])
  | .set => some (.set [])
  | .ordered => some (.ordered [])
  | .scalar _ | .octets | .unknown => none

/-- **How far the collections of a document have been built.** -/
structure Draft where
  document : Document
  /-- Its nodes, as they have been changed by taking over entries. -/
  nodes : Graph
  /-- The collections by the numbers of their nodes. -/
  collections : Array (Option Collection)
  /-- The collections whose content is being read at once. -/
  opened : List Nat := []
  /-- The collections whose content is still to be read, in order. -/
  waiting : List Nat := []
  /-- A number that stands for no collection or pair yet. -/
  fresh : Nat

namespace Draft

def ofDocument (d : Document) : Draft where
  document := d
  nodes := d.nodes
  collections := Array.replicate d.nodes.size none
  fresh := d.nodes.size

def collection? (d : Draft) (n : Nat) : Option Collection := d.collections[n]?.join

def isBegun (d : Draft) (n : Nat) : Bool := (d.collection? n).isSome

/-- **A collection as it is now.** -/
def put (d : Draft) (n : Nat) (c : Collection) : Draft :=
  { d with collections := d.collections.setIfInBounds n (some c) }

/-- **The collection of a node as a key is told.** -/
def nameAt (d : Draft) (n : Nat) : String := ((d.collection? n).map Collection.name).getD "list"

theorem isBegun_put_self {d : Draft} {n : Nat} (h : n < d.collections.size) (c : Collection) :
    (d.put n c).isBegun n = true := by
  simp [isBegun, collection?, put, h]

theorem isBegun_put {d : Draft} {n m : Nat} (c : Collection) (h : d.isBegun m = true) :
    (d.put n c).isBegun m = true := by
  unfold isBegun collection? put at *
  by_cases hn : n = m
  · subst hn
    by_cases hs : n < d.collections.size <;> simp_all
  · simpa [Array.getElem?_setIfInBounds, hn] using h

end Draft

abbrev Build := StateT Draft (Except Fault)

namespace Build

/-- **The text has not the form of a settings text.** -/
def malformed {α : Type} : Build α := throw .malformed

def put (n : Nat) (c : Collection) : Build Unit := modify (·.put n c)

def pair (first second : Part) : Build Part := do
  let n := (← get).fresh
  modify fun d => { d with fresh := n + 1 }
  return .pair n first second

/-- **A mapping node completed** by the entries that it takes over. -/
def complete (n : Nat) : Build Unit := do
  let d ← get
  let (_, nodes) ← (Yaml.complete d.document.bound n).run d.nodes
  set { d with nodes }

/-! ## Scalars -/

/-- **The text that stands for a scalar**, which must be there. -/
def scalarText (n : Nat) : Build Text := do
  let d ← get
  formed (d.nodes.scalarText? d.document.bound n)

def scalar (n : Nat) : Build Value := do
  let d ← get
  match d.nodes.tagAt n, d.nodes.contentAt n with
  | .scalar .timestamp, .scalar s => readTimestamp s
  | .scalar .timestamp, _ => malformed
  | .scalar kind, _ => readKind d.document.version (← scalarText n) kind
  | .octets, _ => return .octets (← readOctets (← scalarText n))
  | _, _ => malformed

/-! ## Keys -/

/-- **A part as a key**, or the name of the collection in it that keeps it from being one. -/
def keyOf (d : Draft) : Part → Except String Value
  | .value v => .ok v
  | .collection n => .error (d.nameAt n)
  | .pair _ first second => do
    let first ← keyOf d first
    let second ← keyOf d second
    .ok (.tuple [first, second])

/-- **A part as a key of a mapping**: a list stands for its items, and no other collection may be a
key. -/
def mapKey (p : Part) : Build (Except String Value) := do
  let d ← get
  match p with
  | .collection n =>
    match d.collection? n with
    | some (.list items) => return (items.mapM (keyOf d)).map .tuple
    | _ => malformed
  | p => return keyOf d p

/-- **A key**, or the fault of being none. -/
def checked (key : Except String Value) : Build Value :=
  match key with
  | .ok key => return key
  | .error name => throw (.unfitKey name)

/-- **A part that cannot be printed.** -/
def isLong : Part → Bool
  | .value v => v.isLong
  | .collection _ => false
  | .pair _ first second => isLong first || isLong second

/-- **The fault of a key given again**, which tells about the key and both values. -/
def repeated (key : Value) (parts : List Part) : Fault :=
  if key.isLong || parts.any isLong then .whole .longNumber else .malformed

/-! ## Collections -/

/-- **The entries of a mapping read one after another**, after those already read.  A key may be given
again only by a mapping that has taken over entries. -/
def entries (readKey readPart : Nat → Build Part) (repeats : Bool) :
    (before : List (Value × Part)) → List (Nat × Nat) → Build (List (Value × Part))
  | before, [] => return before
  | before, (k, v) :: rest => do
    let key ← mapKey (← readKey k)
    let value ← readPart v
    let key ← checked key
    match if repeats then none else Table.get? key before with
    | some old => throw (repeated key [value, old])
    | none => entries readKey readPart repeats (Table.set key value before) rest

/-- **The only entry of a mapping.** -/
def single (n : Nat) : Build (Nat × Nat) := do
  match (← get).nodes.contentAt n with
  | .map [entry] => return entry
  | _ => malformed

/-- **The entries of an ordered mapping read one after another**, after those already read. -/
def orderedEntries (readPart : Nat → Build Part) :
    (before : List (Value × Part)) → List Nat → Build (List (Value × Part))
  | before, [] => return before
  | before, n :: rest => do
    let (k, v) ← single n
    let key ← readPart k
    let key ← checked (keyOf (← get) key)
    if (Table.get? key before).isSome then throw .repeatedKey
    let value ← readPart v
    orderedEntries readPart (before ++ [(key, value)]) rest

/-- **A pair read** from a mapping with one entry. -/
def readPair (readPart : Nat → Build Part) (n : Nat) : Build Part := do
  let (k, v) ← single n
  let first ← readPart k
  let second ← readPart v
  pair first second

mutual

/-- **The part that a node stands for.**  `atOnce` says that the content of a collection is read at
once. -/
def part : (fuel : Nat) → (atOnce : Bool) → Nat → Build Part
  | 0, _, _ => malformed
  | fuel + 1, atOnce, n => do
    let d ← get
    match (d.nodes.tagAt n).empty? with
    | none => return .value (← scalar n)
    | some empty =>
      if d.opened.contains n then return .value .null
      if d.isBegun n then return .collection n
      put n empty
      if atOnce then
        modify fun d => { d with opened := n :: d.opened }
        content fuel true n
        modify fun d => { d with opened := d.opened.drop 1 }
      else modify fun d => { d with waiting := d.waiting ++ [n] }
      return .collection n

/-- **The content of a collection read.** -/
def content : (fuel : Nat) → (atOnce : Bool) → Nat → Build Unit
  | 0, _, _ => malformed
  | fuel + 1, atOnce, n => do
    let entriesOf : Build (List (Value × Part)) := do
      complete n
      let nodes := (← get).nodes
      entries (part fuel true) (part fuel atOnce) (nodes.isMergedAt n) [] (nodes.entriesAt n)
    let nodes := (← get).nodes
    match nodes.tagAt n, nodes.contentAt n with
    | .list, .list items => put n (.list (← items.mapM (part fuel atOnce)))
    | .map, .map _ => put n (.map (← entriesOf))
    | .set, .map _ => put n (.set (inSetOrder ((← entriesOf).map (·.1))))
    | .ordered, .list items => put n (.ordered (← orderedEntries (part fuel atOnce) [] items))
    | .pairs, .list items => put n (.list (← items.mapM (readPair (part fuel atOnce))))
    | _, _ => malformed

end

/-- **Collections that wait given their content**, the first one first. -/
def finish (bound : Nat) : (fuel : Nat) → Build Unit
  | 0 => malformed
  | fuel + 1 => do
    let d ← get
    match d.waiting with
    | [] => return ()
    | n :: waiting =>
      set { d with waiting }
      content bound false n
      finish bound fuel

end Build
end DocFerry.Yaml
