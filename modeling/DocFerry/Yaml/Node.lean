import DocFerry.Yaml.Lexing
import DocFerry.Yaml.Tag
/-!
# Nodes of a settings text

A settings text holds at most one document, and a document is a graph of nodes: scalars, lists and
mappings, each with the tag that is written in front of it or seen from its content.  A node that has
been given a name may be used again by its name, and a list or mapping even inside itself, so nodes
refer to each other by number.

Main facts: a text without marks has no document (`Document.ofTokens_textEnd`), and a node that is added keeps
the nodes before it (`Composer.getElem?_add`).
-/
namespace DocFerry.Yaml

inductive Content where
  | scalar (s : Text)
  /-- The numbers of the items of a list. -/
  | list (items : List Nat)
  /-- The numbers of the keys and values of a mapping. -/
  | map (entries : List (Nat × Nat))
  deriving Inhabited

structure Node where
  /-- What it is declared to be. -/
  tag : Tag
  content : Content
  /-- It is a mapping that has taken over entries of others. -/
  isMerged : Bool := false
  deriving Inhabited

/-- **The nodes of a document** by number. -/
abbrev Graph := Array Node

/-- **How far the tokens of a document have been read.** -/
structure Composer where
  tokens : List Token
  /-- The version the text has named. -/
  version : Version
  /-- The beginnings that handles of tags stand for. -/
  handles : Table Text Text
  nodes : Graph := #[]
  /-- The numbers of the nodes that have a name. -/
  names : Table Text Nat := []

abbrev Compose := StateT Composer (Except Fault)

namespace Compose

/-- **The text has not the form of a settings text.** -/
def malformed {α : Type} : Compose α := throw .malformed

/-- **The next token**; the text may be broken off here. -/
def peek : Compose Token := do
  match (← get).tokens.headD .textEnd with
  | .broken fault => throw fault
  | t => return t

def advance : Compose Unit := modify fun c => { c with tokens := c.tokens.drop 1 }

/-- **The next token passed if it is this one**: whether it was. -/
def accept (t : Token) : Compose Bool := do
  if (← peek) = t then
    advance
    return true
  else return false

/-- **The next token passed**, which must be this one. -/
def expect (t : Token) : Compose Unit := do
  if !(← accept t) then malformed

/-- **The next token is one of these.** -/
def isNext (ts : List Token) : Compose Bool := return ts.contains (← peek)

/-- **A value may stand without its key**, which is then empty. -/
def allowsBareValue : Compose Bool := do
  let v := (← get).version
  return 1 < v.1 || (v.1 == 1 && 1 < v.2)

end Compose

open Compose

/-! ## Nodes and their names -/

/-- **The nodes with one more**, under its name if it has one. -/
def Composer.add (c : Composer) (name : Option Text) (node : Node) : Composer :=
  { c with
    nodes := c.nodes.push node
    names := (name.map fun name => Table.set name c.nodes.size c.names).getD c.names }

theorem Composer.getElem?_add (c : Composer) (name : Option Text) (node : Node) {n : Nat}
    (h : n < c.nodes.size) : (c.add name node).nodes[n]? = c.nodes[n]? := by
  simp [Composer.add, Array.getElem?_push, Nat.ne_of_lt h]

def addNode (name : Option Text) (node : Node) : Compose Nat := do
  let n := (← get).nodes.size
  modify (·.add name node)
  return n

/-- **A node whose content is read after it has been named.** -/
def addHolder (name : Option Text) (tag : Tag) (read : Compose Content) : Compose Nat := do
  let n ← addNode name { tag, content := .list [] }
  let content ← read
  modify fun c => { c with nodes := c.nodes.modify n fun node => { node with content } }
  return n

/-- **A scalar whose kind is seen from its text.** -/
def addPlain (name : Option Text) (s : Text) : Compose Nat := do
  let version := (← get).version
  addNode name { tag := .scalar (kindOf version s), content := .scalar s }

def emptyNode : Compose Nat := addPlain none []

/-- **The node of an earlier name.** -/
def namedNode (name : Text) : Compose Nat := do
  match Table.get? name (← get).names with
  | some n => return n
  | none => malformed

/-! ## Properties -/

/-- **Escapes in a tag's text** as the characters of their numbers. -/
def unescapeTag : Text → Except Fault Text
  | [] => .ok []
  | c :: rest =>
    if c = '%' then do
      let n ← (Whole.read 16 (rest.take 2)).mapError .whole
      if n < 0 then .error .codePoint
      else
        match rest with
        | _ :: _ :: rest => (unescapeTag rest).map (Char.ofNat n.toNat :: ·)
        | _ => .ok [Char.ofNat n.toNat]
    else (unescapeTag rest).map (c :: ·)

/-- **A whole tag**, its handle replaced by the beginning that it stands for. -/
def wholeTag (handle : Option Text) (suffix : Text) : Compose Text := do
  let start ←
    match handle with
    | none => pure []
    | some handle =>
      match Table.get? handle (← get).handles with
      | some start => pure start
      | none => malformed
  return start ++ (← unescapeTag suffix)

/-- **The name of a node**, if one comes. -/
def anchor? : Compose (Option Text) := do
  match ← peek with
  | .anchor name =>
    advance
    return some name
  | _ => return none

/-- **The tag of a node** as it is written, if one comes. -/
def writtenTag? : Compose (Option (Option Text × Text)) := do
  match ← peek with
  | .tag handle suffix =>
    advance
    return some (handle, suffix)
  | _ => return none

/-- **The name and the tag of a node**, in either order. -/
def properties : Compose (Option Text × Option Text) := do
  let before ← anchor?
  let written ← writtenTag?
  let name ← if before.isSome || written.isNone then pure before else anchor?
  let tag ← written.mapM fun t => wholeTag t.1 t.2
  return (name, tag)

/-- **A scalar node** after its properties. -/
def addScalar (name tag : Option Text) (s : Text) (isPlain : Bool) : Compose Nat :=
  match tag with
  | none =>
    if isPlain then addPlain name s else addNode name { tag := .scalar .text, content := .scalar s }
  | some tag =>
    if tag = Tag.openText then addPlain name s
    else addNode name { tag := .ofText tag, content := .scalar s }

/-- **The tag of a list or mapping**, the standard one if none is written. -/
def holderTag (standard : Tag) (tag : Option Text) : Tag :=
  match tag with
  | none => standard
  | some tag => if tag = Tag.openText then standard else .ofText tag

/-- **Where a node may stand**, which decides the collections by indentation that it may be. -/
inductive Position where
  /-- In brackets or braces: none. -/
  | flow
  | block
  /-- By indentation as a key or value of a mapping: also a list at the indentation of the mapping. -/
  | blockEntry
  deriving DecidableEq

mutual

def node : (fuel : Nat) → Position → Compose Nat
  | 0, _ => malformed
  | fuel + 1, position => do
    if let .alias name ← peek then
      advance
      namedNode name
    else
      let (name, tag) ← properties
      let list := fun items : Compose (List Nat) =>
        addHolder name (holderTag .list tag) (return .list (← items))
      let map := fun entries : Compose (List (Nat × Nat)) =>
        addHolder name (holderTag .map tag) (return .map (← entries))
      match ← peek with
      | .scalar s isPlain =>
        advance
        addScalar name tag s isPlain
      | .flowListStart =>
        advance
        list (flowItems fuel true)
      | .flowMapStart =>
        advance
        map (flowEntries fuel true)
      | next =>
        if next = .blockEntry ∧ position = .blockEntry then list (looseItems fuel)
        else if next = .blockListStart ∧ position ≠ .flow then
          advance
          list (blockItems fuel)
        else if next = .blockMapStart ∧ position ≠ .flow then
          advance
          map (blockEntries fuel)
        else if name.isSome || tag.isSome then addScalar name tag [] true
        else malformed

/-- **A node, empty if one of some tokens comes.** -/
def nodeUnless : (fuel : Nat) → Position → List Token → Compose Nat
  | 0, _, _ => malformed
  | fuel + 1, position, ends => do
    if ← isNext ends then emptyNode else node fuel position

/-- **The items of a list by indentation**, and its end. -/
def blockItems : (fuel : Nat) → Compose (List Nat)
  | 0 => malformed
  | fuel + 1 => do
    if ← accept .blockEntry then
      let item ← nodeUnless fuel .block [.blockEntry, .blockEnd]
      return item :: (← blockItems fuel)
    else
      expect .blockEnd
      return []

/-- **The items of a list at the indentation of the mapping around it.** -/
def looseItems : (fuel : Nat) → Compose (List Nat)
  | 0 => malformed
  | fuel + 1 => do
    if ← accept .blockEntry then
      let item ← nodeUnless fuel .block [.blockEntry, .key, .value, .blockEnd]
      return item :: (← looseItems fuel)
    else return []

/-- **The entries of a mapping by indentation**, and its end. -/
def blockEntries : (fuel : Nat) → Compose (List (Nat × Nat))
  | 0 => malformed
  | fuel + 1 => do
    let ends := [.key, .value, .blockEnd]
    let key? : Option Nat ←
      if ← accept .key then
        pure (some (← nodeUnless fuel .blockEntry ends))
      else if (← allowsBareValue) && (← isNext [.value]) then
        pure (some (← emptyNode))
      else pure none
    match key? with
    | some key =>
      let value ← if ← accept .value then nodeUnless fuel .blockEntry ends else emptyNode
      return (key, value) :: (← blockEntries fuel)
    | none =>
      expect .blockEnd
      return []

/-- **The items of a list in brackets**, and its end; an item may be an entry without braces. -/
def flowItems : (fuel : Nat) → (first : Bool) → Compose (List Nat)
  | 0, _ => malformed
  | fuel + 1, first => do
    if ← accept .flowListEnd then return []
    else
      if !first then expect .flowEntry
      if ← accept .flowListEnd then return []
      else
        let item ←
          if ← accept .key then
            addHolder none .map do
              let key ← nodeUnless fuel .flow [.value, .flowEntry, .flowListEnd]
              let value ←
                if ← accept .value then nodeUnless fuel .flow [.flowEntry, .flowListEnd]
                else emptyNode
              return .map [(key, value)]
          else node fuel .flow
        return item :: (← flowItems fuel false)

/-- **The entries of a mapping in braces**, and its end; a node alone is a key without value. -/
def flowEntries : (fuel : Nat) → (first : Bool) → Compose (List (Nat × Nat))
  | 0, _ => malformed
  | fuel + 1, first => do
    if ← accept .flowMapEnd then return []
    else
      if !first then expect .flowEntry
      if ← accept .flowMapEnd then return []
      else
        let value : Compose Nat := do
          if ← accept .value then nodeUnless fuel .flow [.flowEntry, .flowMapEnd] else emptyNode
        let entry ←
          if ← accept .key then
            let key ← nodeUnless fuel .flow [.value, .flowEntry, .flowMapEnd]
            pure (key, ← value)
          else if (← allowsBareValue) && (← isNext [.value]) then
            let key ← emptyNode
            pure (key, ← value)
          else
            let key ← node fuel .flow
            pure (key, ← emptyNode)
        return entry :: (← flowEntries fuel false)

end

/-! ## Documents -/

structure Document where
  /-- The version it is written in. -/
  version : Version
  nodes : Graph
  /-- The number of the node that holds all others. -/
  root : Nat
  /-- More than the entries of all its mappings, and than the items of all its lists. -/
  bound : Nat

def standardHandles : Table Text Text := [(['!'], ['!']), (['!', '!'], Tag.standardStart)]

/-- **The tokens after the ends of documents.** -/
def dropEnds (ts : List Token) : List Token := ts.dropWhile (· = .documentEnd)

def isDirective : Token → Bool
  | .versionDirective _ | .tagDirective _ _ | .otherDirective => true
  | _ => false

def checkVersion : Option Version → Except Fault Unit
  | some (major, minor) =>
    if minor = oldVersion.2 ∨ minor = standardVersion.2 then .ok () else .error (.version major minor)
  | none => .ok ()

/-- **Directives read**: the version and the handles that they declare, each at most once. -/
def readDirectives : (version : Option Version) → (handles : Table Text Text) → List Token →
    Except Fault (Option Version × Table Text Text × List Token)
  | version, handles, .versionDirective v :: rest =>
    if version.isSome || v.1 ≠ 1 then .error .malformed else readDirectives (some v) handles rest
  | version, handles, .tagDirective handle start :: rest =>
    if (Table.get? handle handles).isSome then .error .malformed
    else readDirectives version (handles ++ [(handle, start)]) rest
  | version, handles, .otherDirective :: rest => readDirectives version handles rest
  | _, _, .broken fault :: _ => .error fault
  | version, handles, rest => (checkVersion version).map fun _ => (version, handles, rest)

/-- **Nothing may stand after the only document** but ends of documents: the older version takes any
number of them, the newer one the first. -/
def expectNothing (version : Version) (ts : List Token) : Except Fault Unit :=
  let rest :=
    if version = oldVersion then dropEnds ts
    else if ts.head? = some .documentEnd then ts.drop 1
    else ts
  match rest with
  | .textEnd :: _ => .ok ()
  | rest => do
    let _ ← readDirectives none [] rest
    .error .malformed

/-- **The only document**, from its content on. -/
def document (version : Version) (handles : Table Text Text) (ts : List Token) :
    Except Fault Document := do
  let start : Composer := { tokens := ts, version, handles := handles ++ standardHandles }
  let isEmpty := ts.head?.any fun t =>
    isDirective t || t = .documentStart || t = .documentEnd || t = .textEnd
  let bound := 4 * ts.length + 4
  let (root, c) ← (if isEmpty then emptyNode else node bound .block).run start
  expectNothing version c.tokens
  return { version, nodes := c.nodes, root, bound }

/-- **The document of a text**, none if the text holds none. -/
def Document.ofTokens (ts : List Token) : Except Fault (Option Document) :=
  match ts with
  | .textEnd :: _ => .ok none
  | .documentEnd :: _ => .error .malformed
  | t :: _ =>
    if isDirective t || t = .documentStart then do
      let (version, handles, rest) ← readDirectives none [] ts
      match rest with
      | .documentStart :: content =>
        (document (version.getD standardVersion) handles content).map some
      | _ => .error .malformed
    else (document standardVersion [] ts).map some
  | [] => .ok none

theorem Document.ofTokens_textEnd : Document.ofTokens [.textEnd] = .ok none := rfl

end DocFerry.Yaml
