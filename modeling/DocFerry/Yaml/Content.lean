import DocFerry.Yaml.Draft
/-!
# The value of a settings text

The collections of a document become a configuration value.  A collection that holds itself becomes a
loop, and the places inside it lead back.

Main facts: an empty text has the null value (`load_nil`), and so has every text whose first mark is
its end (`valueOf_textEnd`).
-/
namespace DocFerry.Yaml

open Config

/-- **A value, and the collections around it that it leads back to.** -/
structure Unfolded where
  value : Value
  /-- The numbers of the collections that it leads back to. -/
  back : List Nat := []
  deriving Inhabited

/-- **The value of a collection from its content**, which may lead back to it. -/
def Unfolded.close (n : Nat) (u : Unfolded) : Unfolded :=
  if u.back.contains n then ⟨.loop n u.value, u.back.filter (· ≠ n)⟩ else u

/-- **Values of collections that lead back to nothing around them**, by number. -/
abbrev Known := Table Nat Value

def Unfolded.join (make : List Value → Value) (parts : List Unfolded) : Unfolded :=
  ⟨make (parts.map (·.value)), (parts.flatMap (·.back)).eraseDups⟩

/-- **A value inside the collection or pair of a number.**  What leads back to nothing around is
remembered. -/
def within (n : Nat) (around : List Nat) (read : StateM Known Unfolded) : StateM Known Unfolded := do
  if around.contains n then return ⟨.back n, [n]⟩
  match Table.get? n (← get) with
  | some v => return ⟨v, []⟩
  | none =>
    let u := (← read).close n
    if u.back.isEmpty then modify ((n, u.value) :: ·)
    return u

/-- **The value of a part** inside collections of some numbers. -/
def unfold (d : Draft) : (fuel : Nat) → (around : List Nat) → Part → StateM Known Unfolded
  | 0, _, _ => return ⟨.null, []⟩
  | _ + 1, _, .value v => return ⟨v, []⟩
  | fuel + 1, around, .pair n first second =>
    within n around do
      let parts ← [first, second].mapM (unfold d fuel (n :: around))
      return .join .tuple parts
  | fuel + 1, around, .collection n =>
    within n around do
      let entries := fun (make : List (Value × Value) → Value) (l : List (Value × Part)) => do
        let parts ← (l.map (·.2)).mapM (unfold d fuel (n :: around))
        return Unfolded.join (fun values => make ((l.map (·.1)).zip values)) parts
      match d.collection? n with
      | some (.list items) =>
        let parts ← items.mapM (unfold d fuel (n :: around))
        return .join .list parts
      | some (.map l) => entries .map l
      | some (.ordered l) => entries .ordered l
      | some (.set keys) => return ⟨.set keys, []⟩
      | none => return ⟨.null, []⟩

def Document.value (doc : Document) : Except Fault Value := do
  let nesting := doc.nodes.size + 1
  let build : Build Part := do
    let root ← Build.part nesting false doc.root
    Build.finish nesting (doc.nodes.size + 1)
    return root
  let (root, d) ← build.run (.ofDocument doc)
  return ((unfold d (d.fresh + 1) [] root).run []).1.value

/-- **The value of tokens**, null without a document. -/
def valueOf (ts : List Token) : Except Fault Value := do
  match ← Document.ofTokens ts with
  | none => return .null
  | some doc => doc.value

/-- **The value of a settings text**, null for a text without a document. -/
def load (s : Source) : Except Fault Value := valueOf (tokens s)

theorem valueOf_textEnd (rest : List Token) : valueOf (.textEnd :: rest) = .ok .null := rfl

theorem load_nil : load { text := [] } = .ok .null := by rfl

end DocFerry.Yaml
