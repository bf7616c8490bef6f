import DocFerry.Proofs.Reading
import DocFerry.Yaml.Draft
/-!
# Why a settings text is not read

Why tokens are not read is told of, or is among the tokens (`Cause`): they are broken off, a directive names a version
that the format does not have, or a plain scalar looks like a number or a day and stands for none.  A tag in front of a
node may bring about any fault, so the rest is about texts without tags, whose nodes are lists, mappings, texts, and
plain scalars of the kinds that they look like (`IsUntagged`).  A collection is added before it is read, and filled in
afterwards; that it stays a collection in between is part of what a reader of nodes keeps (`Composed`).

Main fact: tokens without tags have such nodes, or hold a cause why they are not read (`yields_ofTokens`).
-/
namespace DocFerry.Yaml

variable {α : Type}

/-! ## Causes -/

/-- **Why tokens are not read**: what is told of, or what they hold. -/
inductive Cause (ts : List Token) : Fault → Prop
  | malformed : Cause ts .malformed
  | key (kind : String) : Cause ts (.unfitKey kind)
  /-- The text is broken off. -/
  | broken {fault : Fault} : .broken fault ∈ ts → Cause ts fault
  /-- A directive names a version that the format does not have. -/
  | version {v : Version} : .versionDirective v ∈ ts → v.2 ≠ 1 → v.2 ≠ 2 → Cause ts (.version v.1 v.2)
  /-- A plain scalar looks like a number or a day, and stands for none. -/
  | scalar {version : Version} {s : Text} {fault : Fault} : .scalar s true ∈ ts →
      readKind version s (kindOf version s) = .error fault → Cause ts fault
  /-- A key is given twice, and what would be told of it cannot be printed. -/
  | repeated : Cause ts (.whole .longNumber)
  /-- A tag is written in front of a node. -/
  | tag {handle : Option Text} {suffix : Text} {fault : Fault} : .tag handle suffix ∈ ts → Cause ts fault

/-! ## Nodes -/

/-- **No tag is written** in front of a node. -/
def Untagged (ts : List Token) : Prop := ∀ handle suffix, Token.tag handle suffix ∉ ts

/-- **A node of a text without tags**: a list, a mapping or a text, or a plain scalar of the kind that it looks like. -/
inductive IsUntagged (ts : List Token) (version : Version) (node : Node) : Prop
  | list : node.tag = .list → IsUntagged ts version node
  | map : node.tag = .map → IsUntagged ts version node
  | text : node.tag = .scalar .text → IsUntagged ts version node
  | scalar (s : Text) : node.content = .scalar s → node.tag = .scalar (kindOf version s) →
      .scalar s true ∈ ts ∨ s = [] → IsUntagged ts version node

/-- **How far the tokens of a text without tags have been read**; the nodes of some numbers have known tags. -/
structure Composed (ts : List Token) (version : Version) (held : List (Nat × Tag)) (c : Composer) : Prop where
  tokens : c.tokens ⊆ ts
  nodes : ∀ node ∈ c.nodes, IsUntagged ts c.version node
  version : c.version = version
  held : ∀ p ∈ held, c.nodes[p.1]?.map Node.tag = some p.2

open Compose

variable {ts : List Token} {version : Version} {held : List (Nat × Tag)}

/-- **A part of a reader of nodes.** -/
def Reads (ts : List Token) (version : Version) (held : List (Nat × Tag)) (read : Compose α) : Prop :=
  Keeps (Composed ts version held) (Cause ts) (fun _ => True) read

theorem reads_malformed : Reads ts version held (malformed : Compose α) := .throw .malformed

theorem keeps_peek :
    Keeps (Composed ts version held) (Cause ts) (fun t => t ∈ ts ∨ t = .textEnd) peek := by
  refine .bind .get fun c hc => ?_
  have hhead : c.tokens.headD .textEnd ∈ ts ∨ c.tokens.headD .textEnd = .textEnd := by
    cases htokens : c.tokens with
    | nil => exact .inr rfl
    | cons t rest => exact .inl (hc.tokens (by simp [htokens]))
  split
  · rename_i fault hbroken
    rw [hbroken] at hhead
    exact .throw (.broken (hhead.resolve_right (by simp)))
  · exact .pure hhead

theorem reads_advance : Reads ts version held advance :=
  .modify fun _ hc => ⟨fun _ ht => hc.tokens (List.drop_subset 1 _ ht), hc.nodes, hc.version, hc.held⟩

theorem reads_accept (t : Token) : Reads ts version held (accept t) := by
  refine .bind keeps_peek fun next _ => ?_
  split
  · exact .bind reads_advance fun _ _ => .pure trivial
  · exact .pure trivial

theorem reads_expect (t : Token) : Reads ts version held (expect t) := by
  refine .bind (reads_accept t) fun found _ => ?_
  split
  · exact reads_malformed
  · exact .pure trivial

theorem reads_isNext (next : List Token) : Reads ts version held (isNext next) :=
  .bind keeps_peek fun _ _ => .pure trivial

theorem reads_allowsBareValue : Reads ts version held allowsBareValue := .bind .get fun _ _ => .pure trivial

theorem reads_addNode (name : Option Text) {node : Node} (h : IsUntagged ts version node) :
    Reads ts version held (addNode name node) := by
  refine .bind .get fun c _ => .bind (.modify fun c hc => ?_) fun _ _ => .pure trivial
  refine ⟨hc.tokens, fun other ho => ?_, hc.version, fun p hp => ?_⟩
  · rcases Array.mem_push.1 ho with ho | rfl
    · exact hc.nodes other ho
    · exact hc.version.symm ▸ h
  · have hat := hc.held p hp
    cases hn : c.nodes[p.1]? with
    | none => simp [hn] at hat
    | some found =>
      rw [Composer.getElem?_add c name node (Array.getElem?_eq_some_iff.1 hn).1]
      exact hat

theorem reads_addPlain (name : Option Text) {s : Text} (h : .scalar s true ∈ ts ∨ s = []) :
    Reads ts version held (addPlain name s) := by
  intro c hc
  exact reads_addNode name (.scalar s rfl (by rw [hc.version]) h) c hc

theorem reads_emptyNode : Reads ts version held emptyNode := reads_addPlain none (.inr rfl)

theorem reads_namedNode (name : Text) : Reads ts version held (namedNode name) := by
  refine .bind .get fun c _ => ?_
  split
  · exact .pure trivial
  · exact reads_malformed

theorem forall_mem_modify {xs : Array α} {n : Nat} {f : α → α} {p : α → Prop} (h : ∀ x ∈ xs, p x)
    (hf : ∀ x, xs[n]? = some x → p (f x)) : ∀ x ∈ xs.modify n f, p x := by
  intro x hx
  obtain ⟨i, hi⟩ := Array.mem_iff_getElem?.1 hx
  rw [Array.getElem?_modify] at hi
  split at hi
  · rename_i hn
    obtain ⟨y, hy, rfl⟩ := Option.map_eq_some_iff.1 hi
    exact hf y (hn ▸ hy)
  · exact h x (Array.mem_of_getElem? hi)

/-- **A collection read after it has been added** stays one, so its content may be put in place. -/
theorem reads_addHolder (name : Option Text) {tag : Tag} (htag : tag = .list ∨ tag = .map) {read : Compose Content}
    (h : ∀ held, Reads ts version held read) : Reads ts version held (addHolder name tag read) := by
  have huntagged : ∀ {version} {node : Node}, node.tag = tag → IsUntagged ts version node := by
    intro _ node hnode
    rcases htag with rfl | rfl
    · exact .list hnode
    · exact .map hnode
  intro c hc
  have hadded : Composed ts version held (c.add name { tag, content := .list [] }) :=
    (reads_addNode name (huntagged rfl) c hc).2
  have hnew : Composed ts version ((c.nodes.size, tag) :: held) (c.add name { tag, content := .list [] }) := by
    refine ⟨hadded.tokens, hadded.nodes, hadded.version, List.forall_mem_cons.2 ⟨?_, hadded.held⟩⟩
    simp [Composer.add]
  refine (h _ _ hnew).bind fun r hr => ?_
  obtain ⟨content, c'⟩ := r
  have hc' := hr.2
  obtain ⟨hself, hheld⟩ := List.forall_mem_cons.1 hc'.held
  have hnodes : ∀ node ∈ c'.nodes.modify c.nodes.size fun node => { node with content },
      IsUntagged ts c'.version node :=
    forall_mem_modify hc'.nodes fun node hnode => huntagged (by simpa [hnode] using hself)
  refine ⟨trivial, hc'.tokens, hnodes, hc'.version, fun p hp => ?_⟩
  have hat := hheld p hp
  show (c'.nodes.modify _ _)[p.1]?.map Node.tag = some p.2
  rw [Array.getElem?_modify]
  split
  · rename_i hn
    rw [Option.map_map]
    exact hn ▸ hat
  · exact hat

theorem reads_addScalar (name : Option Text) {s : Text} {isPlain : Bool}
    (h : isPlain = true → .scalar s true ∈ ts ∨ s = []) : Reads ts version held (addScalar name none s isPlain) := by
  unfold addScalar
  cases isPlain with
  | true => exact reads_addPlain name (h rfl)
  | false => exact reads_addNode name (.text rfl)

theorem keeps_writtenTag? (hnone : Untagged ts) :
    Keeps (Composed ts version held) (Cause ts) (fun tag => tag = none) writtenTag? := by
  refine .bind keeps_peek fun t ht => ?_
  split
  · rename_i handle suffix
    exact absurd (ht.resolve_right (by simp)) (hnone handle suffix)
  · exact .pure rfl

theorem keeps_properties (hnone : Untagged ts) :
    Keeps (Composed ts version held) (Cause ts) (fun r => r.2 = none) properties := by
  have hanchor : Reads ts version held anchor? := by
    refine .bind keeps_peek fun t _ => ?_
    split
    · exact .bind reads_advance fun _ _ => .pure trivial
    · exact .pure trivial
  refine .bind hanchor fun before _ => .bind (keeps_writtenTag? hnone) fun written hwritten => ?_
  subst hwritten
  have hname : ∀ {next : Option Text → Compose (Option Text × Option Text)},
      (∀ name, Keeps (Composed ts version held) (Cause ts) (fun r => r.2 = none) (next name)) →
      Keeps (Composed ts version held) (Cause ts) (fun r => r.2 = none)
        (if before.isSome || (none : Option (Option Text × Text)).isNone then pure before >>= next
          else anchor? >>= next) := by
    intro next hnext
    split
    · exact hnext before
    · exact .bind hanchor fun name _ => hnext name
  exact hname fun name => .bind (Q := fun tag => tag = none) (.pure rfl) fun tag htag => .pure htag

mutual

theorem reads_node (hnone : Untagged ts) : ∀ (fuel : Nat) (position : Position) {held : List (Nat × Tag)},
    Reads ts version held (node fuel position)
  | 0, _, _ => by
    unfold node
    exact reads_malformed
  | fuel + 1, position, held => by
    unfold node
    refine .bind keeps_peek fun t _ => ?_
    split
    · exact .bind reads_advance fun _ _ => reads_namedNode _
    refine .bind (keeps_properties hnone) fun r hr => ?_
    obtain ⟨name, tag⟩ := r
    cases hr
    have hlist : ∀ {items : Compose (List Nat)}, (∀ held, Reads ts version held items) →
        Reads ts version held (addHolder name (holderTag .list none) (return .list (← items))) :=
      fun h => reads_addHolder name (.inl rfl) fun held => .bind (h held) fun _ _ => .pure trivial
    have hmap : ∀ {entries : Compose (List (Nat × Nat))}, (∀ held, Reads ts version held entries) →
        Reads ts version held (addHolder name (holderTag .map none) (return .map (← entries))) :=
      fun h => reads_addHolder name (.inr rfl) fun held => .bind (h held) fun _ _ => .pure trivial
    refine .bind keeps_peek fun t ht => ?_
    split
    · rename_i s isPlain
      refine .bind reads_advance fun _ _ => reads_addScalar name fun hplain => .inl ?_
      subst hplain
      exact ht.resolve_right (by simp)
    · exact .bind reads_advance fun _ _ => hlist fun held => reads_flowItems hnone fuel true
    · exact .bind reads_advance fun _ _ => hmap fun held => reads_flowEntries hnone fuel true
    · split
      · exact hlist fun held => reads_looseItems hnone fuel
      split
      · exact .bind reads_advance fun _ _ => hlist fun held => reads_blockItems hnone fuel
      split
      · exact .bind reads_advance fun _ _ => hmap fun held => reads_blockEntries hnone fuel
      split
      · exact reads_addScalar name fun _ => .inr rfl
      · exact reads_malformed

theorem reads_nodeUnless (hnone : Untagged ts) : ∀ (fuel : Nat) (position : Position) (ends : List Token)
    {held : List (Nat × Tag)}, Reads ts version held (nodeUnless fuel position ends)
  | 0, _, _, _ => by
    unfold nodeUnless
    exact reads_malformed
  | fuel + 1, position, ends, held => by
    unfold nodeUnless
    refine .bind (reads_isNext ends) fun found _ => ?_
    split
    · exact reads_emptyNode
    · exact reads_node hnone fuel position

theorem reads_blockItems (hnone : Untagged ts) : ∀ (fuel : Nat) {held : List (Nat × Tag)},
    Reads ts version held (blockItems fuel)
  | 0, _ => by
    unfold blockItems
    exact reads_malformed
  | fuel + 1, held => by
    unfold blockItems
    refine .bind (reads_accept _) fun found _ => ?_
    split
    · refine .bind (reads_nodeUnless hnone fuel _ _) fun _ _ => ?_
      exact .bind (reads_blockItems hnone fuel) fun _ _ => .pure trivial
    · exact .bind (reads_expect _) fun _ _ => .pure trivial

theorem reads_looseItems (hnone : Untagged ts) : ∀ (fuel : Nat) {held : List (Nat × Tag)},
    Reads ts version held (looseItems fuel)
  | 0, _ => by
    unfold looseItems
    exact reads_malformed
  | fuel + 1, held => by
    unfold looseItems
    refine .bind (reads_accept _) fun found _ => ?_
    split
    · refine .bind (reads_nodeUnless hnone fuel _ _) fun _ _ => ?_
      exact .bind (reads_looseItems hnone fuel) fun _ _ => .pure trivial
    · exact .pure trivial

theorem reads_blockEntries (hnone : Untagged ts) : ∀ (fuel : Nat) {held : List (Nat × Tag)},
    Reads ts version held (blockEntries fuel)
  | 0, _ => by
    unfold blockEntries
    exact reads_malformed
  | fuel + 1, held => by
    unfold blockEntries
    refine .bind (reads_accept _) fun hasKey _ => ?_
    refine .bind reads_allowsBareValue fun isBare _ => .bind (reads_isNext _) fun isNext _ => ?_
    extract_lets entry
    have hentry : ∀ key?, Reads ts version held (entry key?) := by
      rintro (_ | key)
      · exact .bind (reads_expect _) fun _ _ => .pure trivial
      · refine .bind (reads_accept _) fun hasValue _ => ?_
        have hrest : ∀ value, Reads ts version held (do return (key, value) :: (← blockEntries fuel)) :=
          fun value => .bind (reads_blockEntries hnone fuel) fun _ _ => .pure trivial
        split
        · exact .bind (reads_nodeUnless hnone fuel _ _) fun value _ => hrest value
        · exact .bind reads_emptyNode fun value _ => hrest value
    have hfound : ∀ key?, Reads ts version held (pure key? >>= entry) := fun key? =>
      .bind (Q := fun _ => True) (.pure trivial) fun _ _ => hentry _
    split
    · exact .bind (reads_nodeUnless hnone fuel _ _) fun _ _ => hfound _
    split
    · exact .bind reads_emptyNode fun _ _ => hfound _
    · exact hfound _

theorem reads_flowItems (hnone : Untagged ts) : ∀ (fuel : Nat) (first : Bool) {held : List (Nat × Tag)},
    Reads ts version held (flowItems fuel first)
  | 0, _, _ => by
    unfold flowItems
    exact reads_malformed
  | fuel + 1, first, held => by
    unfold flowItems
    refine .bind (reads_accept _) fun isEnd _ => ?_
    split
    · exact .pure trivial
    extract_lets rest items
    have hrest : ∀ item, Reads ts version held (rest item) :=
      fun item => .bind (reads_flowItems hnone fuel false) fun _ _ => .pure trivial
    have hitems : ∀ r, Reads ts version held (items r) := by
      intro r
      refine .bind (reads_accept _) fun isEnd _ => ?_
      split
      · exact .pure trivial
      refine .bind (reads_accept _) fun isKey _ => ?_
      split
      · refine .bind (reads_addHolder none (.inr rfl) fun held => ?_) fun item _ => hrest item
        refine .bind (reads_nodeUnless hnone fuel _ _) fun key _ => .bind (reads_accept _) fun hasValue _ => ?_
        split
        · exact .bind (reads_nodeUnless hnone fuel _ _) fun _ _ => .pure trivial
        · exact .bind reads_emptyNode fun _ _ => .pure trivial
      · exact .bind (reads_node hnone fuel _) fun item _ => hrest item
    split
    · exact .bind (reads_expect _) fun r _ => hitems r
    · exact hitems ()

theorem reads_flowEntries (hnone : Untagged ts) : ∀ (fuel : Nat) (first : Bool) {held : List (Nat × Tag)},
    Reads ts version held (flowEntries fuel first)
  | 0, _, _ => by
    unfold flowEntries
    exact reads_malformed
  | fuel + 1, first, held => by
    unfold flowEntries
    refine .bind (reads_accept _) fun isEnd _ => ?_
    split
    · exact .pure trivial
    extract_lets value rest entries
    have hvalue : Reads ts version held value := by
      refine .bind (reads_accept _) fun hasValue _ => ?_
      split
      · exact reads_nodeUnless hnone fuel _ _
      · exact reads_emptyNode
    have hrest : ∀ entry, Reads ts version held (rest entry) :=
      fun entry => .bind (reads_flowEntries hnone fuel false) fun _ _ => .pure trivial
    have hentries : ∀ r, Reads ts version held (entries r) := by
      intro r
      refine .bind (reads_accept _) fun isEnd _ => ?_
      split
      · exact .pure trivial
      refine .bind (reads_accept _) fun hasKey _ => ?_
      refine .bind reads_allowsBareValue fun isBare _ => .bind (reads_isNext _) fun isNext _ => ?_
      have hfound : ∀ entry, Reads ts version held (pure entry >>= rest) := fun entry =>
        .bind (Q := fun _ => True) (.pure trivial) fun _ _ => hrest _
      split
      · exact .bind (reads_nodeUnless hnone fuel _ _) fun _ _ => .bind hvalue fun _ _ => hfound _
      split
      · exact .bind reads_emptyNode fun _ _ => .bind hvalue fun _ _ => hfound _
      · exact .bind (reads_node hnone fuel _) fun _ _ => .bind reads_emptyNode fun _ _ => hfound _
    split
    · exact .bind (reads_expect _) fun r _ => hentries r
    · exact hentries ()

end

/-! ## Documents -/

end DocFerry.Yaml
