import DocFerry.Proofs.Yaml.Nodes
import DocFerry.Yaml.Content
/-!
# Why a settings text has no value

The nodes of a text without tags become values.  Mappings may first take over the entries of others, and are marked
and changed on the way (`Graphed`, `merges_complete`); then the collections are built, each of them once (`Drafted`,
`builds_part`).  A scalar is read as the kind that it looks like, so what can be wrong with it is wrong with a plain
scalar of the text (`builds_scalar`).

Main fact: tokens that have no value hold a cause for it (`cause_of_valueOf`).
-/
namespace DocFerry.Yaml

variable {ts : List Token} {version : Version}

/-! ## Mappings that take over entries -/

/-- **Nodes of a text without tags**, of which some are mappings. -/
structure Graphed (ts : List Token) (version : Version) (maps : List Nat) (g : Graph) : Prop where
  nodes : ∀ node ∈ g, IsUntagged ts version node
  maps : ∀ n ∈ maps, ∃ entries, g.contentAt n = .map entries

variable {maps : List Nat} {g : Graph}

theorem contentAt_modify {f : Node → Node} {n m : Nat} :
    Graph.contentAt (g.modify n f) m =
      if n = m then ((g[m]?.map f).map Node.content).getD (.list []) else g.contentAt m := by
  unfold Graph.contentAt
  rw [Array.getElem?_modify]
  split <;> rfl

theorem Graphed.setTag (h : Graphed ts version maps g) (n : Nat) :
    Graphed ts version maps (g.setTag n (.scalar .text)) where
  nodes := forall_mem_modify h.nodes fun _ _ => .text rfl
  maps m hm := by
    obtain ⟨entries, he⟩ := h.maps m hm
    refine ⟨entries, ?_⟩
    rw [Graph.setTag, contentAt_modify]
    split
    · rw [Option.map_map]
      exact he
    · exact he

/-- **The entries of a mapping changed.** -/
theorem Graphed.setMap (h : Graphed ts version maps g) {n : Nat} (hn : n ∈ maps) (entries : List (Nat × Nat))
    (isMerged : Node → Bool) :
    Graphed ts version maps (g.modify n fun node => ⟨node.tag, .map entries, isMerged node⟩) := by
  obtain ⟨old, hold⟩ := h.maps n hn
  refine ⟨forall_mem_modify h.nodes fun node hnode => ?_, fun m hm => ?_⟩
  · have hcontent : node.content = .map old := by simpa [Graph.contentAt, hnode] using hold
    cases h.nodes node (Array.mem_of_getElem? hnode) with
    | list htag => exact .list htag
    | map htag => exact .map htag
    | text htag => exact .text htag
    | scalar s hs => rw [hcontent] at hs; cases hs
  · rw [contentAt_modify]
    split
    · rename_i he
      subst he
      refine ⟨entries, ?_⟩
      cases hnode : g[n]? with
      | none => simp [Graph.contentAt, hnode] at hold
      | some node => rfl
    · exact h.maps m hm

/-- **A part of the completion of mappings.** -/
def Merges (ts : List Token) (version : Version) (maps : List Nat) {α : Type} (step : Merging α) : Prop :=
  Keeps (Graphed ts version maps) (Cause ts) (fun _ => True) step

section TakeOver

variable {complete : Nat → Merging Unit} (hcomplete : ∀ n maps, Merges ts version maps (complete n))

include hcomplete

theorem merges_completeEntries (n : Nat) : Merges ts version maps (completeEntries complete n) := by
  refine .bind .get fun g _ => ?_
  split
  · exact .bind (hcomplete n maps) fun _ _ => .bind .get fun _ _ => .pure trivial
  · exact .throw .malformed

theorem merges_givenEntries (n : Nat) : Merges ts version maps (givenEntries complete n) := by
  refine .bind .get fun g _ => ?_
  split
  · exact .bind (.mapM fun m _ => merges_completeEntries hcomplete m) fun _ _ => .pure trivial
  · exact merges_completeEntries hcomplete n

theorem merges_takeOver {n : Nat} (hn : n ∈ maps) : ∀ (todo done merged : List (Nat × Nat)),
    Merges ts version maps (takeOver complete n done merged todo)
  | [], _, _ => .pure trivial
  | (key, value) :: todo, done, merged => by
    unfold takeOver
    refine .bind .get fun g _ => ?_
    extract_lets tag own taken kept
    have htaken : ∀ r, Merges ts version maps (taken r) := fun r => by
      refine .bind (.modify fun g hg => hg.setMap hn own Node.isMerged) fun _ _ => ?_
      refine .bind (merges_givenEntries hcomplete value) fun given _ => .bind .get fun g' _ => ?_
      split
      · exact merges_takeOver hn todo done given
      · exact .pure trivial
    have hkept : ∀ r, Merges ts version maps (kept r) := fun r => merges_takeOver hn todo _ merged
    split
    · split
      · exact .throw .malformed
      · exact htaken ()
    · split
      · exact .bind (.modify fun g hg => hg.setTag key) fun r _ => hkept r
      · exact hkept ()

end TakeOver

theorem merges_complete : ∀ (fuel n : Nat) {maps : List Nat}, Merges ts version maps (complete fuel n)
  | 0, _, _ => .throw .malformed
  | fuel + 1, n, maps => by
    intro g hg
    -- Only a mapping has entries to be looked at, and it stays one.
    have hother : g.entriesAt n = [] → (complete (fuel + 1) n).run g = .ok ((), g) := by
      intro hnone
      simp [complete, hnone, takeOver]
      rfl
    cases hcontent : g.contentAt n with
    | map entries =>
      have hmaps : ∀ m ∈ n :: maps, ∃ entries, g.contentAt m = .map entries :=
        List.forall_mem_cons.2 ⟨⟨entries, hcontent⟩, hg.maps⟩
      have hread : Merges ts version (n :: maps) (complete (fuel + 1) n) := by
        refine .bind .get fun g _ => ?_
        refine .bind (merges_takeOver (fun m _ => merges_complete fuel m) List.mem_cons_self _ _ _) fun merged _ => ?_
        split
        · exact .modify fun g hg => hg.setMap List.mem_cons_self _ fun _ => true
        · exact .pure trivial
      exact (hread g ⟨hg.nodes, hmaps⟩).imp (fun _ => id) fun r hr =>
        ⟨trivial, hr.2.nodes, (List.forall_mem_cons.1 hr.2.maps).2⟩
    | scalar s =>
      rw [hother (by simp [Graph.entriesAt, hcontent])]
      exact ⟨trivial, hg⟩
    | list items =>
      rw [hother (by simp [Graph.entriesAt, hcontent])]
      exact ⟨trivial, hg⟩

/-! ## Collections -/

/-- **How far the collections of a text without tags have been built.** -/
structure Drafted (ts : List Token) (version : Version) (d : Draft) : Prop where
  nodes : ∀ node ∈ d.nodes, IsUntagged ts version node
  version : d.document.version = version

/-- **A part of the building of collections.** -/
def Builds (ts : List Token) (version : Version) {α : Type} (step : Build α) : Prop :=
  Keeps (Drafted ts version) (Cause ts) (fun _ => True) step

/-- **The tag of a node** of a text without tags. -/
theorem tagAt_of_untagged (h : ∀ node ∈ g, IsUntagged ts version node) (n : Nat) :
    g.tagAt n = .unknown ∨ g.tagAt n = .list ∨ g.tagAt n = .map ∨ g.tagAt n = .scalar .text ∨
      ∃ s, g.contentAt n = .scalar s ∧ g.tagAt n = .scalar (kindOf version s) ∧ (.scalar s true ∈ ts ∨ s = []) := by
  unfold Graph.tagAt Graph.contentAt
  cases hn : g[n]? with
  | none => exact .inl rfl
  | some node =>
    refine .inr ?_
    cases h node (Array.mem_of_getElem? hn) with
    | list htag => exact .inl htag
    | map htag => exact .inr (.inl htag)
    | text htag => exact .inr (.inr (.inl htag))
    | scalar s hs htag hin => exact .inr (.inr (.inr ⟨s, hs, htag, hin⟩))

theorem yields_readKind {s : Text} (h : .scalar s true ∈ ts ∨ s = []) :
    Yields (Cause ts) (fun _ => True) (readKind version s (kindOf version s)) := by
  rcases h with hin | rfl
  · cases hread : readKind version s (kindOf version s) with
    | ok v => trivial
    | error fault => exact .scalar hin hread
  · rw [kindOf_nil]
    trivial

namespace Build

theorem builds_put (n : Nat) (c : Collection) : Builds ts version (put n c) :=
  .modify fun _ hd => ⟨hd.nodes, hd.version⟩

theorem builds_complete (n : Nat) : Builds ts version (complete n) := by
  refine .bind .get fun d hd => ?_
  have hcomplete : Merges ts version [] (DocFerry.Yaml.complete d.document.bound n) := merges_complete _ n
  have hmerged := hcomplete d.nodes ⟨hd.nodes, by simp⟩
  exact .bind (.lift hmerged) fun r hr => .set ⟨hr.2.nodes, hd.version⟩

theorem yields_formed {α : Type} (x : Option α) : Yields (Cause ts) (fun _ => True) (formed x) := by
  cases x with
  | none => exact .malformed
  | some a => trivial

theorem builds_scalarText (n : Nat) : Builds ts version (scalarText n) := .bind .get fun _ _ => .lift (yields_formed _)

/-- **The text of a node that is a scalar** is its own. -/
theorem keeps_scalarText {d : Draft} (hd : Drafted ts version d) {n : Nat} {s : Text}
    (h : d.nodes.contentAt n = .scalar s) :
    Yields (Cause ts) (fun r => r.1 = s ∧ Drafted ts version r.2) ((scalarText n).run d) := by
  have hrun : (scalarText n).run d = (formed (d.nodes.scalarText? d.document.bound n)).map fun a => (a, d) := rfl
  rw [hrun]
  cases hbound : d.document.bound with
  | zero => exact .malformed
  | succ bound =>
    rw [Graph.scalarText?, h]
    exact ⟨rfl, hd⟩

/-- **A scalar is not read** only if it is a plain one that looks like something else than it is. -/
theorem builds_scalar (n : Nat) : Builds ts version (scalar n) := by
  intro d hd
  unfold scalar
  rw [StateT.run_bind, StateT.run_get, pure_bind]
  dsimp only
  rcases tagAt_of_untagged hd.nodes n with htag | htag | htag | htag | ⟨s, hcontent, htag, hin⟩
  · rw [htag]
    exact .malformed
  · rw [htag]
    exact .malformed
  · rw [htag]
    exact .malformed
  · rw [htag]
    have htext : ∀ s, Yields (Cause ts) (fun _ => True) (readKind d.document.version s .text) := fun _ => trivial
    exact (Keeps.bind (builds_scalarText n) fun s _ => .lift (htext s)) d hd
  · rw [htag, hcontent]
    have hread : Yields (Cause ts) (fun _ => True) (readKind version _ (kindOf version _)) := yields_readKind hin
    split
    · rename_i t hkind ht
      cases ht
      rw [Tag.scalar.inj hkind] at hread
      exact (Keeps.lift hread) d hd
    · rename_i hother
      exact (hother s rfl).elim
    · rename_i kind _ hkind _
      rw [Tag.scalar.inj hkind] at hread
      refine (keeps_scalarText hd hcontent).bind fun r hr => ?_
      obtain ⟨t, e⟩ := r
      obtain ⟨rfl, he⟩ := hr
      rw [hd.version]
      exact (Keeps.lift hread) e he
    · rename_i hoctets
      cases hoctets
    · exact .malformed

theorem builds_mapKey (p : Part) : Builds ts version (mapKey p) := by
  refine .bind .get fun d _ => ?_
  split
  · split
    · exact .pure trivial
    · exact .throw .malformed
  · exact .pure trivial

theorem builds_checked (key : Except String Config.Value) : Builds ts version (checked key) := by
  unfold checked
  split
  · exact .pure trivial
  · exact .throw (.key _)

theorem cause_repeated (key : Config.Value) (parts : List Part) : Cause ts (repeated key parts) := by
  unfold repeated
  split
  · exact .repeated
  · exact .malformed

theorem builds_entries {readKey readPart : Nat → Build Part} (hkey : ∀ n, Builds ts version (readKey n))
    (hpart : ∀ n, Builds ts version (readPart n)) (repeats : Bool) : ∀ (l : List (Nat × Nat))
    (before : List (Config.Value × Part)), Builds ts version (entries readKey readPart repeats before l)
  | [], _ => .pure trivial
  | (k, v) :: rest, before => by
    unfold entries
    refine .bind (hkey k) fun part _ => .bind (builds_mapKey part) fun key _ => .bind (hpart v) fun value _ => ?_
    refine .bind (builds_checked key) fun key _ => ?_
    split
    · exact .throw (cause_repeated _ _)
    · exact builds_entries hkey hpart repeats rest _

mutual

/-- **A node is built** unless it holds a cause; lists and mappings are all the collections there are. -/
theorem builds_part : ∀ (fuel : Nat) (atOnce : Bool) (n : Nat), Builds ts version (part fuel atOnce n)
  | 0, _, _ => by
    unfold part
    exact .throw .malformed
  | fuel + 1, atOnce, n => by
    unfold part
    refine .bind .get fun d _ => ?_
    split
    · exact .bind (builds_scalar n) fun _ _ => .pure trivial
    split
    · exact .pure trivial
    split
    · exact .pure trivial
    refine .bind (builds_put n _) fun _ _ => ?_
    split
    · refine .bind (.modify fun _ hd => ⟨hd.nodes, hd.version⟩) fun _ _ => ?_
      refine .bind (builds_content fuel true n) fun _ _ => ?_
      exact .bind (.modify fun _ hd => ⟨hd.nodes, hd.version⟩) fun _ _ => .pure trivial
    · exact .bind (.modify fun _ hd => ⟨hd.nodes, hd.version⟩) fun _ _ => .pure trivial

theorem builds_content : ∀ (fuel : Nat) (atOnce : Bool) (n : Nat), Builds ts version (content fuel atOnce n)
  | 0, _, _ => by
    unfold content
    exact .throw .malformed
  | fuel + 1, atOnce, n => by
    unfold content
    extract_lets entriesOf
    have hentries : Builds ts version entriesOf := by
      refine .bind (builds_complete n) fun _ _ => .bind .get fun d _ => ?_
      exact builds_entries (builds_part fuel true) (builds_part fuel atOnce) _ _ _
    refine .bind .get fun d hd => ?_
    have htag : ∀ {tag}, d.nodes.tagAt n = tag → tag ≠ .set ∧ tag ≠ .ordered ∧ tag ≠ .pairs := by
      rintro _ rfl
      rcases tagAt_of_untagged hd.nodes n with h | h | h | h | ⟨_, _, h, _⟩ <;> simp [h]
    extract_lets nodes
    split
    · exact .bind (.mapM fun m _ => builds_part fuel atOnce m) fun _ _ => builds_put n _
    · exact .bind hentries fun _ _ => builds_put n _
    · rename_i hset _
      exact absurd rfl (htag hset).1
    · rename_i hordered _
      exact absurd rfl (htag hordered).2.1
    · rename_i hpairs _
      exact absurd rfl (htag hpairs).2.2
    · exact .throw .malformed

end

end Build

/-! ## Settings texts -/

end DocFerry.Yaml
