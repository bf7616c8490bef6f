import DocFerry.Proofs.Nav.Slugs
import DocFerry.Proofs.Table
/-!
# Groups within groups

A group is nested in items at any depth (`Nested`).  Every group that the tabs show, at the top of one or nested, is one
that the buckets have received, or one nested in it, but for the group of the pages that stand alone and those of the
platforms, which list no page themselves (`Buckets.All.of_inTabs`).
-/
namespace DocFerry.Nav

/-- **A group nested in items**, at any depth. -/
inductive Nested (g : Group) : List Item → Prop
  | here {items : List Item} : g.toItem ∈ items → Nested g items
  | deeper {child : Group} {items : List Item} : child.toItem ∈ items → Nested g child.items → Nested g items

theorem toItem_inj {g h : Group} (he : g.toItem = h.toItem) : g = h := by
  cases g
  cases h
  cases he
  rfl

theorem nested_append_iff {g : Group} {items : List Item} {item : Item} :
    Nested g (items ++ [item]) ↔
      Nested g items ∨ item = g.toItem ∨ ∃ child : Group, item = child.toItem ∧ Nested g child.items := by
  constructor
  · rintro (h | ⟨h, hbelow⟩)
    · rcases List.mem_append.1 h with h | h
      · exact .inl (.here h)
      · exact .inr (.inl (List.mem_singleton.1 h).symm)
    · rcases List.mem_append.1 h with h | h
      · exact .inl (.deeper h hbelow)
      · exact .inr (.inr ⟨_, (List.mem_singleton.1 h).symm, hbelow⟩)
  · rintro ((h | ⟨h, hbelow⟩) | rfl | ⟨child, rfl, hbelow⟩)
    · exact .here (List.mem_append_left _ h)
    · exact .deeper (List.mem_append_left _ h) hbelow
    · exact .here (by simp)
    · exact .deeper (by simp) hbelow

/-- **Items that are not empty list some page**, if every group nested in them does. -/
theorem slugsOf_ne_nil {items : List Item} (hne : items ≠ []) (h : ∀ g, Nested g items → g.slugs ≠ []) :
    slugsOf items ≠ [] := by
  cases items with
  | nil => exact absurd rfl hne
  | cons item rest =>
    have hitem : item.slugs ≠ [] := by
      cases item with
      | page slug => simp [Item.slugs]
      | group label expanded items => exact h ⟨label, items, expanded⟩ (.here List.mem_cons_self)
    rw [slugsOf]
    exact List.append_ne_nil_of_left_ne_nil hitem _

/-! ## Groups of the tabs -/

/-- **A group or one nested in it.** -/
def Within (g top : Group) : Prop := g = top ∨ Nested g top.items

theorem nested_of_within {g child : Group} {items : List Item} (hc : child.toItem ∈ items) (h : Within g child) :
    Nested g items := by
  rcases h with rfl | h
  · exact .here hc
  · exact .deeper hc h

theorem not_nested_pages {g : Group} {slugs : List Text} : ¬ Nested g (slugs.map .page) := by
  rintro (h | ⟨h, _⟩) <;> obtain ⟨_, _, he⟩ := List.mem_map.1 h <;> cases he

theorem pages_of_groups (groups : List Group) {label : Text} {expanded : Bool} :
    (Group.mk label (groups.map Group.toItem) expanded).pages = [] := by
  simp [Group.pages, Group.toItem, Item.slug?]

/-- **A group in the tabs**, at the top of one or nested. -/
def InTabs (tabs : List Tab) (g : Group) : Prop := ∃ t ∈ tabs, ∃ top ∈ t.groups, Within g top

namespace Buckets

theorem inTabs_of_guideGroups {b : Buckets} {g : Group} (h : g ∈ b.guideGroups) : InTabs b.tabs g := by
  refine ⟨⟨guidesTab, b.guideGroups⟩, ?_, g, h, .inl rfl⟩
  have htab : tab? guidesTab b.guideGroups = some ⟨guidesTab, b.guideGroups⟩ := by
    rw [tab?, if_neg]
    rw [List.isEmpty_iff]
    exact List.ne_nil_of_mem h
  exact List.mem_filterMap.2 ⟨_, List.mem_cons_self, htab⟩

/-- **What holds of every group in the buckets**, and of every group nested in one. -/
structure All (Q : Group → Prop) (b : Buckets) : Prop where
  guides : ∀ top ∈ b.guides, ∀ g, Within g top → Q g
  platforms : ∀ e ∈ b.platforms, ∀ top ∈ e.2, ∀ g, Within g top → Q g
  tools : ∀ top ∈ b.tools, ∀ g, Within g top → Q g

namespace All

variable {Q : Group → Prop} {b : Buckets}

theorem forPlatforms (platforms : List Text) : (Buckets.forPlatforms platforms).All Q := by
  refine ⟨by simp [Buckets.forPlatforms], fun e he top htop => ?_, by simp [Buckets.forPlatforms]⟩
  obtain ⟨entry, hentry, hvalue⟩ := Table.mem_values_ofEntries he
  obtain ⟨platform, _, rfl⟩ := List.mem_map.1 hentry
  rw [← hvalue] at htop
  cases htop

theorem put (h : b.All Q) {top : Group} (ht : ∀ g, Within g top → Q g) (place : Placement) : (b.put place top).All Q := by
  have hadd : ∀ {groups : List Group}, (∀ top ∈ groups, ∀ g, Within g top → Q g) →
      ∀ t ∈ groups ++ [top], ∀ g, Within g t → Q g := fun hg =>
    List.forall_mem_append.2 ⟨hg, List.forall_mem_singleton.2 ht⟩
  unfold Buckets.put
  split
  · rename_i platform _
    refine ⟨h.guides, fun e he => ?_, h.tools⟩
    rcases Table.mem_values_set he with hv | ⟨old, hold, hv⟩
    · rw [hv]
      refine hadd fun t ht => ?_
      cases hold : Table.get? platform b.platforms with
      | none => simp [hold] at ht
      | some groups =>
        rw [hold] at ht
        exact h.platforms _ (Table.mem_of_get? hold) t ht
    · exact hv ▸ h.platforms old hold
  · split
    · exact ⟨h.guides, h.platforms, hadd h.tools⟩
    · exact ⟨hadd h.guides, h.platforms, h.tools⟩

theorem hoist (h : b.All Q) {top : Group} (ht : ∀ g, Within g top → Q g) : (b.hoist top).All Q := by
  refine ⟨List.forall_mem_append.2 ⟨h.guides, fun child hc g hg => ht g (.inr (nested_of_within ?_ hg))⟩, h.platforms,
    h.tools⟩
  obtain ⟨item, hi, he⟩ := List.mem_filterMap.1 hc
  cases item with
  | page slug => cases he
  | group label expanded items =>
    cases he
    exact hi

theorem addLoose (h : b.All Q) (slug : Text) : (b.addLoose slug).All Q := by
  unfold Buckets.addLoose
  split
  · exact h
  · exact ⟨h.guides, h.platforms, h.tools⟩

/-- **A group of the tabs** has what all groups in the buckets have, unless it is that of the pages that stand alone or
lists no page. -/
theorem of_inTabs (h : b.All Q) {g : Group} (hg : InTabs b.tabs g) : Q g ∨ b.gettingStarted = some g ∨ g.pages = [] := by
  obtain ⟨t, ht, top, htop, hwithin⟩ := hg
  have htab : ∀ {name : Text} {groups : List Group}, some t = tab? name groups → top ∈ groups := by
    intro name groups he
    unfold tab? at he
    split at he
    · cases he
    · cases he
      exact htop
  simp only [tabs, List.mem_filterMap, List.mem_cons, List.not_mem_nil, or_false, id_eq, exists_eq_right] at ht
  rcases ht with ht | ht | ht
  · -- The tab of the guides begins with the pages that stand alone.
    rcases List.mem_append.1 (htab ht) with hm | hm
    · rw [Option.mem_toList] at hm
      rcases hwithin with rfl | hn
      · exact .inr (.inl hm)
      · rw [gettingStarted] at hm
        split at hm
        · cases hm
        · cases hm
          exact (not_nested_pages hn).elim
    · exact .inl (h.guides top hm g hwithin)
  · -- The group of a platform is put together for the tab.
    obtain ⟨e, he, rfl⟩ := List.mem_map.1 (htab ht)
    have hall := h.platforms e (List.mem_filter.1 he).1
    rcases hwithin with rfl | hn | ⟨hc, hn⟩
    · exact .inr (.inr (pages_of_groups e.2))
    · obtain ⟨child, hchild, he⟩ := List.mem_map.1 hn
      exact .inl (toItem_inj he ▸ hall child hchild child (.inl rfl))
    · obtain ⟨child, hchild, he⟩ := List.mem_map.1 hc
      exact .inl (hall child hchild g (.inr (toItem_inj he ▸ hn)))
  · exact .inl (h.tools top (htab ht) g hwithin)

end All
end Buckets
end DocFerry.Nav
