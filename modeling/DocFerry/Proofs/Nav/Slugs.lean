import DocFerry.Nav.Buckets
/-!
# The slugs of a site's navigation

Putting groups into buckets and making tabs from them neither loses a slug nor adds one: a group that is put
anywhere, or hoisted, adds its own slugs (`slugs_put`, `slugs_hoist`), and the tabs list what the buckets hold
(`slugs_tabs`).
-/
namespace DocFerry.Nav

/-- **Every slug beneath groups.** -/
def slugsIn (groups : List Group) : List Text := groups.flatMap Group.slugs

/-- **Every slug in a tab.** -/
def Tab.slugs (t : Tab) : List Text := slugsIn t.groups

/-- **Every slug in the buckets**, in the order of the tabs. -/
def Buckets.slugs (b : Buckets) : List Text :=
  b.loosePages ++ slugsIn b.guides ++ (b.platforms.flatMap fun p => slugsIn p.2) ++ slugsIn b.tools

theorem slugsIn_append (a b : List Group) : slugsIn (a ++ b) = slugsIn a ++ slugsIn b := by simp [slugsIn]

theorem slugsIn_singleton (g : Group) : slugsIn [g] = g.slugs := by simp [slugsIn]

theorem slugsOf_toItem (groups : List Group) : slugsOf (groups.map Group.toItem) = slugsIn groups := by
  induction groups with
  | nil => rfl
  | cons g rest ih =>
    rw [List.map_cons, slugsOf, ih]
    rfl

theorem slugsOf_page (slugs : List Text) : slugsOf (slugs.map .page) = slugs := by
  induction slugs with
  | nil => rfl
  | cons slug rest ih =>
    rw [List.map_cons, slugsOf, ih]
    rfl

/-- **The pages and the groups of items** hold the slugs of the items between them. -/
theorem slugsOf_perm (items : List Item) :
    (slugsOf items).Perm (items.filterMap Item.slug? ++ slugsIn (items.filterMap Item.group?)) := by
  induction items with
  | nil => exact .refl _
  | cons item rest ih =>
    cases item with
    | page slug => exact ih.cons slug
    | group label expanded items =>
      have hslugs : (Group.mk label items expanded).slugs = slugsOf items := rfl
      simp only [slugsOf, Item.slugs, Item.slug?, Item.group?, List.filterMap_cons, slugsIn, List.flatMap_cons, hslugs]
      refine (ih.append_left _).trans ?_
      rw [← List.append_assoc, ← List.append_assoc]
      exact List.perm_append_comm.append_right _

namespace Buckets

/-- **The tabs list what the buckets hold.** -/
theorem slugs_tabs (b : Buckets) : b.tabs.flatMap Tab.slugs = b.slugs := by
  have htab : ∀ name groups, (tab? name groups).toList.flatMap Tab.slugs = slugsIn groups := by
    intro name groups
    unfold tab?
    split
    · rename_i he
      rw [List.isEmpty_iff.1 he]
      rfl
    · simp [Tab.slugs]
  have htabs : b.tabs = (tab? guidesTab b.guideGroups).toList ++
      ((tab? sdksTab b.platformGroups).toList ++ (tab? toolsTab b.tools).toList) := by
    unfold tabs
    cases tab? guidesTab b.guideGroups <;> cases tab? sdksTab b.platformGroups <;> cases tab? toolsTab b.tools <;> rfl
  have hguides : slugsIn b.guideGroups = b.loosePages ++ slugsIn b.guides := by
    rw [guideGroups, slugsIn_append, gettingStarted]
    split
    · rename_i he
      rw [List.isEmpty_iff.1 he]
      rfl
    · rw [Option.toList_some, slugsIn_singleton, Group.slugs, slugsOf_page]
  have hplatforms : slugsIn b.platformGroups = b.platforms.flatMap fun p => slugsIn p.2 := by
    unfold platformGroups
    induction b.platforms with
    | nil => rfl
    | cons p rest ih =>
      rw [List.flatMap_cons, ← ih, List.filter_cons]
      split
      · rw [List.map_cons, slugsIn, List.flatMap_cons, Group.slugs, slugsOf_toItem]
        rfl
      · rename_i he
        rw [show p.2 = [] by simpa using he]
        rfl
  rw [htabs, List.flatMap_append, List.flatMap_append, htab, htab, htab, hguides, hplatforms, slugs,
    List.append_assoc (b.loosePages ++ _)]

theorem slugs_addToPlatform (b : Buckets) (platform : Text) (g : Group) :
    (b.addToPlatform platform g).slugs.Perm (b.slugs ++ g.slugs) := by
  have hset : ∀ t : Table Text (List Group),
      ((Table.set platform ((Table.get? platform t).getD [] ++ [g]) t).flatMap fun p => slugsIn p.2).Perm
        ((t.flatMap fun p => slugsIn p.2) ++ g.slugs) := by
    intro t
    induction t with
    | nil => simp [Table.get?, Table.set, slugsIn_singleton]
    | cons e rest ih =>
      obtain ⟨k, v⟩ := e
      rw [Table.set, Table.get?]
      split
      · simp only [Option.getD_some, List.flatMap_cons, slugsIn_append, slugsIn_singleton, List.append_assoc]
        exact (List.perm_append_comm).append_left _
      · simp only [List.flatMap_cons, List.append_assoc]
        exact ih.append_left _
  refine List.perm_iff_count.2 fun slug => ?_
  have hcount := (hset b.platforms).count_eq slug
  simp only [slugs, addToPlatform, List.count_append] at hcount ⊢
  omega

/-- **A group put anywhere adds its own slugs.** -/
theorem slugs_put (b : Buckets) (place : Placement) (g : Group) : (b.put place g).slugs.Perm (b.slugs ++ g.slugs) := by
  unfold put
  split
  · exact slugs_addToPlatform b _ g
  · refine List.perm_iff_count.2 fun slug => ?_
    split <;> simp only [slugs, slugsIn_append, slugsIn_singleton, List.count_append] <;> omega

/-- **A group whose items are hoisted adds its own slugs.** -/
theorem slugs_hoist (b : Buckets) (g : Group) : (b.hoist g).slugs.Perm (b.slugs ++ g.slugs) := by
  refine List.perm_iff_count.2 fun slug => ?_
  have hcount := (slugsOf_perm g.items).count_eq slug
  simp only [slugs, hoist, Group.slugs, slugsIn_append, List.count_append] at hcount ⊢
  omega

theorem slugs_addLoose {b : Buckets} {slug : Text} (h : slug ∉ b.loosePages) :
    (b.addLoose slug).slugs.Perm (b.slugs ++ [slug]) := by
  rw [addLoose, if_neg h]
  refine List.perm_iff_count.2 fun other => ?_
  simp only [slugs, List.count_append]
  omega

end Buckets
end DocFerry.Nav
