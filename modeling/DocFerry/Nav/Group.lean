import DocFerry.Json.Basic
/-!
# Navigation groups

A group is a labelled level of the sidebar: pages, named by their slugs, and nested groups, in
display order.  A page is listed at most once directly in a group, and a group without items is
never nested in another.

Main facts: adding a page that is listed changes nothing (`addPage_of_mem`), and the slugs of a group
grow by what is added at its end (`slugs_addPage`, `slugs_addGroup`).
-/
namespace DocFerry.Nav

/-- **An item of a group**: a page, or a nested group. -/
inductive Item where
  /-- A page, by its slug. -/
  | page (slug : Text)
  | group (label : Text) (expanded : Bool) (items : List Item)
  deriving Inhabited

structure Group where
  /-- The name shown in the sidebar. -/
  label : Text
  /-- The items in display order. -/
  items : List Item := []
  /-- The sidebar shows the group open at first. -/
  expanded : Bool := false
  deriving Inhabited

/-- **A group as an item** of another. -/
def Group.toItem (g : Group) : Item := .group g.label g.expanded g.items

/-- **The group that an item is**, none for a page. -/
def Item.group? : Item → Option Group
  | .page _ => none
  | .group label expanded items => some ⟨label, items, expanded⟩

/-- **The slug that an item is**, none for a group. -/
def Item.slug? : Item → Option Text
  | .page slug => some slug
  | .group .. => none

mutual

/-- **The slugs beneath an item**, depth first. -/
def Item.slugs : Item → List Text
  | .page slug => [slug]
  | .group _ _ items => slugsOf items

/-- **The slugs beneath items**, depth first. -/
def slugsOf : List Item → List Text
  | [] => []
  | item :: rest => item.slugs ++ slugsOf rest

end

mutual

/-- **An item as it stands in the manifest**: a slug, or an object for a group. -/
def Item.toJson : Item → Json
  | .page slug => .text slug
  | .group label expanded items =>
    .record [("group", .text label), ("expanded", .bool expanded), ("pages", .array (itemsJson items))]

/-- Items as they stand in the manifest. -/
def itemsJson : List Item → List Json
  | [] => []
  | item :: rest => item.toJson :: itemsJson rest

end

namespace Group

def isEmpty (g : Group) : Bool := g.items.isEmpty

/-- **The slugs listed directly**, in order. -/
def pages (g : Group) : List Text := g.items.filterMap Item.slug?

/-- **Every slug beneath the group**, depth first. -/
def slugs (g : Group) : List Text := slugsOf g.items

/-- **A page added at the end**, unless it is listed: whether it was added, and the group. -/
def addPage (g : Group) (slug : Text) : Bool × Group :=
  if slug ∈ g.pages then (false, g) else (true, { g with items := g.items ++ [.page slug] })

/-- **A group added at the end**, unless it has no items: whether it was added, and the group. -/
def addGroup (g child : Group) : Bool × Group :=
  if child.isEmpty then (false, g) else (true, { g with items := g.items ++ [child.toItem] })

/-- **A group as it stands in the manifest.** -/
def toJson (g : Group) : Json := g.toItem.toJson

theorem addPage_of_mem {g : Group} {slug : Text} (h : slug ∈ g.pages) : g.addPage slug = (false, g) := by
  simp [addPage, h]

end Group

theorem slugsOf_append (a b : List Item) : slugsOf (a ++ b) = slugsOf a ++ slugsOf b := by
  induction a with
  | nil => rfl
  | cons item rest ih => simp [slugsOf, ih]

theorem Group.slugs_addPage {g : Group} {slug : Text} (h : slug ∉ g.pages) :
    (g.addPage slug).2.slugs = g.slugs ++ [slug] := by
  simp [Group.addPage, h, Group.slugs, slugsOf_append, slugsOf, Item.slugs]

theorem Group.slugs_addGroup {g child : Group} (h : child.isEmpty = false) :
    (g.addGroup child).2.slugs = g.slugs ++ child.slugs := by
  simp [Group.addGroup, h, Group.slugs, slugsOf_append, slugsOf, Item.slugs, Group.toItem]

/-- **A top-level tab** of the navigation. -/
structure Tab where
  /-- The name of the tab. -/
  name : Text
  /-- Its groups in display order. -/
  groups : List Group

/-- **A tab as it stands in the manifest.** -/
def Tab.toJson (t : Tab) : Json :=
  .record [("tab", .text t.name), ("groups", .array (t.groups.map Group.toJson))]

end DocFerry.Nav
