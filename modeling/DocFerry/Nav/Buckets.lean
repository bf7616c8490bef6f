import DocFerry.Nav.Group
import DocFerry.Nav.Classify
/-!
# Buckets and tabs

The top-level groups of a site are sorted into buckets: guides, one bucket for each platform, tools,
and the pages that stand in no group.  Tabs are made from the buckets, without empty ones; the pages
that stand alone open the guides as a group of their own.

Main fact: the tabs come in the order guides, kits, tools (`tabs_names`).
-/
namespace DocFerry.Nav

/-- **The label of the group of pages that stand alone.** -/
def gettingStartedLabel : Text := "Getting Started".toList

/-- **The groups of a site**, sorted. -/
structure Buckets where
  /-- Groups of the guides, in order of traversal. -/
  guides : List Group := []
  /-- Groups of kits by platform, in display order of the platforms. -/
  platforms : Table Text (List Group) := []
  tools : List Group := []
  /-- Pages that stand in no group. -/
  loosePages : List Text := []

namespace Buckets

/-- **Empty buckets for a classifier's platforms.** -/
def forPlatforms (platforms : List Text) : Buckets :=
  { platforms := Table.ofEntries (platforms.map fun p => (p, [])) }

/-- **The group of pages that stand alone**, if there are any. -/
def gettingStarted (b : Buckets) : Option Group :=
  if b.loosePages.isEmpty then none
  else some { label := gettingStartedLabel, items := b.loosePages.map .page }

/-- **The groups of the guides**, the pages that stand alone first. -/
def guideGroups (b : Buckets) : List Group := b.gettingStarted.toList ++ b.guides

/-- **A group added to a platform**, which is added itself if it is new. -/
def addToPlatform (b : Buckets) (platform : Text) (g : Group) : Buckets :=
  { b with
    platforms :=
      Table.set platform ((Table.get? platform b.platforms).getD [] ++ [g]) b.platforms }

/-- **A group put where its folder belongs.** -/
def put (b : Buckets) (place : Placement) (g : Group) : Buckets :=
  match place.platform with
  | some platform => b.addToPlatform platform g
  | none =>
    if place.tab = toolsTab then { b with tools := b.tools ++ [g] }
    else { b with guides := b.guides ++ [g] }

/-- **The items of the reserved folder of guides hoisted**: its groups become groups of the guides
and its pages stand alone. -/
def hoist (b : Buckets) (g : Group) : Buckets :=
  { b with
    guides := b.guides ++ g.items.filterMap Item.group?
    loosePages := b.loosePages ++ g.items.filterMap Item.slug? }

/-- **A page that stands alone**, listed once. -/
def addLoose (b : Buckets) (slug : Text) : Buckets :=
  if slug ∈ b.loosePages then b else { b with loosePages := b.loosePages ++ [slug] }

/-- **The groups of kits**: one for each platform that has any. -/
def platformGroups (b : Buckets) : List Group :=
  (b.platforms.filter fun p => !p.2.isEmpty).map fun p =>
    { label := p.1, items := p.2.map Group.toItem }

/-- **A tab for groups**, none without any. -/
def tab? (name : Text) (groups : List Group) : Option Tab :=
  if groups.isEmpty then none else some ⟨name, groups⟩

def tabs (b : Buckets) : List Tab :=
  [tab? guidesTab b.guideGroups, tab? sdksTab b.platformGroups, tab? toolsTab b.tools].filterMap id

theorem tabs_names (b : Buckets) : (b.tabs.map Tab.name).Sublist [guidesTab, sdksTab, toolsTab] := by
  have h (name : Text) (groups : List Group) :
      ((tab? name groups).toList.map Tab.name).Sublist [name] := by
    unfold tab?; split <;> simp
  have e : b.tabs = (tab? guidesTab b.guideGroups).toList ++
      ((tab? sdksTab b.platformGroups).toList ++ (tab? toolsTab b.tools).toList) := by
    unfold tabs
    cases tab? guidesTab b.guideGroups <;> cases tab? sdksTab b.platformGroups <;>
      cases tab? toolsTab b.tools <;> rfl
  rw [e]
  simp only [List.map_append]
  exact ((h _ _).append ((h _ _).append (h _ _)) : List.Sublist _ ([_] ++ ([_] ++ [_])))

end Buckets
end DocFerry.Nav
