import DocFerry.Nav.Buckets
import DocFerry.Nav.Classify
import DocFerry.Proofs.Table
/-!
# Where groups are put

A bucket is that of the guides, of one platform or of the tools.  Each folder's name leads to exactly one bucket
(`Classifier.exists_bucket`), and a group that is put there is added at the end of it and to no other
(`Buckets.groups_put`).  The tabs are made from the buckets in order, without the empty ones (`Buckets.tabs_eq`).
-/
namespace DocFerry.Nav

/-- **A bucket of groups.** -/
inductive Bucket where
  | guides
  | platform (name : Text)
  | tools
  deriving DecidableEq

/-- **The place in the navigation that a bucket stands for.** -/
def Bucket.placement : Bucket → Placement
  | .guides => ⟨guidesTab, none⟩
  | .platform name => ⟨sdksTab, some name⟩
  | .tools => ⟨toolsTab, none⟩

/-- **The buckets that a classifier's folders can be put into**, in the order of the tabs. -/
def Classifier.buckets (c : Classifier) : List Bucket := .guides :: c.platforms.map .platform ++ [.tools]

/-- **The groups in a bucket.** -/
def Buckets.groups (b : Buckets) : Bucket → List Group
  | .guides => b.guides
  | .platform name => (Table.get? name b.platforms).getD []
  | .tools => b.tools

theorem guidesTab_ne_toolsTab : guidesTab ≠ toolsTab := by decide

theorem Bucket.placement_inj {q r : Bucket} (h : q.placement = r.placement) : q = r := by
  cases q <;> cases r <;> simp only [placement, Placement.mk.injEq, reduceCtorEq, and_false, and_true] at h
  · rfl
  · exact absurd h guidesTab_ne_toolsTab
  · rw [Option.some.inj h.2]
  · exact absurd h.symm guidesTab_ne_toolsTab
  · rfl

namespace Classifier

theorem platform_mem {c : Classifier} {folder name : Text} (h : c.platform? folder = some name) :
    name ∈ c.platforms := by
  unfold platform? at h
  unfold platforms
  dsimp only at h
  split at h
  · rename_i category hfind
    cases h
    exact List.mem_append_left _ (List.mem_map.2 ⟨category, List.mem_of_find?_eq_some hfind, rfl⟩)
  · split at h
    · cases h
      exact List.mem_append_right _ (List.mem_singleton_self _)
    · cases h

/-- **Every folder's name leads to exactly one bucket.** -/
theorem exists_bucket (c : Classifier) (folder : Text) :
    ∃ q ∈ c.buckets, c.place folder = q.placement ∧ ∀ r : Bucket, c.place folder = r.placement → r = q := by
  have hat : ∃ q ∈ c.buckets, c.place folder = q.placement := by
    unfold place
    split
    · rename_i name hname
      exact ⟨.platform name, by simp [buckets, platform_mem hname], rfl⟩
    · split
      · exact ⟨.tools, by simp [buckets], rfl⟩
      · exact ⟨.guides, by simp [buckets], rfl⟩
  obtain ⟨q, hq, hplace⟩ := hat
  exact ⟨q, hq, hplace, fun r hr => Bucket.placement_inj (hr.symm.trans hplace)⟩

end Classifier

namespace Buckets

variable {b : Buckets} {g : Group}

/-- **A group put into a bucket** is added at its end, and to no other. -/
theorem groups_put (b : Buckets) (q : Bucket) (g : Group) (r : Bucket) :
    (b.put q.placement g).groups r = b.groups r ++ if q = r then [g] else [] := by
  cases q with
  | guides => cases r <;> simp [put, Bucket.placement, groups, guidesTab_ne_toolsTab]
  | tools => cases r <;> simp [put, Bucket.placement, groups]
  | platform name =>
    cases r with
    | guides => simp [put, Bucket.placement, groups, addToPlatform]
    | tools => simp [put, Bucket.placement, groups, addToPlatform]
    | platform other =>
      simp only [put, Bucket.placement, groups, addToPlatform, Bucket.platform.injEq]
      by_cases h : name = other
      · rw [h, if_pos rfl, Table.get?_set_self, Option.getD_some]
      · rw [if_neg h, Table.get?_set_ne _ _ fun he => h he.symm, List.append_nil]

theorem keys_put {place : Placement} (h : ∀ name, place.platform = some name → name ∈ Table.keys b.platforms) :
    Table.keys (b.put place g).platforms = Table.keys b.platforms := by
  unfold put
  split
  · rename_i name hname
    simp only [addToPlatform, Table.keys_set, if_pos (h name hname)]
  · split <;> rfl

theorem loosePages_put (b : Buckets) (place : Placement) (g : Group) : (b.put place g).loosePages = b.loosePages := by
  unfold put
  split
  · rfl
  · split <;> rfl

/-! ## Empty buckets -/

theorem keys_ofEntries {α : Type} : ∀ {l : List (Text × α)} {t : Table Text α}, (Table.keys t ++ l.map Prod.fst).Nodup →
    Table.keys (l.foldl (fun t e => Table.set e.1 e.2 t) t) = Table.keys t ++ l.map Prod.fst
  | [], t, _ => by simp
  | e :: l, t, h => by
    have hnew : e.1 ∉ Table.keys t := fun hm =>
      (List.nodup_append.1 h).2.2 _ hm e.1 List.mem_cons_self rfl
    have hkeys : Table.keys (Table.set e.1 e.2 t) = Table.keys t ++ [e.1] := by rw [Table.keys_set, if_neg hnew]
    rw [List.foldl_cons, keys_ofEntries (by rw [hkeys]; simpa using h), hkeys]
    simp

theorem keys_forPlatforms {platforms : List Text} (h : platforms.Nodup) :
    Table.keys (forPlatforms platforms).platforms = platforms := by
  have hfst : (platforms.map fun p => (p, ([] : List Group))).map Prod.fst = platforms := by
    rw [List.map_map]
    exact List.map_id platforms
  unfold forPlatforms Table.ofEntries
  rw [keys_ofEntries (by rw [hfst]; simpa [Table.keys] using h), hfst]
  rfl

theorem groups_forPlatforms (platforms : List Text) (q : Bucket) : (forPlatforms platforms).groups q = [] := by
  have hall : ∀ (l : List Text) (t : Table Text (List Group)) (name : Text), (Table.get? name t).getD [] = [] →
      (Table.get? name ((l.map fun p => (p, ([] : List Group))).foldl (fun t e => Table.set e.1 e.2 t) t)).getD [] = [] := by
    intro l
    induction l with
    | nil => exact fun t name h => h
    | cons p l ih =>
      intro t name h
      refine ih _ name ?_
      by_cases hp : name = p
      · rw [hp, Table.get?_set_self, Option.getD_some]
      · rw [Table.get?_set_ne _ _ hp, h]
  cases q with
  | guides => rfl
  | tools => rfl
  | platform name => exact hall platforms [] name rfl

/-! ## Tabs -/

/-- **The groups of kits, platform by platform.** -/
theorem platformGroups_eq (h : (Table.keys b.platforms).Nodup) :
    b.platformGroups =
      ((Table.keys b.platforms).filter fun name => !(b.groups (.platform name)).isEmpty).map fun name =>
      { label := name, items := (b.groups (.platform name)).map Group.toItem } := by
  have hvalue : ∀ e ∈ b.platforms, b.groups (.platform e.1) = e.2 := by
    intro e he
    rw [groups, (Table.get?_eq_some_iff_mem h).2 he, Option.getD_some]
  unfold platformGroups Table.keys
  rw [List.filter_map, List.map_map]
  have hfilter : b.platforms.filter ((fun name => !(b.groups (.platform name)).isEmpty) ∘ fun e => e.1) =
      b.platforms.filter fun e => !e.2.isEmpty :=
    List.filter_congr fun e he => by rw [Function.comp, hvalue e he]
  rw [hfilter]
  refine List.map_congr_left fun e he => ?_
  rw [Function.comp, hvalue e (List.mem_filter.1 he).1]

/-- **The tabs in order**, without the empty ones: the guides with the pages that stand alone in front, the kits with
one group for each platform that has any, and the tools. -/
theorem tabs_eq (h : (Table.keys b.platforms).Nodup) :
    b.tabs = [⟨guidesTab, (if b.loosePages = [] then [] else
          [{ label := gettingStartedLabel, items := b.loosePages.map .page }]) ++ b.groups .guides⟩,
        ⟨sdksTab, ((Table.keys b.platforms).filter fun name => !(b.groups (.platform name)).isEmpty).map fun name =>
          { label := name, items := (b.groups (.platform name)).map Group.toItem }⟩,
        ⟨toolsTab, b.groups .tools⟩].filter fun t => !t.groups.isEmpty := by
  have htab : ∀ (name : Text) (groups : List Group) (rest : List Tab),
      (⟨name, groups⟩ :: rest : List Tab).filter (fun t => !t.groups.isEmpty) =
        (tab? name groups).toList ++ rest.filter fun t => !t.groups.isEmpty := by
    intro name groups rest
    unfold tab?
    cases groups <;> simp
  have hguides : b.guideGroups = (if b.loosePages = [] then [] else
      [{ label := gettingStartedLabel, items := b.loosePages.map .page }]) ++ b.groups .guides := by
    unfold guideGroups gettingStarted
    by_cases hl : b.loosePages = [] <;> simp [hl, groups]
  rw [htab, htab, htab, ← hguides, ← platformGroups_eq h]
  unfold tabs groups
  cases tab? guidesTab b.guideGroups <;> cases tab? sdksTab b.platformGroups <;> cases tab? toolsTab b.tools <;> rfl

end Buckets
end DocFerry.Nav
