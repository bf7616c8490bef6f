import Mathlib.Data.List.Nodup
import Mathlib.Data.List.Pairwise
import DocFerry.Command.Execute
import DocFerry.Proofs.Site.Hollow
import DocFerry.Proofs.Site.Origins
import DocFerry.Proofs.Site.Partition
/-!
# The preview and the assembly

The assembly lists every page of a top-level folder at one place of the tabs (`listedAt_of_visit`): the one that its
name leads to, or the guides for the folder of guides.  The preview looks at the name alone, so it tells that place
except for a folder of guides whose name leads elsewhere and for a platform without a name (`preview_tells_landing`,
`preview_misplaces_guides`).
-/
namespace DocFerry.Site

open Files Nav

/-! ## Places in the tabs -/

/-- **The place at which a tab lists a group**; the groups of kits are their platforms. -/
def placeOf (t : Tab) (top : Nav.Group) : Placement := ⟨t.name, if t.name = sdksTab then some top.label else none⟩

/-- **A slug is listed at a place**, directly or in a nested group. -/
def ListedAt (tabs : List Tab) (place : Placement) (slug : Text) : Prop :=
  ∃ t ∈ tabs, ∃ top ∈ t.groups, placeOf t top = place ∧ slug ∈ top.slugs

variable {b : Buckets} {slug : Text}

theorem eq_of_mem_flatMap {α β : Type} {f : α → List β} {l : List α} (hn : (l.flatMap f).Nodup) {a a' : α} {x : β}
    (ha : a ∈ l) (ha' : a' ∈ l) (hx : x ∈ f a) (hx' : x ∈ f a') : a = a' := by
  by_contra hne
  have hsymm : Std.Symm (Function.onFun List.Disjoint f) := ⟨fun _ _ => List.disjoint_symm⟩
  exact (List.nodup_flatMap.1 hn).2.forall ha ha' hne hx hx'

/-- **Where no slug is listed twice, each has one place.** -/
theorem ListedAt.unique {tabs : List Tab} (hn : (tabs.flatMap Tab.slugs).Nodup) {place other : Placement}
    (h : ListedAt tabs place slug) (k : ListedAt tabs other slug) : other = place := by
  obtain ⟨t, ht, top, htop, rfl, hs⟩ := h
  obtain ⟨t', ht', top', htop', rfl, hs'⟩ := k
  obtain rfl : t = t' := eq_of_mem_flatMap hn ht ht' (List.mem_flatMap.2 ⟨top, htop, hs⟩)
    (List.mem_flatMap.2 ⟨top', htop', hs'⟩)
  have htab : (t.groups.flatMap Group.slugs).Nodup := (List.nodup_flatMap.1 hn).1 t ht
  rw [eq_of_mem_flatMap htab htop htop' hs hs']

theorem listedAt_of_tab (name : Text) (groups : List Nav.Group) {top : Nav.Group}
    (htab : Buckets.tab? name groups ∈ [Buckets.tab? guidesTab b.guideGroups, Buckets.tab? sdksTab b.platformGroups,
      Buckets.tab? toolsTab b.tools])
    (htop : top ∈ groups) (hs : slug ∈ top.slugs) : ListedAt b.tabs (placeOf ⟨name, groups⟩ top) slug := by
  have hsome : Buckets.tab? name groups = some ⟨name, groups⟩ := by
    rw [Buckets.tab?, if_neg (by simpa using List.ne_nil_of_mem htop)]
  exact ⟨_, List.mem_filterMap.2 ⟨_, htab, hsome⟩, top, htop, rfl, hs⟩

/-- **The slugs of a group in a bucket** are listed at the place that the bucket stands for. -/
theorem listedAt_of_bucket {q : Bucket} {g : Nav.Group} (hg : g ∈ b.groups q) (hs : slug ∈ g.slugs) :
    ListedAt b.tabs q.placement slug := by
  cases q with
  | guides => exact listedAt_of_tab guidesTab b.guideGroups (by simp) (List.mem_append_right _ hg) hs
  | tools => exact listedAt_of_tab toolsTab b.tools (by simp) hg hs
  | platform name =>
    rw [Buckets.groups] at hg
    cases hget : Table.get? name b.platforms with
    | none => simp [hget] at hg
    | some groups =>
      rw [hget, Option.getD_some] at hg
      have htop : (⟨name, groups.map Group.toItem, false⟩ : Nav.Group) ∈ b.platformGroups :=
        List.mem_map.2 ⟨(name, groups), List.mem_filter.2 ⟨Table.mem_of_get? hget, by simpa using List.ne_nil_of_mem hg⟩,
          rfl⟩
      refine listedAt_of_tab sdksTab b.platformGroups (by simp) htop ?_
      rw [Group.slugs, slugsOf_toItem]
      exact List.mem_flatMap.2 ⟨g, hg, hs⟩

/-- **A page that stands alone** is listed among the guides. -/
theorem listedAt_of_loosePages (h : slug ∈ b.loosePages) : ListedAt b.tabs ⟨guidesTab, none⟩ slug := by
  have hsome : b.gettingStarted = some { label := gettingStartedLabel, items := b.loosePages.map .page } := by
    rw [Buckets.gettingStarted, if_neg (by simpa using List.ne_nil_of_mem h)]
  refine listedAt_of_tab guidesTab b.guideGroups (by simp) (List.mem_append_left _ (Option.mem_toList.2 hsome)) ?_
  rwa [Group.slugs, slugsOf_page]

/-! ## Where the assembly lists a folder -/

/-- **Where the pages of a top-level folder are listed**: with the guides if it is the folder of guides, else where its
name leads to. -/
def landing (c : Classifier) (name : Text) : Placement :=
  if Text.lower name = guidesFolder then ⟨guidesTab, none⟩ else c.place name

variable {c : Classifier}

/-- **Every slug of a folder that has been visited** is listed where the folder lands. -/
theorem listedAt_of_visit {visits : List (Sibling × Yield)} {s : Sibling} {g : Nav.Group}
    (hm : (s, .folder g) ∈ visits) (hs : slug ∈ g.slugs) :
    ListedAt (visits.foldl (fun b v => receive c b v.1.name v.2) (.forPlatforms c.platforms)).tabs (landing c s.name)
      slug := by
  have hbucket : ∀ {q : Bucket} {h : Nav.Group}, h ∈ groupsFor c q s.name (.folder g) →
      h ∈ (visits.foldl (fun b v => receive c b v.1.name v.2) (.forPlatforms c.platforms)).groups q := by
    intro q h hh
    rw [groups_receiveAll]
    exact List.mem_append_right _ (List.mem_flatMap.2 ⟨_, hm, hh⟩)
  unfold landing
  split
  · rename_i hguides
    -- The pages of the folder of guides stand alone, and its groups are groups of the guides.
    rcases List.mem_append.1 ((slugsOf_perm g.items).mem_iff.1 hs) with hs | hs
    · exact listedAt_of_loosePages (mem_loosePages_receiveAll.2 (.inr ⟨_, hm, by rwa [slugsFor, if_pos hguides]⟩))
    · obtain ⟨h, hh, hs⟩ := List.mem_flatMap.1 hs
      exact listedAt_of_bucket (q := .guides) (hbucket (by rwa [groupsFor, if_pos hguides, if_pos rfl])) hs
  · rename_i hguides
    obtain ⟨q, _, hplace, _⟩ := c.exists_bucket s.name
    have hne : g.isEmpty = false := Bool.eq_false_iff.2 fun he => by
      rw [Group.slugs, List.isEmpty_iff.1 he] at hs
      cases hs
    rw [hplace]
    refine listedAt_of_bucket (hbucket ?_) hs
    rw [groupsFor, if_neg hguides, if_pos ⟨hplace, hne⟩]
    exact List.mem_singleton_self g

theorem foldl_joinPaths : ∀ {dirs more : List Text}, (∀ name ∈ dirs ++ more, IsEntryName name) →
    more.foldl joinPaths (Text.join ['/'] dirs) = Text.join ['/'] (dirs ++ more)
  | dirs, [], _ => by simp
  | dirs, name :: more, h => by
    have hname : IsEntryName name := h name (by simp)
    rw [List.foldl_cons, joinPaths_join dirs (fun hc => hname.1.2 (List.mem_of_head? hc))
      fun n hn => (h n (List.mem_append_left _ hn)).1, foldl_joinPaths (by simpa using h), List.append_assoc,
      List.singleton_append]

theorem Address.listed_cons {name : Text} {a : Address} (ha : a ≠ []) (h : ∀ n ∈ name :: a.folders, IsEntryName n) :
    Address.listed (name :: a) = Nav.slug (a.folders.foldl joinPaths name) (Path.baseName a.file) := by
  have hjoin : a.folders.foldl joinPaths name = Text.join ['/'] (name :: a.folders) := @foldl_joinPaths [name] _ h
  rw [listed, hjoin, folders, folders, List.dropLast_cons_of_ne_nil ha, file, file, List.getLast?_cons_of_ne_nil ha]

/-- **A folder from which a page is reached** is visited, and its group lists the page. -/
theorem exists_visit {convert : Converter} {output docs : Path} {visits : List (Sibling × Yield)} {w w' : World}
    (hs : w.disk.Sound) (hproper : output.Proper) (hentries : siblings w.disk docs = .ok (visits.map Prod.fst))
    (hvisits : Visits convert output visits w w') {name : Text} (hname : IsEntryName name)
    (hshown : isHidden name = false) (hshared : Text.lower name ≠ partialsFolder) {a : Address}
    (ha : PageAt w.disk (docs.child name) a) :
    ∃ s g, (s, .folder g) ∈ visits ∧ s.name = name ∧ Address.listed (name :: a) ∈ g.slugs := by
  obtain ⟨s, hm, rfl, hpath, hdir⟩ := entry_on_the_way hs hentries hname (descend_child docs name a ▸ ha.file)
  obtain ⟨⟨s, y⟩, hv, rfl⟩ := List.mem_map.1 hm
  have hfolder : s.isDirectory = true := hdir.2 ha.ne_nil
  obtain ⟨u, u', hemits, hvisit⟩ := hvisits.worlds (kept_emits hproper)
    (fun v hv => siblings_entryNames hs hentries v.1 (List.mem_map_of_mem hv)) _ hv
  obtain ⟨area, hg⟩ := hemits.grows hs
  cases hvisit with
  | skipped hskip => simp [isSkipped, isIgnored_eq_isHidden, hshown, hshared] at hskip
  | other _ hfile => simp [hfolder] at hfile
  | page _ hpage => simp [Sibling.isPage, hfolder] at hpage
  | folder _ _ hw =>
    have hlisted := walkWithin_lists hproper _ (hg.sound hs)
      ⟨ha.names, ha.page, hpath ▸ Disk.stable_hasFile hg ha.file⟩ (walk_eq_ok hw)
    refine ⟨s, _, hv, rfl, ?_⟩
    rw [Address.listed_cons ha.ne_nil (List.forall_mem_cons.2
      ⟨hname, fun n hn => (ha.names n (List.dropLast_subset a hn)).1⟩)]
    exact hlisted

/-! ## What the preview tells -/

/-- **A place as the preview words it.** -/
def placeInWords (name : Text) (place : Placement) : Text :=
  Command.line (name ++ ": ".toList ++ place.tab ++
    match place.platform with
    | some platform => " / ".toList ++ platform
    | none => [])

/-- **The preview tells where a folder lands**, if its name leads there and not to a platform without a name. -/
theorem placeLine_eq_iff (c : Classifier) (name : Text) :
    Command.placeLine c name = placeInWords name (landing c name) ↔
      (Text.lower name = guidesFolder → c.place name = ⟨guidesTab, none⟩) ∧ (c.place name).platform ≠ some [] := by
  obtain ⟨q, _, hplace, _⟩ := c.exists_bucket name
  rw [Command.placeLine, placeInWords, landing, hplace]
  by_cases hguides : Text.lower name = guidesFolder
  · cases q with
    | guides => simp [hguides, Bucket.placement]
    | tools => simp [hguides, Bucket.placement, Command.line, guidesTab_ne_toolsTab.symm]
    | platform platform =>
      have hne : ∀ s t : Text, sdksTab ++ s ≠ guidesTab ++ t := fun s t h => by
        have hfirst : some 'S' = some 'G' := congrArg List.head? h
        cases hfirst
      simp [hguides, Bucket.placement, Command.line, hne]
  · cases q with
    | guides => simp [hguides, Bucket.placement]
    | tools => simp [hguides, Bucket.placement]
    | platform platform =>
      cases platform <;> simp [hguides, Bucket.placement, Command.line]

/-- **The preview tells where the pages of a folder are listed**, but for two exceptions.  An assembly that returns
lists every page of a top-level folder that is not left out where the folder lands, and nowhere else if no slug is
listed twice.  The preview of the folder's name with the same settings tells that place, unless the folder is that of
guides and its name leads elsewhere, or the name leads to a platform without a name. -/
theorem preview_tells_landing {convert : Converter} {output docs : Path} {config : Option Path} {d : Disk}
    {settings : Settings} {b : Buckets} {w w' : World} {name : Text} (hs : w.disk.Sound) (hproper : output.Proper)
    (hname : IsEntryName name) (hshown : isHidden name = false) (hshared : Text.lower name ≠ partialsFolder)
    (hsettings : readSettings d config config.isSome = .ok settings)
    (hrun : assemble convert output settings.classifier docs w = (.ok b, w')) :
    (∀ a, PageAt w.disk (docs.child name) a →
      ListedAt b.tabs (landing settings.classifier name) (Address.listed (name :: a)) ∧
      ((b.tabs.flatMap Tab.slugs).Nodup →
        ∀ place, ListedAt b.tabs place (Address.listed (name :: a)) → place = landing settings.classifier name)) ∧
    ∃ text, Command.execute (.classify [name] config) d = (.ok { exit := 0, stdout := text }, d) ∧
      (text = placeInWords name (landing settings.classifier name) ↔
        (Text.lower name = guidesFolder → settings.classifier.place name = ⟨guidesTab, none⟩) ∧
          (settings.classifier.place name).platform ≠ some []) := by
  obtain ⟨visits, hentries, hvisits, rfl⟩ := assemble_eq_ok hrun
  refine ⟨fun a ha => ?_, Command.placeLine settings.classifier name, ?_, placeLine_eq_iff _ name⟩
  · obtain ⟨s, g, hm, rfl, hslug⟩ := exists_visit hs hproper hentries hvisits hname hshown hshared ha
    have hlisted := listedAt_of_visit (c := settings.classifier) hm hslug
    exact ⟨hlisted, fun hn place hplace => hlisted.unique hn hplace⟩
  · simp [Command.execute, Command.preview, hsettings]

theorem preview_tells_landing_sortedSite : ∃ b w',
    assemble .standard (.word "out") .standard (.word "docs") { disk := sortedSite } = (.ok b, w') ∧
      ListedAt b.tabs ⟨sdksTab, some "Mobile".toList⟩ "android/b".toList ∧
      Command.execute (.classify ["android".toList] none) sortedSite =
        (.ok { exit := 0, stdout := "android: SDKs / Mobile\n".toList }, sortedSite) := by
  obtain ⟨b, w', hrun⟩ := Action.exists_eq_ok (show (assemble .standard (.word "out") .standard (.word "docs")
    { disk := sortedSite }).1.isOk = true by decide +kernel)
  have htree : sortedSite.IsTree := ⟨by decide, by decide, by decide, by decide⟩
  have hsettings : readSettings sortedSite none false = .ok {} := readSettings_absent (by rfl)
  obtain ⟨hpages, text, htext, hiff⟩ := preview_tells_landing (w := { disk := sortedSite }) (d := sortedSite) htree.sound
    (Path.ofText_proper _) (isEntryName_of_isFileName (show isFileName "android".toList = true by decide)) (by decide)
    (by decide) hsettings hrun
  have hpage : PageAt sortedSite (Path.child (.word "docs") "android".toList) ["b.md".toList] :=
    ⟨List.forall_mem_singleton.2 ⟨isEntryName_of_isFileName (by decide), by decide⟩, by decide, _, _, by rfl⟩
  refine ⟨b, w', hrun, (hpages _ hpage).1, ?_⟩
  rw [htext, hiff.2 (by decide)]
  rfl

/-- **A site whose only page is in the folder of guides.** -/
def guidesSite : Disk where
  entries := [(["docs"], .directory), (["docs", "guides"], .directory), (["docs", "guides", "a.md"], .file [0x78])].map
    fun e => (e.1.map String.toList, e.2)

/-- **The preview tells another place for the folder of guides**: a keyword for kits occurs in its name. -/
theorem preview_misplaces_guides : ∃ b w',
    assemble .standard (.word "out") .standard (.word "docs") { disk := guidesSite } = (.ok b, w') ∧
      PageAt guidesSite (Path.child (.word "docs") "guides".toList) ["a.md".toList] ∧
      (∀ place, ListedAt b.tabs place (Address.listed ["guides".toList, "a.md".toList]) ↔ place = ⟨guidesTab, none⟩) ∧
      Command.execute (.classify ["guides".toList] none) guidesSite =
        (.ok { exit := 0, stdout := "guides: SDKs / Other SDKs\n".toList }, guidesSite) := by
  obtain ⟨b, w', hrun⟩ := Action.exists_eq_ok (show (assemble .standard (.word "out") .standard (.word "docs")
    { disk := guidesSite }).1.isOk = true by decide +kernel)
  have hmade : ((assemble .standard (.word "out") .standard (.word "docs") { disk := guidesSite }).1.toOption.map
      fun b => (b.loosePages, b.tabs.flatMap Tab.slugs)) = some (["guides/a".toList], ["guides/a".toList]) := by
    decide +kernel
  rw [hrun] at hmade
  obtain ⟨hloose, hslugs⟩ := Prod.mk.inj (Option.some.inj hmade)
  have hlisted : ListedAt b.tabs ⟨guidesTab, none⟩ (Address.listed ["guides".toList, "a.md".toList]) :=
    listedAt_of_loosePages (hloose ▸ by decide)
  refine ⟨b, w', hrun, ⟨List.forall_mem_singleton.2 ⟨isEntryName_of_isFileName (by decide), by decide⟩, by decide, _, _,
    by rfl⟩, fun place => ⟨hlisted.unique (hslugs ▸ by decide), ?_⟩, ?_⟩
  · rintro rfl
    exact hlisted
  · have hsettings : readSettings guidesSite none false = .ok {} := readSettings_absent (by rfl)
    simp only [Command.execute, Command.preview, Option.isSome_none, hsettings]
    rfl

end DocFerry.Site
