import DocFerry.Proofs.Site.Leaves
/-!
# The top-level folders among the buckets

What a bucket holds is read off what the entries of the root yield, in their order (`groups_receive`,
`loosePages_receive`): the group of a folder goes to the one bucket that its name leads to, the folder of guides is
replaced by its groups and its pages, and the pages of the root stand alone with those of the guides.  So the folders
with documents are distributed over the buckets, each once and in the order of the root (`assemble_distributes`).
-/
namespace DocFerry.Site

open Files Nav

/-- **The groups that an entry of the root adds to a bucket.** -/
def groupsFor (c : Classifier) (q : Bucket) (name : Text) : Yield → List Nav.Group
  | .nothing | .page _ => []
  | .folder g =>
    if Text.lower name = guidesFolder then if q = .guides then g.items.filterMap Item.group? else []
    else if c.place name = q.placement ∧ g.isEmpty = false then [g] else []

/-- **The slugs that an entry of the root adds to the pages that stand alone.** -/
def slugsFor (name : Text) : Yield → List Text
  | .nothing => []
  | .page slug => [slug]
  | .folder g => if Text.lower name = guidesFolder then g.pages else []

variable {c : Classifier} {b : Buckets}

/-! ## One entry -/

theorem groups_receive (c : Classifier) (b : Buckets) (name : Text) (y : Yield) (q : Bucket) :
    (receive c b name y).groups q = b.groups q ++ groupsFor c q name y := by
  cases y with
  | nothing => exact (List.append_nil _).symm
  | page slug =>
    rw [receive, groupsFor, List.append_nil, Buckets.addLoose]
    split
    · rfl
    · cases q <;> rfl
  | folder g =>
    simp only [receive, placeGroup, groupsFor]
    cases he : g.isEmpty with
    | true =>
      have hitems : g.items = [] := List.isEmpty_iff.1 he
      simp [hitems]
    | false =>
      rw [if_neg (by simp)]
      split
      · cases q <;> simp [Buckets.hoist, Buckets.groups]
      · obtain ⟨r, _, hr, hunique⟩ := c.exists_bucket name
        rw [hr, Buckets.groups_put]
        congr 2
        refine propext ⟨fun h => ⟨by rw [h], rfl⟩, fun h => ?_⟩
        exact (hunique q (hr.trans h.1)).symm

theorem keys_receive (name : Text) (y : Yield) (h : Table.keys b.platforms = c.platforms) :
    Table.keys (receive c b name y).platforms = c.platforms := by
  cases y with
  | nothing => exact h
  | page slug =>
    rw [receive, Buckets.addLoose]
    split <;> exact h
  | folder g =>
    rw [receive, placeGroup]
    split
    · exact h
    · split
      · exact h
      · rw [Buckets.keys_put, h]
        intro platform hp
        rw [h]
        exact Classifier.platform_mem (c.place_platform name ▸ hp)

/-! ## Pages that stand alone -/

theorem mem_loosePages_receive {name slug : Text} {y : Yield} :
    slug ∈ (receive c b name y).loosePages ↔ slug ∈ b.loosePages ∨ slug ∈ slugsFor name y := by
  cases y with
  | nothing => simp [receive, slugsFor]
  | page other =>
    rw [receive, Buckets.addLoose, slugsFor]
    split
    · rename_i hm
      exact ⟨.inl, fun h => h.elim id fun h => List.mem_singleton.1 h ▸ hm⟩
    · exact List.mem_append
  | folder g =>
    rw [receive, placeGroup, slugsFor]
    by_cases hguides : Text.lower name = guidesFolder
    · rw [if_pos hguides, if_pos hguides]
      split
      · rename_i he
        simp [Group.pages, List.isEmpty_iff.1 he]
      · exact List.mem_append
    · rw [if_neg hguides, if_neg hguides]
      split
      · simp
      · simp [Buckets.loosePages_put]

theorem mem_loosePages_receiveAll {slug : Text} : ∀ {visits : List (Sibling × Yield)} {b : Buckets},
    slug ∈ (visits.foldl (fun b v => receive c b v.1.name v.2) b).loosePages ↔
      slug ∈ b.loosePages ∨ ∃ v ∈ visits, slug ∈ slugsFor v.1.name v.2
  | [], _ => by simp
  | v :: visits, b => by
    rw [List.foldl_cons, mem_loosePages_receiveAll, mem_loosePages_receive, or_assoc]
    simp

/-- **The folder that a slug begins with**, none for the slug of a page in the root. -/
def slugFolder? (slug : Text) : Option Text := if '/' ∈ slug then some (slug.takeWhile (· != '/')) else none

/-- **What an entry of the root may yield**: the slug of a page in the root, or a group that lists each of its pages
once and by a slug that begins with the name of the folder. -/
def IsOwn (name : Text) : Yield → Prop
  | .nothing => True
  | .page slug => slugFolder? slug = none
  | .folder g => Text.lower name = guidesFolder → g.pages.Nodup ∧ ∀ slug ∈ g.pages, slugFolder? slug = some name

theorem eraseDups_append_of_new {as bs : List Text} (hnodup : bs.Nodup) (hnew : ∀ b ∈ bs, b ∉ as) :
    (as ++ bs).eraseDups = as.eraseDups ++ bs := by
  have hself : ∀ {bs : List Text}, bs.Nodup → bs.eraseDups = bs := by
    intro bs h
    induction bs with
    | nil => rfl
    | cons x bs ih =>
      obtain ⟨hx, hrest⟩ := List.nodup_cons.1 h
      have hfilter : (bs.filter fun y => !y == x) = bs :=
        List.filter_eq_self.2 fun y hy => by simpa using fun he : y = x => hx (he ▸ hy)
      rw [List.eraseDups_cons, hfilter, ih hrest]
  have hremove : bs.removeAll as = bs := List.filter_eq_self.2 fun y hy => by simpa using hnew y hy
  rw [List.eraseDups_append, hremove, hself hnodup]

theorem loosePages_receive_one {name : Text} {y : Yield} (hown : IsOwn name y) {known : List Text}
    (hb : b.loosePages = known.eraseDups) (hnew : ∀ slug ∈ known, slugFolder? slug ≠ some name) :
    (receive c b name y).loosePages = (known ++ slugsFor name y).eraseDups := by
  cases y with
  | nothing => simpa [receive, slugsFor] using hb
  | page slug =>
    rw [receive, slugsFor, Buckets.addLoose, hb]
    by_cases hm : slug ∈ known
    · have hremove : [slug].removeAll known = [] := by simp [List.removeAll, hm]
      rw [if_pos (List.mem_eraseDups.2 hm), hb, List.eraseDups_append, hremove]
      simp
    · rw [if_neg fun h => hm (List.mem_eraseDups.1 h),
        eraseDups_append_of_new (by simp) fun s hs => by rwa [List.mem_singleton.1 hs]]
  | folder g =>
    simp only [receive, placeGroup, slugsFor]
    by_cases hguides : Text.lower name = guidesFolder
    · obtain ⟨hnodup, hfolder⟩ := hown hguides
      rw [if_pos hguides, if_pos hguides, eraseDups_append_of_new hnodup fun slug hs hk =>
        hnew slug hk (hfolder slug hs), ← hb]
      split
      · rename_i he
        rw [Group.pages, List.isEmpty_iff.1 he, List.filterMap_nil, List.append_nil]
      · rfl
    · rw [if_neg hguides, if_neg hguides, List.append_nil, ← hb]
      split
      · rfl
      · exact Buckets.loosePages_put b _ g

/-- **The pages that stand alone** are those of the root and of the folders of guides, each listed once. -/
theorem loosePages_receive : ∀ {visits : List (Sibling × Yield)} {b : Buckets} {known : List Text},
    (∀ v ∈ visits, IsOwn v.1.name v.2) → (visits.map Prod.fst).Pairwise (fun s t => s.name ≠ t.name) →
    b.loosePages = known.eraseDups → (∀ v ∈ visits, ∀ slug ∈ known, slugFolder? slug ≠ some v.1.name) →
    (visits.foldl (fun b v => receive c b v.1.name v.2) b).loosePages =
      (known ++ visits.flatMap fun v => slugsFor v.1.name v.2).eraseDups
  | [], _, _, _, _, hb, _ => by simpa using hb
  | v :: visits, b, known, hown, hnames, hb, hnew => by
    obtain ⟨hfirst, hrest⟩ := List.pairwise_cons.1 hnames
    have hone := loosePages_receive_one (c := c) (hown v List.mem_cons_self) hb (hnew v List.mem_cons_self)
    rw [List.foldl_cons, loosePages_receive (fun u hu => hown u (List.mem_cons_of_mem _ hu)) hrest hone ?_,
      List.flatMap_cons, List.append_assoc]
    -- What this entry adds is not of the folder of a later one.
    intro u hu slug hs
    rcases List.mem_append.1 hs with hs | hs
    · exact hnew u (List.mem_cons_of_mem _ hu) slug hs
    · have hne : v.1.name ≠ u.1.name := hfirst u.1 (List.mem_map_of_mem hu)
      have hv := hown v List.mem_cons_self
      obtain ⟨s, y⟩ := v
      cases y with
      | nothing => exact absurd hs (by simp [slugsFor])
      | page other =>
        rw [slugsFor, List.mem_singleton] at hs
        rw [hs, show slugFolder? other = none from hv]
        simp
      | folder g =>
        rw [slugsFor] at hs
        split at hs
        · rename_i hguides
          rw [(hv hguides).2 slug hs]
          exact fun he => hne (Option.some.inj he)
        · exact absurd hs (by simp)

/-! ## The assembly -/

theorem slugFolder?_join {name base : Text} (hn : '/' ∉ name) :
    slugFolder? (Text.join ['/'] [name, base]) = some name := by
  have hjoin : Text.join ['/'] [name, base] = name ++ '/' :: base := by simp [Text.join]
  have hall : ∀ c ∈ name, (c != '/') = true := fun c hc => bne_iff_ne.2 fun he => hn (he ▸ hc)
  rw [hjoin, slugFolder?, if_pos (by simp), List.takeWhile_append_of_pos hall,
    List.takeWhile_cons_of_neg (by simp), List.append_nil]

/-- **What an entry of the root yields is its own.** -/
theorem isOwn_of_visit {convert : Converter} {output : Path} {s : Sibling} {y : Yield} {w w' : World}
    (hs : w.disk.Sound) (hname : IsEntryName s.name) (hpath : s.path.name = s.name)
    (h : Visit convert output s y w w') : IsOwn s.name y := by
  cases h with
  | skipped => exact trivial
  | other => exact trivial
  | page _ _ hw =>
    have hslug := @slug_join [] s.name (by simp) (by simp) hname.1.2
    rw [show Text.join ['/'] [] = [] from rfl] at hslug
    rw [IsOwn, (hasFile_of_writePage hw).2, hpath, hslug, slugFolder?, if_neg]
    intro hc
    exact hname.1.2 (mem_of_mem_baseName (by simpa [Address.slug, Address.folders, Address.file, Text.join] using hc))
  | folder _ _ hw =>
    intro hguides
    obtain ⟨hnodup, hpages⟩ := walkWithin_pages hs (walk_eq_ok hw)
    refine ⟨hnodup, fun slug hslug => ?_⟩
    obtain ⟨file, hfile, rfl⟩ := hpages slug hslug
    have hback : '\\' ∉ s.name := fun hc => by
      have hlower := hguides ▸ mem_lower (by decide) (by decide) hc
      revert hlower
      decide
    have hjoin := @slug_join [s.name] file (by simpa using hname) (by simpa using hback) hfile
    rw [show Text.join ['/'] [s.name] = s.name from rfl] at hjoin
    rw [hjoin]
    exact slugFolder?_join hname.1.2

/-- **The buckets hold what the entries of the root yield**, in the order of the entries. -/
structure Distributes (c : Classifier) (visits : List (Sibling × Yield)) (b : Buckets) : Prop where
  groups : ∀ q, b.groups q = visits.flatMap fun v => groupsFor c q v.1.name v.2
  platforms : Table.keys b.platforms = c.platforms
  loosePages : b.loosePages = (visits.flatMap fun v => slugsFor v.1.name v.2).eraseDups
  tabs : b.tabs = [⟨guidesTab, (if b.loosePages = [] then [] else
        [{ label := gettingStartedLabel, items := b.loosePages.map .page }]) ++ b.groups .guides⟩,
      ⟨sdksTab, (c.platforms.filter fun name => !(b.groups (.platform name)).isEmpty).map fun name =>
        { label := name, items := (b.groups (.platform name)).map Group.toItem }⟩,
      ⟨toolsTab, b.groups .tools⟩].filter fun t => !t.groups.isEmpty

theorem groups_receiveAll (c : Classifier) (q : Bucket) : ∀ (visits : List (Sibling × Yield)) (b : Buckets),
    (visits.foldl (fun b v => receive c b v.1.name v.2) b).groups q =
      b.groups q ++ visits.flatMap fun v => groupsFor c q v.1.name v.2
  | [], b => by simp
  | v :: visits, b => by
    rw [List.foldl_cons, groups_receiveAll c q visits, groups_receive, List.flatMap_cons, List.append_assoc]

theorem distributes_receive {c : Classifier} {visits : List (Sibling × Yield)} (hc : c.platforms.Nodup)
    (hown : ∀ v ∈ visits, IsOwn v.1.name v.2) (hnames : (visits.map Prod.fst).Pairwise fun s t => s.name ≠ t.name) :
    Distributes c visits (visits.foldl (fun b v => receive c b v.1.name v.2) (.forPlatforms c.platforms)) := by
  have hkeys : ∀ (visits : List (Sibling × Yield)) (b : Buckets), Table.keys b.platforms = c.platforms →
      Table.keys (visits.foldl (fun b v => receive c b v.1.name v.2) b).platforms = c.platforms := by
    intro visits
    induction visits with
    | nil => exact fun b h => h
    | cons v visits ih => exact fun b h => ih _ (keys_receive _ _ h)
  have hplatforms := hkeys visits _ (Buckets.keys_forPlatforms hc)
  refine ⟨fun q => ?_, hplatforms, ?_, ?_⟩
  · rw [groups_receiveAll, Buckets.groups_forPlatforms, List.nil_append]
  · exact @loosePages_receive c visits _ [] hown hnames rfl (by simp)
  · rw [Buckets.tabs_eq (by rwa [hplatforms]), hplatforms]

section Folder

variable {convert : Converter} {output docs : Path} {d : Disk} {s : Sibling} {g : Nav.Group} {w w' : World}

theorem Fits.walk_eq_ok {l : Location} (h : Fits d docs l s)
    (hw : walk convert output s.path s.name w = (.ok g, w')) :
    walkWithin convert output w.disk.depthBound (docs.descend [s.name]) (Text.join ['/'] [s.name]) w = (.ok g, w') := by
  rw [h.path] at hw
  exact Site.walk_eq_ok hw

theorem isEmpty_of_document (htree : d.IsTree) (hdocs : d.LinkFree (d.settle docs)) (hp : output.Proper)
    (hfits : Fits d docs (d.settle docs) s) (hg : ∃ area, d.Grows area w.disk) {a : Address}
    (ha : IsDocument d (d.settle docs) (s.name :: a)) (h : Visit convert output s (.folder g) w w') :
    g.isEmpty = false := by
  cases h with
  | folder _ hdir hw =>
    have hne : a ≠ [] := by
      rintro rfl
      obtain ⟨bytes, hf⟩ := ha.file
      rw [hfits.folder hdir] at hf
      cases hf
    have hitems := walkWithin_items_ne_nil htree hdocs hp _ hne ha hg (hfits.walk_eq_ok hw)
    simpa [Group.isEmpty] using hitems

theorem document_of_isEmpty (h : Apart d docs output) (hg : d.Grows (.below (d.settle output)) w.disk)
    (hfits : Fits d docs (d.settle docs) s) (hname : IsEntryName s.name)
    (hvisit : Visit convert output s (.folder g) w w') (hne : g.isEmpty = false) :
    ∃ a, IsDocument d (d.settle docs) (s.name :: a) := by
  by_contra hnone
  cases hvisit with
  | folder hskip _ hw =>
    have hshown : isHidden s.name = false := by
      simp only [isSkipped, Bool.or_eq_false_iff, isIgnored_eq_isHidden] at hskip
      exact hskip.1
    obtain ⟨hitems, _⟩ := walkWithin_of_no_document h.docs_free _ hg.links (hg.sound h.sound)
      (by simpa using ⟨hname, hshown⟩) (fun a ha hdoc => by
        obtain ⟨rest, rfl⟩ := ha
        exact hnone ⟨rest, (h.isDocument_iff hg).1 hdoc⟩) (hfits.walk_eq_ok hw)
    simp [Group.isEmpty, hitems] at hne

end Folder

/-- **The top-level folders are distributed over the buckets.**  An assembly that returns has visited the entries of
the root in order of rank and name.  Each bucket holds in that order the groups of the folders that its place is for,
and the guides also those that a folder of guides is made of; a folder's name leads to exactly one bucket.  The pages
of the root and of the folders of guides stand alone, each listed once.  A folder with a document in it leaves a group
with items, and where the output folder is apart from the documents no other folder does. -/
theorem assemble_distributes {convert : Converter} {output docs : Path} {c : Classifier} {b : Buckets} {w w' : World}
    (htree : w.disk.IsTree) (hproper : output.Proper) (hdocs : w.disk.LinkFree (w.disk.settle docs))
    (hkeys : (Table.keys c.categories).Nodup) (hother : otherSdks ∉ Table.keys c.categories)
    (hrun : assemble convert output c docs w = (.ok b, w')) :
    ∃ visits : List (Sibling × Yield),
      Lists w.disk docs (w.disk.settle docs) (visits.map Prod.fst) ∧ Visits convert output visits w w' ∧
      Distributes c visits b ∧
      (∀ s slug, (s, .page slug) ∈ visits → slug = Path.baseName s.name) ∧
      ∀ s g, (s, .folder g) ∈ visits →
        (∃ q ∈ c.buckets, c.place s.name = q.placement ∧ ∀ r : Bucket, c.place s.name = r.placement → r = q) ∧
        ((∃ a, IsDocument w.disk (w.disk.settle docs) (s.name :: a)) → g.isEmpty = false) ∧
        (Apart w.disk docs output → g.isEmpty = false →
          ∃ a, IsDocument w.disk (w.disk.settle docs) (s.name :: a)) := by
  obtain ⟨visits, hentries, hvisits, rfl⟩ := assemble_eq_ok hrun
  have hsound := htree.sound
  have hlists : Lists w.disk docs (w.disk.settle docs) (visits.map Prod.fst) :=
    siblings_eq_ok hsound (fun m hm => (Disk.settle_of_find (.refl _) hsound.up_not_mem_here hm).symm) hdocs hentries
  have hnames : ∀ v ∈ visits, IsEntryName v.1.name ∧ v.1.path.name = v.1.name := fun v hv =>
    siblings_entryNames hsound hentries v.1 (List.mem_map_of_mem hv)
  have hworlds := hvisits.worlds (kept_emits hproper) hnames
  have hplatforms : c.platforms.Nodup := List.nodup_append.2 ⟨hkeys, by simp, fun p hp q hq he =>
    hother (List.mem_singleton.1 hq ▸ he ▸ hp)⟩
  refine ⟨visits, hlists, hvisits, distributes_receive hplatforms (fun v hv => ?_)
    (hlists.order.imp fun h => h.2), fun s slug hm => ?_, fun s g hm => ⟨c.exists_bucket _, ?_, fun hapart hne => ?_⟩⟩
  · obtain ⟨u, u', hemits, hvisit⟩ := hworlds v hv
    obtain ⟨area, hg⟩ := hemits.grows hsound
    exact isOwn_of_visit (hg.sound hsound) (hnames v hv).1 (hnames v hv).2 hvisit
  · obtain ⟨u, u', _, hvisit⟩ := hworlds _ hm
    obtain ⟨hname, hpath⟩ := hnames _ hm
    cases hvisit with
    | page _ _ hw =>
      have hslug := @slug_join [] s.name (by simp) (by simp) hname.1.2
      rw [(hasFile_of_writePage hw).2, hpath]
      simpa [Address.slug, Address.folders, Address.file, Text.join] using hslug
  · rintro ⟨a, ha⟩
    obtain ⟨u, u', hemits, hvisit⟩ := hworlds _ hm
    exact isEmpty_of_document htree hdocs hproper (hlists.fits s (List.mem_map_of_mem hm)) (hemits.grows hsound) ha hvisit
  · obtain ⟨u, u', hemits, hvisit⟩ := hworlds _ hm
    have hg := hemits.below hsound hapart.output_free
    exact document_of_isEmpty hapart hg (hlists.fits s (List.mem_map_of_mem hm)) (hnames _ hm).1 hvisit hne

/-- **A site with folders of every kind**: one of guides with a page and a folder, one of a kit, one of a tool, one of
shared pages, one that is plain and one that is empty, beside two pages that share a slug. -/
def sortedSite : Disk where
  entries := [(["docs"], .directory), (["docs", "a.md"], .file [0x61]), (["docs", "a.mdx"], .file [0x62]),
    (["docs", "android"], .directory), (["docs", "android", "b.md"], .file [0x63]), (["docs", "cli"], .directory),
    (["docs", "cli", "c.md"], .file [0x64]), (["docs", "empty"], .directory), (["docs", "guides"], .directory),
    (["docs", "guides", "more"], .directory), (["docs", "guides", "more", "d.md"], .file [0x65]),
    (["docs", "guides", "setup.md"], .file [0x66]), (["docs", "intro"], .directory),
    (["docs", "intro", "e.md"], .file [0x67]), (["docs", "partials"], .directory),
    (["docs", "partials", "f.md"], .file [0x68])].map fun e => (e.1.map String.toList, e.2)

theorem assemble_distributes_sortedSite : ∃ b w',
    assemble (·.raw) (.word "out") .standard (.word "docs") { disk := sortedSite } = (.ok b, w') ∧
      b.loosePages = ["a".toList, "guides/setup".toList] ∧
      ∃ visits, Visits (·.raw) (.word "out") visits { disk := sortedSite } w' ∧ Distributes .standard visits b := by
  obtain ⟨b, w', hrun⟩ := Action.exists_eq_ok (show (assemble (·.raw) (.word "out") .standard (.word "docs")
    { disk := sortedSite }).1.isOk = true by decide +kernel)
  have hloose : ((assemble (·.raw) (.word "out") .standard (.word "docs") { disk := sortedSite }).1.toOption.map
    Buckets.loosePages) = some ["a".toList, "guides/setup".toList] := by decide +kernel
  have htree : sortedSite.IsTree := ⟨by decide, by decide, by decide, by decide⟩
  obtain ⟨visits, _, hvisits, hdistributes, _⟩ := assemble_distributes (w := { disk := sortedSite }) htree
    (Path.ofText_proper _) (Disk.linkFree_of_entries (by simp [sortedSite]) _) (by decide) (by decide) hrun
  rw [hrun] at hloose
  exact ⟨b, w', hrun, Option.some.inj hloose, visits, hvisits, hdistributes⟩

end DocFerry.Site
