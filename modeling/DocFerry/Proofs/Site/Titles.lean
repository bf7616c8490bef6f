import DocFerry.Proofs.Site.Labels
import DocFerry.Proofs.Site.Partition
import DocFerry.Proofs.Text.TitleCase
/-!
# Titles of index pages

An index page whose title would repeat the label that it is converted for is called an overview instead.  This is the
label of the group that lists the page, but for the pages of a folder of guides, which are listed with the pages that
stand alone.  So no index page repeats the label of its group, except that both can be empty, and that an index page of
a folder of guides can be titled like the group of the pages that stand alone (`index_titles`), which does happen
(`index_title_repeats`).
-/
namespace DocFerry.Page

/-- **A title that repeats a label**, whatever their case, and does not call the page an overview. -/
def Repeats (title label : Text) : Prop := title ≠ overviewTitle ∧ Text.lower title = Text.lower label

/-- **An index page does not repeat the label that it is converted for**, unless both are empty. -/
theorem Context.of_repeats {ctx : Context} {label body : Text} (hi : ctx.isIndex = true)
    (hl : ctx.groupLabel = some label) (h : Repeats (ctx.resolveTitle body).1 label) :
    (ctx.resolveTitle body).1 = [] ∧ label = [] := by
  unfold resolveTitle at h ⊢
  dsimp only at h ⊢
  split at h
  · exact absurd rfl h.1
  · rename_i hrepeats
    rw [if_neg hrepeats]
    have hlabel : label = [] := by
      by_contra hne
      refine hrepeats ?_
      simp [repeatsLabel, hi, hl, hne, h.2]
    exact ⟨Text.lower_eq_nil (by rw [h.2, hlabel]; rfl), hlabel⟩

end DocFerry.Page
namespace DocFerry.Site

open Files Nav

/-- **The title of a page** that is converted. -/
def Request.title (r : Request) : Text := (r.context.resolveTitle (Markup.convertMarkup r.raw)).1

/-- **A page that is converted** begins with its title. -/
theorem standard_eq (r : Request) :
    Converter.standard r = Page.titleBlock r.title ++
      Text.trimStart (r.context.resolveTitle (Markup.convertMarkup r.raw)).2 := by
  simp only [Converter.standard, Page.Context.convert, Request.title]

variable {convert : Converter} {output : Path} {c : Classifier} {b : Buckets}

/-! ## Pages of the root -/

/-- **What an entry of the root yields**, with the pages that are written for it. -/
def YieldListed (output : Path) (es : List Emission) (name : Text) : Yield → Prop
  | .nothing => True
  | .page slug => IsListed output [] gettingStartedLabel es slug
  | .folder g => (∀ slug ∈ g.pages, IsListed output [name] g.label es slug) ∧ ∀ h, Nested h g.items → OfFolder output es h

theorem YieldListed.mono {es fs : List Emission} (h : ∀ e ∈ es, e ∈ fs) {name : Text} : ∀ {y : Yield},
    YieldListed output es name y → YieldListed output fs name y
  | .nothing, _ => trivial
  | .page _, k => IsListed.mono h k
  | .folder _, ⟨hpages, hnested⟩ => ⟨fun slug hs => (hpages slug hs).mono h, fun g hg => (hnested g hg).mono h⟩

theorem Visit.listed (hp : output.Proper) {s : Sibling} {y : Yield} {w w' : World} (hs : w.disk.Sound)
    (hname : IsEntryName s.name) (hpath : s.path.name = s.name) (h : Visit convert output s y w w') :
    Writes w w' ∧ ∃ es, w'.written = w.written ++ es ∧ OneLabel output es ∧
      (∀ e ∈ es, PageFrom output [] gettingStartedLabel [s.name] e) ∧ YieldListed output es s.name y := by
  cases h with
  | skipped => exact ⟨.refl w, [], by simp, .nil, by simp, trivial⟩
  | other => exact ⟨.refl w, [], by simp, .nil, by simp, trivial⟩
  | page _ _ hw =>
    have hroot : ∀ name ∈ ([] : List Text), IsEntryName name := by simp
    obtain ⟨e, he, hpage, hslug⟩ := writePage_labelled hroot (hpath.symm ▸ hname.1.2) hw
    exact ⟨writePage_writes hp hw, [e], he, .single, by simpa using .inl hpage, e, by simp, hpage, hslug⟩
  | folder _ _ hw =>
    have hwalk := walk_eq_ok hw
    have hjoin : Text.join ['/'] [s.name] = s.name := rfl
    rw [← hjoin] at hwalk
    obtain ⟨es, hes, hlabelled⟩ := walkWithin_labelled hp _ hs (by simpa using hname) hwalk
    exact ⟨walkWithin_writes hp _ hwalk, es, hes, hlabelled.one,
      fun e he => .inr ⟨s.name, List.mem_singleton_self _, hlabelled.under e he⟩, hlabelled.pages, hlabelled.nested⟩

/-- **The pages of a site** are labelled by folder, those of the root by the group of the pages that stand alone. -/
theorem visits_listed (hp : output.Proper) : ∀ {visits : List (Sibling × Yield)} {w w' : World}, w.disk.Sound →
    (∀ v ∈ visits, IsEntryName v.1.name ∧ v.1.path.name = v.1.name) → (visits.map fun v => v.1.name).Nodup →
    Visits convert output visits w w' →
    ∃ es, w'.written = w.written ++ es ∧ OneLabel output es ∧
      (∀ e ∈ es, PageFrom output [] gettingStartedLabel (visits.map fun v => v.1.name) e) ∧
      ∀ v ∈ visits, YieldListed output es v.1.name v.2
  | [], _, _, _, _, _, .nil => ⟨[], by simp, .nil, by simp, by simp⟩
  | v :: visits, w, w', hs, hnames, hnodup, .cons hvisit hrest => by
    obtain ⟨⟨hname, hpath⟩, hothers⟩ := List.forall_mem_cons.1 hnames
    obtain ⟨hnew, hnodup⟩ := List.nodup_cons.1 hnodup
    obtain ⟨hw, es, hes, hone, horigin, hyield⟩ := hvisit.listed hp hs hname hpath
    obtain ⟨fs, hfs, hone', horigin', hyields⟩ := visits_listed hp (hw.sound hs) hothers hnodup hrest
    refine ⟨es ++ fs, by rw [hfs, hes, List.append_assoc],
      hone.append hone' horigin horigin' fun name hn => List.mem_singleton.1 hn ▸ hnew, ?_, ?_⟩
    · refine List.forall_mem_append.2 ⟨fun e he => (horigin e he).mono ?_, fun e he => (horigin' e he).mono ?_⟩
      · exact fun name hn => List.mem_singleton.1 hn ▸ List.mem_cons_self
      · exact fun name hn => List.mem_cons_of_mem _ hn
    · refine List.forall_mem_cons.2 ⟨hyield.mono fun e => List.mem_append_left _, fun u hu => ?_⟩
      exact (hyields u hu).mono fun e => List.mem_append_right _

/-! ## Buckets -/

theorem all_receive {Q : Nav.Group → Prop} (h : b.All Q) {name : Text} {y : Yield}
    (hy : ∀ top, y = .folder top → ∀ g, Within g top → Q g) : (receive c b name y).All Q := by
  cases y with
  | nothing => exact h
  | page slug => exact h.addLoose slug
  | folder top =>
    rw [receive, placeGroup]
    split
    · exact h
    · split
      · exact h.hoist (hy top rfl)
      · exact h.put (hy top rfl) _

/-- **What the entries of the root yield, put into the buckets**: their groups have what each of them yields, and the
pages that stand alone are theirs. -/
theorem receive_visits {Q : Nav.Group → Prop} {visits : List (Sibling × Yield)} {b : Buckets} (h : b.All Q)
    (hv : ∀ v ∈ visits, ∀ top, v.2 = .folder top → ∀ g, Within g top → Q g) :
    (visits.foldl (fun b v => receive c b v.1.name v.2) b).All Q ∧
      ∀ slug ∈ (visits.foldl (fun b v => receive c b v.1.name v.2) b).loosePages,
        slug ∈ b.loosePages ∨ ∃ v ∈ visits, slug ∈ slugsFor v.1.name v.2 := by
  refine ⟨?_, fun slug hs => mem_loosePages_receiveAll.1 hs⟩
  induction visits generalizing b with
  | nil => exact h
  | cons v visits ih =>
    obtain ⟨hfirst, hrest⟩ := List.forall_mem_cons.1 hv
    exact ih (all_receive h hfirst) hrest

theorem gettingStarted_eq_some {g : Nav.Group} (h : b.gettingStarted = some g) :
    g.label = gettingStartedLabel ∧ g.pages = b.loosePages := by
  rw [Buckets.gettingStarted] at h
  split at h
  · cases h
  · cases h
    exact ⟨rfl, (List.filterMap_map ..).trans List.filterMap_some⟩

/-! ## Titles -/

/-- **The page of a folder that is listed by a slug**, and every page that is written to its place. -/
theorem pages_of_listed {es : List Emission} (hone : OneLabel output es) (hunder : ∀ e ∈ es, PageUnder output [] e)
    {dirs : List Text} {label slug : Text} (h : IsListed output dirs label es slug) :
    ∃ base, '/' ∉ base ∧ slug = Nav.slug (Text.join ['/'] dirs) base ∧
      (∃ e ∈ es, e.target = output.descend (dirs ++ [base ++ newExtension])) ∧
      ∀ e ∈ es, e.target = output.descend (dirs ++ [base ++ newExtension]) →
        PageOf output dirs label e ∧ e.request.context.baseName = base := by
  obtain ⟨e₀, he₀, hpage, hslug⟩ := h
  refine ⟨_, hpage.base, hslug, ⟨e₀, he₀, hpage.target⟩, fun e he ht => ?_⟩
  obtain ⟨more, other, hmore⟩ := hunder e he
  rw [List.nil_append] at hmore
  have hnames : output.names ++ (more ++ [e.request.context.baseName ++ newExtension]) =
      output.names ++ (dirs ++ [e₀.request.context.baseName ++ newExtension]) :=
    congrArg Path.names (hmore.target.symm.trans ht)
  obtain ⟨rfl, hlast⟩ := List.append_inj' (List.append_cancel_left hnames) rfl
  exact ⟨hone e₀ he₀ e he _ _ _ hpage hmore ▸ hmore, List.append_cancel_right (List.cons.inj hlast).1⟩

/-- **The folder of a page that a group of the tabs lists**, and the label that the pages of the folder are converted
for: it is that of the group, but for a folder of guides. -/
theorem folder_of_inTabs {es : List Emission} {visits : List (Sibling × Yield)} (hall : b.All (OfFolder output es))
    (hloose : ∀ slug ∈ b.loosePages, ∃ v ∈ visits, slug ∈ slugsFor v.1.name v.2)
    (hyields : ∀ v ∈ visits, YieldListed output es v.1.name v.2) {g : Nav.Group} (hg : InTabs b.tabs g) {slug : Text}
    (hslug : slug ∈ g.pages) :
    ∃ dirs label, IsListed output dirs label es slug ∧ (label = g.label ∨
      b.gettingStarted = some g ∧ ∃ name, dirs = [name] ∧ Text.lower name = guidesFolder) := by
  rcases hall.of_inTabs hg with ⟨dirs, _, hlisted⟩ | hstarted | hnone
  · exact ⟨dirs, g.label, hlisted slug hslug, .inl rfl⟩
  · obtain ⟨hlabel, hpages⟩ := gettingStarted_eq_some hstarted
    rw [hpages] at hslug
    obtain ⟨⟨s, y⟩, hv, hs⟩ := hloose slug hslug
    have hyield := hyields _ hv
    cases y with
    | nothing => cases hs
    | page other =>
      rw [List.mem_singleton.1 hs]
      exact ⟨[], gettingStartedLabel, hyield, .inl hlabel.symm⟩
    | folder top =>
      -- Only a folder of guides brings pages that stand alone, and they are labelled by that folder.
      rw [slugsFor] at hs
      split at hs
      · rename_i hguides
        exact ⟨[s.name], top.label, hyield.1 slug hs, .inr ⟨hstarted, s.name, rfl, hguides⟩⟩
      · cases hs
  · rw [hnone] at hslug
    cases hslug

theorem PageOf.of_repeats {dirs : List Text} {label : Text} {e : Emission} (h : PageOf output dirs label e)
    (hi : isIndexName e.request.context.baseName = true) (hr : Page.Repeats e.request.title label) :
    e.request.title = [] ∧ label = [] := Page.Context.of_repeats (h.index.trans hi) h.label hr

/-- **No index page repeats the label of the group that lists it**, with two exceptions.  Every slug that a group of
the tabs lists is that of a page that has been written, and each page written to that place has the same base name.  If
it is an index page titled like the group, then either both are empty, or it is a page of a folder of guides, converted
for another label and listed with the pages that stand alone. -/
theorem index_titles (hp : output.Proper) {docs : Path} {w w' : World} (hs : w.disk.Sound)
    (hrun : assemble .standard output c docs w = (.ok b, w')) {g : Nav.Group} (hg : InTabs b.tabs g) {slug : Text}
    (hslug : slug ∈ g.pages) :
    ∃ es dirs base, w'.written = w.written ++ es ∧ '/' ∉ base ∧ slug = Nav.slug (Text.join ['/'] dirs) base ∧
      (∃ e ∈ es, e.target = output.descend (dirs ++ [base ++ newExtension])) ∧
      ∀ e ∈ es, e.target = output.descend (dirs ++ [base ++ newExtension]) →
        e.request.context.baseName = base ∧
        (isIndexName base = true → Page.Repeats e.request.title g.label →
          e.request.title = [] ∧ g.label = [] ∨
          b.gettingStarted = some g ∧ e.request.context.groupLabel ≠ some g.label ∧
            ∃ name, dirs = [name] ∧ Text.lower name = guidesFolder) := by
  obtain ⟨visits, hentries, hvisits, hb⟩ := assemble_eq_ok hrun
  have hnames : ∀ v ∈ visits, IsEntryName v.1.name ∧ v.1.path.name = v.1.name := fun v hv =>
    siblings_entryNames hs hentries v.1 (List.mem_map_of_mem hv)
  have hnodup : (visits.map fun v => v.1.name).Nodup := by
    have h := nodup_of_siblings hs hentries
    rwa [List.map_map] at h
  obtain ⟨es, hes, hone, horigin, hyields⟩ := visits_listed hp hs hnames hnodup hvisits
  have hunder : ∀ e ∈ es, PageUnder output [] e := fun e he => (horigin e he).under
  have hfolders : ∀ v ∈ visits, ∀ top, v.2 = .folder top → ∀ other, Within other top → OfFolder output es other := by
    intro v hv top htop other ho
    have hyield := hyields v hv
    rw [htop] at hyield
    rcases ho with rfl | ho
    · exact ⟨[v.1.name], by simpa using (hnames v hv).1, hyield.1⟩
    · exact hyield.2 other ho
  obtain ⟨hall, hloose⟩ := receive_visits (c := c) (.forPlatforms c.platforms) hfolders
  rw [← hb] at hall hloose
  have hstandalone : ∀ slug ∈ b.loosePages, ∃ v ∈ visits, slug ∈ slugsFor v.1.name v.2 := fun slug hs =>
    (hloose slug hs).resolve_left (by simp [Buckets.forPlatforms])
  obtain ⟨dirs, label, hlisted, hlabel⟩ := folder_of_inTabs hall hstandalone hyields hg hslug
  obtain ⟨base, hbase, hslug, hthere, hpages⟩ := pages_of_listed hone hunder hlisted
  refine ⟨es, dirs, base, hes, hbase, hslug, hthere, fun e he ht => ?_⟩
  obtain ⟨hpage, rfl⟩ := hpages e he ht
  refine ⟨rfl, fun hi hr => ?_⟩
  by_cases hsame : label = g.label
  · exact .inl (hsame ▸ hpage.of_repeats hi (hsame ▸ hr))
  · obtain ⟨hstarted, hguides⟩ := hlabel.resolve_left hsame
    exact .inr ⟨hstarted, fun he => hsame (Option.some.inj (hpage.label.symm.trans he)), hguides⟩

/-- **Three folders with an index page each**: one titled like its folder, one of guides titled like the pages that stand
alone, and one without a title in a folder whose name is no word. -/
def titledSite : Disk where
  entries := [(["docs"], .directory), (["docs", "-"], .directory), (["docs", "-", "index.md"], page "#  \n\nx"),
    (["docs", "guides"], .directory), (["docs", "guides", "index.md"], page "# Getting Started\n\nx"),
    (["docs", "setup"], .directory), (["docs", "setup", "index.md"], page "# Setup\n\nx")].map
      fun e => (e.1.map String.toList, e.2)
where
  page (s : String) : Entry := .file (Text.Utf8.encode s.toList)

theorem titledSite_isTree : titledSite.IsTree := ⟨by decide, by decide, by decide, by decide⟩

theorem index_titles_titledSite : ∃ b w' g,
    assemble .standard (.word "out") .standard (.word "docs") { disk := titledSite } = (.ok b, w') ∧
      InTabs b.tabs g ∧ g.label = "Setup".toList ∧ "setup/index".toList ∈ g.pages ∧
      ∃ e ∈ w'.written, isIndexName e.request.context.baseName = true → ¬ Page.Repeats e.request.title g.label := by
  obtain ⟨b, w', hrun⟩ := Action.exists_eq_ok (show (assemble .standard (.word "out") .standard (.word "docs")
    { disk := titledSite }).1.isOk = true by decide +kernel)
  have hguides : (assemble .standard (.word "out") .standard (.word "docs") { disk := titledSite }).1.toOption.map
      (fun b => b.guides.map fun g => (g.label, g.pages)) =
      some [([], ["-/index".toList]), ("Setup".toList, ["setup/index".toList])] := by decide +kernel
  rw [hrun] at hguides
  have hguides : (b.guides.map fun g => (g.label, g.pages)) = _ := Option.some.inj hguides
  have hsetup : ("Setup".toList, ["setup/index".toList]) ∈ b.guides.map fun g => (g.label, g.pages) := by
    rw [hguides]
    simp
  obtain ⟨g, hg, he⟩ := List.mem_map.1 hsetup
  obtain ⟨hlabel, hpages⟩ := Prod.mk.inj he
  have htabs : InTabs b.tabs g := Buckets.inTabs_of_guideGroups (List.mem_append_right _ hg)
  have hslug : "setup/index".toList ∈ g.pages := hpages ▸ List.mem_singleton_self _
  obtain ⟨es, _, _, hes, _, _, ⟨e, he, ht⟩, hall⟩ := index_titles (Path.ofText_proper _) titledSite_isTree.sound hrun htabs
    hslug
  refine ⟨b, w', g, hrun, htabs, hlabel, hslug, e, by rw [hes]; exact he, fun hi hr => ?_⟩
  obtain ⟨rfl, htitle⟩ := hall e he ht
  rcases htitle hi hr with ⟨_, hempty⟩ | ⟨hstarted, _⟩
  · rw [hlabel] at hempty
    cases hempty
  · have hother := (gettingStarted_eq_some hstarted).1
    rw [hlabel] at hother
    revert hother
    decide

/-- **An index page can repeat the label of its group.**  That of a folder of guides is titled like the group of the
pages that stand alone, where it is listed; and one without a title is listed in a group without a label. -/
theorem index_title_repeats : ∃ b w',
    assemble .standard (.word "out") .standard (.word "docs") { disk := titledSite } = (.ok b, w') ∧
      (∃ g e, InTabs b.tabs g ∧ "guides/index".toList ∈ g.pages ∧ e ∈ w'.written ∧
        e.target = .word "out/guides/index.mdx" ∧ e.request.context.isIndex = true ∧
        Page.Repeats e.request.title g.label) ∧
      ∃ g e, InTabs b.tabs g ∧ "-/index".toList ∈ g.pages ∧ e ∈ w'.written ∧ e.target = .word "out/-/index.mdx" ∧
        e.request.context.isIndex = true ∧ Page.Repeats e.request.title g.label := by
  obtain ⟨b, w', hrun⟩ := Action.exists_eq_ok (show (assemble .standard (.word "out") .standard (.word "docs")
    { disk := titledSite }).1.isOk = true by decide +kernel)
  have hguides : (assemble .standard (.word "out") .standard (.word "docs") { disk := titledSite }).1.toOption.map
      (fun b => b.guideGroups.map fun g => (g.label, g.pages)) =
      some [(gettingStartedLabel, ["guides/index".toList]), ([], ["-/index".toList]),
        ("Setup".toList, ["setup/index".toList])] := by decide +kernel
  have hwritten : ((assemble .standard (.word "out") .standard (.word "docs") { disk := titledSite }).2.written.map
      fun e => (e.target, e.request.context.isIndex, e.request.title)) =
      [(.word "out/-/index.mdx", true, []), (.word "out/guides/index.mdx", true, gettingStartedLabel),
        (.word "out/setup/index.mdx", true, Page.overviewTitle)] := by decide +kernel
  rw [hrun] at hguides hwritten
  have hguides : (b.guideGroups.map fun g => (g.label, g.pages)) = _ := Option.some.inj hguides
  have hgroup : ∀ label slug : Text, (label, [slug]) ∈ (b.guideGroups.map fun g => (g.label, g.pages)) →
      ∃ g, InTabs b.tabs g ∧ slug ∈ g.pages ∧ g.label = label := by
    intro label slug hm
    obtain ⟨g, hg, he⟩ := List.mem_map.1 hm
    obtain ⟨rfl, hpages⟩ := Prod.mk.inj he
    exact ⟨g, Buckets.inTabs_of_guideGroups hg, hpages ▸ List.mem_singleton_self _, rfl⟩
  have hpage : ∀ (target : Path) (title : Text), (target, true, title) ∈
      (w'.written.map fun e => (e.target, e.request.context.isIndex, e.request.title)) →
      ∃ e ∈ w'.written, e.target = target ∧ e.request.context.isIndex = true ∧ e.request.title = title := by
    intro target title hm
    obtain ⟨e, he, h⟩ := List.mem_map.1 hm
    obtain ⟨htarget, h⟩ := Prod.mk.inj h
    obtain ⟨hindex, htitle⟩ := Prod.mk.inj h
    exact ⟨e, he, htarget, hindex, htitle⟩
  refine ⟨b, w', hrun, ?_, ?_⟩
  · obtain ⟨g, hg, hslug, hlabel⟩ := hgroup gettingStartedLabel "guides/index".toList (by simp [hguides])
    obtain ⟨e, he, ht, hi, htitle⟩ := hpage (.word "out/guides/index.mdx") gettingStartedLabel (by simp [hwritten])
    exact ⟨g, e, hg, hslug, he, ht, hi, by rw [htitle]; decide, by rw [htitle, hlabel]⟩
  · obtain ⟨g, hg, hslug, hlabel⟩ := hgroup [] "-/index".toList (by simp [hguides])
    obtain ⟨e, he, ht, hi, htitle⟩ := hpage (.word "out/-/index.mdx") [] (by simp [hwritten])
    exact ⟨g, e, hg, hslug, he, ht, hi, by rw [htitle]; decide, by rw [htitle, hlabel]⟩

end DocFerry.Site
