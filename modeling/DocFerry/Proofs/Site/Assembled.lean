import DocFerry.Proofs.Nav.Placing
import DocFerry.Proofs.Nav.Slugs
import DocFerry.Proofs.Site.Gathering
/-!
# What the assembly of a site yields

Assembling a site converts every source document once, in the order of their addresses, and its buckets hold the slug
of each of them once (`assemble_yields`).  So the converter is given each document with the right context, and where
several documents are written to one place the last of them stays (`assemble_converts_sources`).
-/
namespace DocFerry.Site

open Files Nav

variable {d : Disk} {convert : Converter} {docs output : Path} {old : List Emission}

/-! ## Buckets -/

theorem loosePages_subset (b : Buckets) : ∀ slug ∈ b.loosePages, slug ∈ b.slugs := by
  intro slug hs
  simp only [Buckets.slugs, List.append_assoc]
  exact List.mem_append_left _ hs

/-- **The group of a top-level folder put into its bucket.** -/
theorem Shows.placeGroup {b : Buckets} {g : Nav.Group} {as below : List Address} {name : Text} (c : Classifier)
    (h : Shows [] b.slugs b.loosePages as) (hc : Shows ([] ++ [name]) g.slugs g.pages below)
    (hbelow : ∀ a ∈ below, [] ++ [name] <+: a ∧ a ≠ [] ++ [name]) (hnew : ∀ a ∈ as, ¬ [] ++ [name] <+: a) :
    Shows [] (placeGroup c b name g).slugs (placeGroup c b name g).loosePages (as ++ below) := by
  have hfolder := h.folder hc hbelow hnew
  unfold Site.placeGroup
  split
  · rename_i he
    have hslugs : g.slugs = [] := by
      rw [Group.slugs, List.isEmpty_iff.1 he]
      rfl
    simpa [hslugs] using hfolder
  · split
    · exact hfolder.perm (b.slugs_hoist g).symm (fun slug hs => List.mem_append_left _ hs) (loosePages_subset _)
    · refine hfolder.perm (b.slugs_put _ g).symm (fun slug hs => ?_) (loosePages_subset _)
      rwa [Buckets.loosePages_put]

/-- **A page in the root added to the pages that stand alone.** -/
theorem Shows.addLoose {b : Buckets} {as : List Address} (h : Shows [] b.slugs b.loosePages as) {a : Address}
    (hf : a.folders = []) (ha : a.Slashless) :
    Shows [] (b.addLoose a.slug).slugs (b.addLoose a.slug).loosePages (as ++ [a]) := by
  have hpage := h.page hf ha
  by_cases hm : a.slug ∈ b.loosePages
  · rw [Buckets.addLoose, if_pos hm]
    simpa [hm] using hpage
  · rw [if_neg hm, if_neg hm] at hpage
    refine hpage.perm (Buckets.slugs_addLoose hm).symm (fun slug hs => ?_) (loosePages_subset _)
    rw [Buckets.addLoose, if_neg hm]
    exact hs

theorem slugs_forPlatforms (platforms : List Text) : (Buckets.forPlatforms platforms).slugs = [] := by
  have hset : ∀ (t : Table Text (List Nav.Group)) (platform : Text), (∀ p ∈ t, p.2 = []) →
      ∀ p ∈ Table.set platform [] t, p.2 = [] := by
    intro t platform h
    induction t with
    | nil => simp [Table.set]
    | cons e rest ih =>
      obtain ⟨k, v⟩ := e
      rw [Table.set]
      split
      · simpa using fun a b hp => h (a, b) (List.mem_cons_of_mem _ hp)
      · intro p hp
        rcases List.mem_cons.1 hp with rfl | hp
        · exact h _ List.mem_cons_self
        · exact ih (fun q hq => h q (List.mem_cons_of_mem _ hq)) p hp
  have hall : ∀ (l : List Text) (t : Table Text (List Nav.Group)), (∀ p ∈ t, p.2 = []) →
      ∀ p ∈ (l.map fun p => (p, ([] : List Nav.Group))).foldl (fun t e => Table.set e.1 e.2 t) t, p.2 = [] := by
    intro l
    induction l with
    | nil => exact fun t h => h
    | cons platform rest ih => exact fun t h => ih _ (hset t platform h)
  have hempty := hall platforms [] (by simp)
  simp only [Buckets.slugs, Buckets.forPlatforms, slugsIn, List.nil_append, List.flatMap_nil, List.append_nil]
  refine List.flatMap_eq_nil_iff.2 fun p hp => ?_
  rw [hempty p hp]
  rfl

/-! ## Entries of the root -/

/-- **A character that is its own lower case** is in a text in lower case where it was in the text. -/
theorem mem_lower {c : Char} (hsigma : (c.toNat == 0x3a3) = false) (hself : c ∈ Text.lowerChar c) {s : Text}
    (h : c ∈ s) : c ∈ Text.lower s := by
  suffices ∀ before, c ∈ Text.lowerAfter before s from this []
  induction s with
  | nil => exact absurd h (by simp)
  | cons d rest ih =>
    intro before
    rw [Text.lowerAfter, List.mem_append]
    rcases List.mem_cons.1 h with rfl | h
    · rw [hsigma]
      exact .inl hself
    · exact .inr (ih h _)

/-- **No page is named like the folder of shared partial pages.** -/
theorem lower_ne_partials {name : Text} (h : isPageName name = true) : Text.lower name ≠ partialsFolder := by
  have hdot : '.' ∈ name := by
    obtain ⟨ext, hext, hsuffix⟩ := List.any_eq_true.1 h
    refine (List.isSuffixOf_iff_suffix.1 hsuffix).subset ?_
    have : ∀ ext ∈ pageExtensions, '.' ∈ ext := by decide
    exact this ext hext
  intro he
  have := he ▸ mem_lower (by decide) (by decide) hdot
  revert this
  decide

theorem Part.congr {l : Location} {P P' : Address → Prop} {dirs : List Text} {s : Sibling} {as : List Address}
    (h : Part d l P dirs s as) (hiff : ∀ a, dirs ++ [s.name] <+: a → (P a ↔ P' a)) : Part d l P' dirs s as :=
  ⟨fun a => (h.mem a).trans ⟨fun ⟨hp, hu⟩ => ⟨(hiff a hu).1 hp, hu⟩, fun ⟨hp, hu⟩ => ⟨(hiff a hu).2 hp, hu⟩⟩,
    h.order, h.rank⟩

/-- **What an entry of the root that is not left out leads to** is not shared. -/
theorem not_shared_of_under {s : Sibling} (hs : isSkipped s = false) {a : Address} (hu : [] ++ [s.name] <+: a) :
    ∀ name ∈ a.folders.head?, Text.lower name ≠ partialsFolder := by
  intro name hname
  simp only [isSkipped, Bool.or_eq_false_iff, beq_eq_false_iff_ne] at hs
  obtain ⟨rest, rfl⟩ := hu
  cases rest with
  | nil => simp [Address.folders] at hname
  | cons next rest =>
    simp only [Address.folders, List.nil_append, List.singleton_append, List.dropLast_cons_cons, List.head?_cons,
      Option.mem_some_iff] at hname
    exact hname ▸ hs.2

/-- **An entry of the root that leads to a page** that is shown and not shared is not left out. -/
theorem not_skipped_of_under {s : Sibling} {a : Address} (hu : [] ++ [s.name] <+: a)
    (hshown : ∀ name ∈ a, isHidden name = false) (hpage : isPageName a.file = true)
    (hshared : ∀ name ∈ a.folders.head?, Text.lower name ≠ partialsFolder) : isSkipped s = false := by
  obtain ⟨rest, rfl⟩ := hu
  rw [isSkipped, isIgnored_eq_isHidden, hshown s.name (by simp), Bool.false_or, beq_eq_false_iff_ne]
  cases rest with
  | nil => exact lower_ne_partials (by simpa [Address.file] using hpage)
  | cons next rest => exact hshared s.name (by simp [Address.folders])

/-- **An entry of the root that is not left out** leads to source documents only. -/
theorem isSource_iff {l : Location} {s : Sibling} (hs : isSkipped s = false) {a : Address} (hu : [] ++ [s.name] <+: a) :
    IsDocument d l a ↔ IsSource d l a := ⟨fun h => ⟨h, not_shared_of_under hs hu⟩, fun h => h.toIsDocument⟩

/-- **An entry of the root that is left out** leads to no source document. -/
theorem skipped_part {l : Location} {s : Sibling} (hs : isSkipped s = true) : Part d l (IsSource d l) [] s [] := by
  refine .none fun a ha hu => ?_
  rw [not_skipped_of_under hu ha.shown ha.page ha.shared] at hs
  cases hs

/-- **An entry of the root added to the buckets** yields the source documents that it leads to, and the buckets hold
their slugs. -/
theorem addEntry_yields (h : Apart d docs output) {s : Sibling} {d₀ : Disk} {entries : List Sibling}
    (hg : d.Grows (.below (d.settle output)) d₀) (hs : s ∈ entries)
    (hl : Lists d₀ (docs.descend []) (d.settle docs ++ []) entries) {c : Classifier} {b b' : Buckets}
    {es : List Emission} {as : List Address} {w w' : World}
    (hp : Progress d convert output old (es ++ as.map (emissionAt d (d.settle docs) output)) w)
    (hshows : Plain d (d.settle docs) → Shows [] b.slugs b.loosePages as) (hnew : ∀ a ∈ as, ¬ [] ++ [s.name] <+: a)
    (hw : addEntry convert output c b s w = (.ok b', w')) :
    ∃ more, Part d (d.settle docs) (IsSource d (d.settle docs)) [] s more ∧
      Progress d convert output old (es ++ (as ++ more).map (emissionAt d (d.settle docs) output)) w' ∧
      (Plain d (d.settle docs) → Shows [] b'.slugs b'.loosePages (as ++ more)) := by
  unfold addEntry at hw
  split at hw
  · rename_i hskip
    obtain ⟨rfl, rfl⟩ := Action.pure_eq_ok_iff.1 hw
    exact ⟨[], skipped_part hskip, by simpa using hp, by simpa using hshows⟩
  · rename_i hskip
    have hskip : isSkipped s = false := by simpa using hskip
    have hhidden : isHidden s.name = false := by
      simp only [isSkipped, Bool.or_eq_false_iff, isIgnored_eq_isHidden] at hskip
      exact hskip.1
    have hshown : Shown d docs output [] s := ⟨by simp, ⟨d₀, entries, hg, hs, hl⟩, hhidden⟩
    have hsource : ∀ a, [] ++ [s.name] <+: a → (IsDocument d (d.settle docs) a ↔ IsSource d (d.settle docs) a) :=
      fun a hu => isSource_iff hskip hu
    split at hw
    · rename_i hdir
      obtain ⟨g, u, hg', hw₁⟩ := Action.bind_eq_ok_iff.1 hw
      obtain ⟨rfl, rfl⟩ := Action.pure_eq_ok_iff.1 hw₁
      have hwalk : Yields d convert docs output old (walk convert output) ([] ++ [s.name]) :=
        walk_yields h (by simp) (hshown.names h) (hshown.not_file h hdir)
      obtain ⟨more, hpart, hprogress, hmore, hunder⟩ := folder_part h hshown hwalk hdir hp hg'
      exact ⟨more, hpart.congr hsource, by simpa using hprogress,
        fun hplain => (hshows hplain).placeGroup c (hmore hplain) hunder hnew⟩
    · rename_i hdir
      split at hw
      · rename_i hpage
        obtain ⟨slug, u, hslug, hw₁⟩ := Action.bind_eq_ok_iff.1 hw
        obtain ⟨rfl, rfl⟩ := Action.pure_eq_ok_iff.1 hw₁
        have hlabel : some gettingStartedLabel = some (groupLabelOf d (d.settle docs) ([] ++ [s.name])) := by
          rw [groupLabelOf, Address.folders_append, if_pos rfl]
        obtain ⟨hpart, hprogress, hslashless, hname⟩ := page_part h hshown hpage hp hlabel hslug
        refine ⟨_, hpart.congr hsource, by simpa using hprogress, fun hplain => ?_⟩
        rw [hname hplain]
        exact (hshows hplain).addLoose (Address.folders_append [] s.name) hslashless
      · rename_i hpage
        obtain ⟨rfl, rfl⟩ := Action.pure_eq_ok_iff.1 hw
        exact ⟨[], (other_part h hshown (by simpa using hdir) (by simpa using hpage)).congr hsource, by simpa using hp,
          by simpa using hshows⟩

/-! ## The assembly -/

/-- **The assembly of a site** converts exactly the source documents, in order, and its buckets hold each of their
slugs once. -/
theorem assemble_yields (h : Apart d docs output) {c : Classifier} {b : Buckets} {es : List Emission} {w w' : World}
    (hp : Progress d convert output old es w) (hw : assemble convert output c docs w = (.ok b, w')) :
    ∃ as, Gathered d convert docs output old es (IsSource d (d.settle docs)) as w' ∧
      (Plain d (d.settle docs) → Shows [] b.slugs b.loosePages as) := by
  unfold assemble at hw
  obtain ⟨entries, _, hentries, hw₁⟩ := Action.bind_eq_ok_iff.1 hw
  obtain ⟨hentries, rfl⟩ := Job.check_eq_ok.1 hentries
  rw [← Path.descend_nil docs] at hentries
  have hl := h.lists hp.grows (by simp) hentries
  have hempty : Shows [] (Buckets.forPlatforms c.platforms).slugs (Buckets.forPlatforms c.platforms).loosePages [] := by
    rw [slugs_forPlatforms]
    exact .empty []
  obtain ⟨parts, hparts, hprogress, hshows⟩ := Action.foldlM_gathers
    (I := fun b as u => Progress d convert output old (es ++ as.map (emissionAt d (d.settle docs) output)) u ∧
      (Plain d (d.settle docs) → Shows [] b.slugs b.loosePages as))
    (G := Part d (d.settle docs) (IsSource d (d.settle docs)) []) (Q := fun s a => [] ++ [s.name] <+: a)
    (fun s more hpart a ha => (hpart.ranked ha).1) entries
    (fun s hs b as u b' u' hi hnew hstep => addEntry_yields h hp.grows hs hl hi.1 hi.2 hnew hstep)
    (entries_apart hl.order)
    ⟨by simpa using hp, fun _ => hempty⟩ (by simp) hw₁
  obtain ⟨hmem, horder, _⟩ := gathered_of_parts hparts hl.order
  rw [List.nil_append] at hprogress hshows
  refine ⟨parts.flatten, ⟨fun a => ?_, horder, hprogress⟩, hshows⟩
  rw [hmem, and_iff_left_iff_imp]
  intro ha
  have hne : a ≠ [] := fun he => not_isDocument_nil _ _ (he ▸ ha.toIsDocument)
  obtain ⟨s, hs, hunder⟩ := h.entry_listed hp.grows hl ha.toIsDocument List.nil_prefix hne
  exact ⟨s, hs, hunder⟩

/-- **Every page holds the conversion of the right document.**  An assembly that returns has given the converter each
source document exactly once, in the order of their addresses, with its text, its name without extension, whether that
names an index page, and the label of its folder; and where a page is written, it holds the conversion of the last
document in that order that is written there. -/
theorem assemble_converts_sources {c : Classifier} {b : Buckets} {w w' : World} (htree : w.disk.IsTree)
    (hproper : output.Proper) (hdocs : w.disk.LinkFree (w.disk.settle docs))
    (houtput : w.disk.LinkFree (w.disk.settle output)) (hinside : ¬ w.disk.settle docs <+: w.disk.settle output)
    (haround : ¬ w.disk.settle output <+: w.disk.settle docs)
    (hrun : assemble convert output c docs w = (.ok b, w')) :
    ∃ as : List Address,
      as.Nodup ∧ (∀ a, a ∈ as ↔ IsSource w.disk (w.disk.settle docs) a) ∧
      as.Pairwise (Precedes w.disk (w.disk.settle docs)) ∧
      w'.written = w.written ++ as.map (emissionAt w.disk (w.disk.settle docs) output) ∧
      ∀ before a after, as = before ++ a :: after → (∀ later ∈ after, later.target ≠ a.target) →
        w'.disk.at? (targetAt output a) =
          some (.file (Text.Utf8.encode (convert (requestAt w.disk (w.disk.settle docs) a)))) := by
  have h := apart_of_isTree htree hproper hdocs houtput hinside haround
  obtain ⟨as, hgathered, _⟩ := assemble_yields h (Progress.start w.disk convert output w (.refl _ _)) hrun
  have hprogress := hgathered.progress
  rw [List.nil_append] at hprogress
  refine ⟨as, nodup_of_precedes hgathered.order, hgathered.mem, hgathered.order, hprogress.written, ?_⟩
  rintro before a after rfl hlast
  obtain ⟨l, hf⟩ := hprogress.held (before.map (emissionAt w.disk (w.disk.settle docs) output))
    (emissionAt w.disk (w.disk.settle docs) output a) (after.map (emissionAt w.disk (w.disk.settle docs) output))
    (by simp) (fun f hf he => by
      obtain ⟨later, hlater, rfl⟩ := List.mem_map.1 hf
      have hnames := congrArg Path.names he
      exact hlast later hlater (List.append_cancel_left hnames))
  have htarget : (emissionAt w.disk (w.disk.settle docs) output a).target = targetAt output a := rfl
  rw [htarget] at hf
  rw [Disk.at?, hf]
  rfl

/-- **A small site**: two documents that are written to one place, one in a folder, one that is hidden and one that is
shared. -/
def smallSite : Disk where
  entries := [(["docs"], .directory), (["docs", "a.md"], .file [0x61]), (["docs", "a.mdx"], .file [0x62]),
    (["docs", "guide"], .directory), (["docs", "guide", "start.md"], .file [0x63]), (["docs", ".git"], .directory),
    (["docs", ".git", "a.md"], .file [0x64]), (["docs", "Partials"], .directory),
    (["docs", "Partials", "a.md"], .file [0x65])].map fun e => (e.1.map String.toList, e.2)

theorem smallSite_isTree : smallSite.IsTree := ⟨by decide, by decide, by decide, by decide⟩

theorem smallSite_linkFree (l : Location) : smallSite.LinkFree l :=
  Disk.linkFree_of_entries (by simp [smallSite]) l

theorem assemble_converts_sources_smallSite : ∃ b w',
    assemble (·.raw) (.word "out") .standard (.word "docs") { disk := smallSite } = (.ok b, w') ∧
      ∃ as : List Address, as.Nodup ∧ (∀ a, a ∈ as ↔ IsSource smallSite (smallSite.settle (.word "docs")) a) ∧
        as.Pairwise (Precedes smallSite (smallSite.settle (.word "docs"))) := by
  obtain ⟨b, w', hrun⟩ := Action.exists_eq_ok (show (assemble (·.raw) (.word "out") .standard (.word "docs")
    { disk := smallSite }).1.isOk = true by decide +kernel)
  obtain ⟨as, hnodup, hmem, horder, _⟩ := assemble_converts_sources (w := { disk := smallSite }) smallSite_isTree
    (Path.ofText_proper _) (smallSite_linkFree _) (smallSite_linkFree _) (by decide) (by decide) hrun
  exact ⟨b, w', hrun, as, hnodup, hmem, horder⟩

end DocFerry.Site
