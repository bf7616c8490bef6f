import DocFerry.Proofs.Site.Assembled
import DocFerry.Proofs.Site.Run
/-!
# The navigation of a run

A run whose output folder is apart from the documents reads them as they were before it (`apart_of_run`).  Its tabs
then list the slug of every source document, each once, and its pages are the files of those slugs, each of which is
there in the end (`run_lists_sources`).
-/
namespace DocFerry.Site

open Files Nav

/-- **The folder of documents is there** when a run finds it. -/
theorem find_of_folders {s : Settings} {d : Disk} {docs : Path} {static : Option Path}
    (h : s.folders d = .ok (docs, static)) : ∃ l, d.find docs = .ok ⟨l, some .directory⟩ := by
  obtain ⟨found, hfound, h₁⟩ := bind_eq_ok h
  obtain ⟨assets, _, h₂⟩ := bind_eq_ok h₁
  cases h₂
  refine find_of_seekDirectory ?_
  unfold docsFolder at hfound
  split at hfound
  · obtain ⟨there, hthere, h₃⟩ := bind_eq_ok hfound
    split at h₃
    · rename_i ht
      cases h₃
      rw [mapError_eq_ok.1 hthere, ht]
    · cases h₃
  · obtain ⟨place, hplace, h₃⟩ := bind_eq_ok hfound
    split at h₃
    · cases h₃
      exact findFolder_some (mapError_eq_ok.1 hplace)
    · cases h₃

/-- **What a run has changed before it reads the documents** leaves them apart from the output folder, and as they
were. -/
theorem apart_of_run {s : Settings} {d : Disk} {docs : Path} {static : Option Path} {w₁ w₂ : World} {images : Path}
    (htree : d.IsTree) (hproper : s.output.Proper) (hdocs : d.LinkFree (d.settle docs))
    (houtput : d.LinkFree (d.settle s.output)) (hinside : ¬ d.settle docs <+: d.settle s.output)
    (haround : ¬ d.settle s.output <+: d.settle docs) (hfolders : s.folders d = .ok (docs, static))
    (hprepare : s.prepare d = (.ok (), w₁.disk)) (hassets : copyAssets static s.output w₁ = (.ok images, w₂)) :
    Apart w₂.disk docs s.output ∧ w₂.disk.settle docs = d.settle docs ∧
      ∀ m, d.settle docs <+: m →
        w₂.disk.locate? m = d.locate? m ∨ d.locate? m = none ∧ w₂.disk.locate? m = some .directory := by
  obtain ⟨l, hl⟩ := find_of_folders hfolders
  obtain ⟨l', hl'⟩ := find_of_prepare hproper hprepare
  obtain ⟨e, hsound, hlinks, hkept, _, hmade⟩ := prepare_eq_ok hproper hprepare
  have hsound := hsound htree.sound
  have hlinks := (hlinks htree.sound houtput).trans hmade.links
  have hgrows : w₁.disk.Grows (.below (d.settle s.output)) w₂.disk := by
    have hwrote := copyAssets_wrote hproper static w₁
    rw [hassets] at hwrote
    exact (hwrote.mono fun q hq => hq.below).below (hmade.sound hsound) hlinks houtput
  have hall : e.Grows (.below (d.settle s.output)) w₂.disk := hmade.wide.trans hgrows
  have hsame : d.SameLinks w₂.disk := hlinks.trans hgrows.links
  have hhere := htree.sound.up_not_mem_here
  have hsettle : w₂.disk.settle docs = d.settle docs :=
    (Disk.settle_of_find hsame hhere hl).trans (Disk.settle_of_find (.refl d) hhere hl).symm
  have hsettle' : w₂.disk.settle s.output = d.settle s.output :=
    have hhere' := (hmade.sound hsound).up_not_mem_here
    (Disk.settle_of_find hgrows.links hhere' hl').trans (Disk.settle_of_find hlinks.symm hhere' hl').symm
  have hregion : ∀ m, d.settle docs <+: m →
      w₂.disk.locate? m = d.locate? m ∨ d.locate? m = none ∧ w₂.disk.locate? m = some .directory := by
    intro m hm
    have hoff : ¬ d.settle s.output <+: m := fun ho =>
      (List.prefix_or_prefix_of_prefix hm ho).elim hinside haround
    rw [← hkept m fun ⟨_, k, hk, hkm⟩ => hoff (Disk.settle_of_find (.refl d) hhere hk ▸ hkm)]
    exact hall.outside m hoff
  have hfile : ∀ {a : Address} {bytes : Text.Utf8.Octets}, w₂.disk.locate? (d.settle docs ++ a) = some (.file bytes) →
      d.locate? (d.settle docs ++ a) = some (.file bytes) := by
    intro a bytes ha
    rcases hregion _ (List.prefix_append _ _) with he | ⟨_, he⟩
    · rwa [he] at ha
    · rw [he] at ha; cases ha
  refine ⟨⟨hall.sound hsound, hproper, ?_, ?_, ?_, ?_, ?_, ?_⟩, hsettle, hregion⟩
  · exact hsettle ▸ hsame.linkFree hdocs
  · exact hsettle' ▸ hsame.linkFree houtput
  · rwa [hsettle, hsettle']
  · rwa [hsettle, hsettle']
  · intro a b bytes hb hf
    rw [hsettle] at hf ⊢
    rw [List.append_assoc] at hf
    have habove := htree.directory_above (d.settle docs ++ a) b hb (by rw [List.append_assoc]; exact hfile hf)
    rcases hregion _ (List.prefix_append _ _) with he | ⟨_, he⟩
    · rw [he, habove]
    · exact he
  · intro a bytes hf name hn
    rw [hsettle] at hf
    exact htree.fileNames (hfile hf) name (List.mem_append_right _ hn)

/-! ## Pages -/

theorem firstMentions_nodup : ∀ (seen paths : List Path),
    (firstMentions seen paths).Nodup ∧ ∀ p, p ∈ firstMentions seen paths ↔ p ∈ paths ∧ p ∉ seen
  | _, [] => by simp [firstMentions]
  | seen, q :: paths => by
    rw [firstMentions]
    split
    · rename_i hq
      obtain ⟨hn, hm⟩ := firstMentions_nodup seen paths
      refine ⟨hn, fun p => ?_⟩
      rw [hm, List.mem_cons]
      refine ⟨fun h => ⟨.inr h.1, h.2⟩, fun h => ⟨h.1.resolve_left fun he => h.2 (he ▸ hq), h.2⟩⟩
    · rename_i hq
      obtain ⟨hn, hm⟩ := firstMentions_nodup (q :: seen) paths
      refine ⟨List.nodup_cons.2 ⟨fun h => ((hm q).1 h).2 List.mem_cons_self, hn⟩, fun p => ?_⟩
      rw [List.mem_cons, hm, List.mem_cons, List.mem_cons, not_or]
      by_cases hp : p = q
      · simp [hp, hq]
      · simp [hp]

/-- **The last page written to a place.** -/
theorem exists_last_emission {e : Emission} : ∀ {es : List Emission}, e ∈ es →
    ∃ before f after, es = before ++ f :: after ∧ f.target = e.target ∧ ∀ g ∈ after, g.target ≠ f.target
  | [], h => absurd h (by simp)
  | first :: es, h => by
    by_cases hlater : ∃ f ∈ es, f.target = e.target
    · obtain ⟨f, hf, he⟩ := hlater
      obtain ⟨before, g, after, rfl, hg, hlast⟩ := exists_last_emission hf
      exact ⟨first :: before, g, after, rfl, hg.trans he, hlast⟩
    · rcases List.mem_cons.1 h with rfl | h
      · exact ⟨[], e, es, rfl, rfl, fun g hg he => hlater ⟨g, hg, he⟩⟩
      · exact absurd ⟨e, h, rfl⟩ hlater

/-- **Every page that has been written is there.** -/
theorem Progress.file {d : Disk} {convert : Converter} {output : Path} {old es : List Emission} {w : World}
    (h : Progress d convert output old es w) {e : Emission} (he : e ∈ es) :
    ∃ l bytes, w.disk.find e.target = .ok ⟨l, some (.file bytes)⟩ := by
  obtain ⟨before, f, after, rfl, hf, hlast⟩ := exists_last_emission he
  obtain ⟨l, hfind⟩ := h.held before f after rfl hlast
  exact ⟨l, _, hf ▸ hfind⟩

/-- **A file stays one** while another is written. -/
theorem file_of_write {p q : Path} {bytes : Text.Utf8.Octets} {d d' : Disk} (hp : p.Proper) (hs : d.Sound)
    (hw : write p bytes d = (.ok (), d')) {l : Location} {old : Text.Utf8.Octets}
    (hf : d.find q = .ok ⟨l, some (.file old)⟩) : ∃ bytes', d'.at? q = some (.file bytes') := by
  have hwrote := write_wrote hp bytes d hs
  rw [hw] at hwrote
  obtain ⟨e, hf', he⟩ := hwrote.find hf
  cases e with
  | file bytes' => exact ⟨bytes', by rw [Disk.at?, hf']⟩
  | directory => exact he.elim
  | link => exact he.elim

/-- **The new page of a document** is the file of its slug. -/
theorem targetAt_eq_slug {output : Path} {a : Address} (hd : ∀ name ∈ a.folders, IsEntryName name) (hf : '/' ∉ a.file) :
    targetAt output a = output.joinText (a.slug ++ newExtension) := by
  have hslug : a.slug ++ newExtension = Text.join ['/'] a.target := by
    unfold Address.slug Address.target
    by_cases hn : a.folders = []
    · simp [hn, Text.join]
    · rw [Text.join_append_singleton _ _ _ hn, Text.join_append_singleton _ _ _ hn, List.append_assoc]
  rw [hslug, Path.joinText_join output fun name hn => (Address.target_entryNames hd hf name hn).1]
  rfl

/-! ## The run -/

theorem isSource_iff_of_files {d d' : Disk} {l : Location}
    (h : ∀ (a : Address) bytes, d'.locate? (l ++ a) = some (.file bytes) ↔ d.locate? (l ++ a) = some (.file bytes))
    (a : Address) : IsSource d' l a ↔ IsSource d l a := by
  constructor <;> rintro ⟨⟨⟨bytes, hf⟩, hs, hp⟩, hshared⟩
  · exact ⟨⟨⟨bytes, (h a bytes).1 hf⟩, hs, hp⟩, hshared⟩
  · exact ⟨⟨⟨bytes, (h a bytes).2 hf⟩, hs, hp⟩, hshared⟩

/-- **Navigation and output files correspond one to one.**  The slugs in the tabs of a run that returns are distinct,
and are those of the source documents; its pages are distinct, and are the files of those slugs in the output folder;
and each of them is there in the end. -/
theorem run_lists_sources {s : Settings} {o : Outcome} {w w' : World} (htree : w.disk.IsTree)
    (hproper : s.output.Proper) (hdocs : w.disk.LinkFree (w.disk.settle o.docs))
    (houtput : w.disk.LinkFree (w.disk.settle s.output))
    (hinside : ¬ w.disk.settle o.docs <+: w.disk.settle s.output)
    (haround : ¬ w.disk.settle s.output <+: w.disk.settle o.docs)
    (hplain : ∀ names, w.disk.locate? (w.disk.settle o.docs ++ names) = some .directory → ∀ name ∈ names, '\\' ∉ name)
    (hrun : s.run w = (.ok o, w')) :
    (o.tabs.flatMap Tab.slugs).Nodup ∧
      (∀ slug, slug ∈ o.tabs.flatMap Tab.slugs ↔ ∃ a, IsSource w.disk (w.disk.settle o.docs) a ∧ a.slug = slug) ∧
      o.pages.Nodup ∧
      (∀ p, p ∈ o.pages ↔ ∃ slug ∈ o.tabs.flatMap Tab.slugs, p = s.output.joinText (slug ++ newExtension)) ∧
      ∀ p ∈ o.pages, ∃ bytes, w'.disk.at? p = some (.file bytes) := by
  obtain ⟨static, w₁, w₂, w₃, images, b, manifest, hfolders, _, hprepare, hassets, hassemble, hmanifest, hwritten, htabs,
    hpages, _⟩ := run_eq_ok hrun
  obtain ⟨hapart, hsettle, hregion⟩ :=
    apart_of_run htree hproper hdocs houtput hinside haround hfolders hprepare hassets
  -- The documents are those that were there before the run.
  have hfiles : ∀ (a : Address) bytes, w₂.disk.locate? (w.disk.settle o.docs ++ a) = some (.file bytes) ↔
      w.disk.locate? (w.disk.settle o.docs ++ a) = some (.file bytes) := by
    intro a bytes
    rcases hregion _ (List.prefix_append _ a) with he | ⟨hn, he⟩
    · rw [he]
    · simp [hn, he]
  have hsource := isSource_iff_of_files hfiles
  have hplain₂ : Plain w₂.disk (w₂.disk.settle o.docs) := by
    intro a ha
    obtain ⟨bytes, hf⟩ := ha.file
    have hne : a ≠ [] := fun he => not_isDocument_nil _ _ (he ▸ ha)
    rw [hsettle, hfiles] at hf
    refine hplain a.folders (htree.directory_above _ [a.getLast hne] (by simp) (e := .file bytes) ?_)
    rw [List.append_assoc, Address.folders, List.dropLast_concat_getLast hne, hf]
  obtain ⟨as, hgathered, hshows⟩ := assemble_yields hapart
    (Progress.start w₂.disk .standard s.output { w₂ with written := [] } (.refl _ _)) hassemble
  have hshows := hshows hplain₂
  have hprogress := hgathered.progress
  rw [List.nil_append] at hprogress
  have hmem : ∀ a, a ∈ as ↔ IsSource w.disk (w.disk.settle o.docs) a := fun a => by
    rw [hgathered.mem, hsettle, hsource]
  have hslugs : ∀ slug, slug ∈ o.tabs.flatMap Tab.slugs ↔ ∃ a ∈ as, a.slug = slug := fun slug => by
    rw [htabs, Buckets.slugs_tabs, hshows.mem]
  have htarget : ∀ a ∈ as, targetAt s.output a = s.output.joinText (a.slug ++ newExtension) := by
    intro a ha
    obtain ⟨bytes, hf⟩ := ((hmem a).1 ha).file
    have hnames : ∀ name ∈ a, IsEntryName name := fun name hn =>
      isEntryName_of_isFileName (htree.fileNames hf name (List.mem_append_right _ hn))
    exact targetAt_eq_slug (fun name hn => hnames name (List.dropLast_subset _ hn)) (hshows.slashless a ha).file
  have hpage : ∀ p, p ∈ o.pages ↔ ∃ a ∈ as, targetAt s.output a = p := by
    intro p
    rw [hpages, (firstMentions_nodup [] _).2, hwritten, hprogress.written]
    simp [emissionAt]
  refine ⟨?_, fun slug => ?_, ?_, fun p => ?_, fun p hp => ?_⟩
  · rw [htabs, Buckets.slugs_tabs]
    exact hshows.nodup
  · rw [hslugs]
    simp only [hmem]
  · rw [hpages]
    exact (firstMentions_nodup [] _).1
  · rw [hpage]
    constructor
    · rintro ⟨a, ha, rfl⟩
      exact ⟨a.slug, (hslugs _).2 ⟨a, ha, rfl⟩, htarget a ha⟩
    · rintro ⟨slug, hs, rfl⟩
      obtain ⟨a, ha, rfl⟩ := (hslugs slug).1 hs
      exact ⟨a, ha, htarget a ha⟩
  · obtain ⟨a, ha, rfl⟩ := (hpage p).1 hp
    obtain ⟨l, bytes, hf⟩ := hprogress.file (List.mem_map.2 ⟨a, ha, rfl⟩)
    -- The manifest is written after the pages, and leaves each of them a file.
    have hproper' := proper_child hproper isEntryName_manifestFile
    exact file_of_write hproper' (hprogress.grows.sound hapart.sound) hmanifest hf

/-- **The settings of a run** from one given folder to another. -/
def plainSettings : Settings where
  output := .word "out"
  docs := some (.word "docs")

theorem run_lists_sources_smallSite : ∃ o w', plainSettings.run { disk := smallSite } = (.ok o, w') ∧
    (o.tabs.flatMap Tab.slugs).Nodup ∧ ∀ p ∈ o.pages, ∃ bytes, w'.disk.at? p = some (.file bytes) := by
  obtain ⟨o, w', hrun⟩ := Action.exists_eq_ok (show (plainSettings.run { disk := smallSite }).1.isOk = true by
    decide +kernel)
  have hfound : plainSettings.folders smallSite = .ok (.word "docs", none) := by rfl
  have hdocs : o.docs = .word "docs" := docs_of_run hrun hfound
  have hplain : ∀ names, smallSite.locate? (smallSite.settle o.docs ++ names) = some .directory →
      ∀ name ∈ names, '\\' ∉ name := by
    intro names hn name hm
    have hall : ∀ e ∈ smallSite.entries, ∀ name ∈ e.1, '\\' ∉ name := by decide
    have hne : smallSite.settle o.docs ++ names ≠ [] := by simp [List.ne_nil_of_mem hm]
    exact hall _ (Disk.mem_entries_of_locate? hne hn) name (List.mem_append_right _ hm)
  obtain ⟨hslugs, _, _, _, hfiles⟩ := run_lists_sources (w := { disk := smallSite }) smallSite_isTree
    (Path.ofText_proper _) (smallSite_linkFree _) (smallSite_linkFree _) (by rw [hdocs]; decide) (by rw [hdocs]; decide)
    hplain hrun
  exact ⟨o, w', hrun, hslugs, hfiles⟩

end DocFerry.Site
