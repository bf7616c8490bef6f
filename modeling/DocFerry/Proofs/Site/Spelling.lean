import DocFerry.Proofs.Site.OneFolder
import DocFerry.Proofs.Site.AssetCopies
import DocFerry.Proofs.Site.Refusal
/-!
# The spelling of the documents' path

A run reads the documents along the path that it is given, and looks for what the old site says about itself in the
parent of that path.  Along two paths to one folder it writes the same pages and returns the same tabs and the same
logo.  If the parents lead to one folder too, as they do where both paths end in names, it finds the same brand and
leaves the same disk (`run_respelled`).  A path that ends otherwise can lose the name of the site, and one that leads
through an output folder can lose the documents when that is emptied (`spelling_matters`).
-/
namespace DocFerry.Site

open Files Nav
open DocFerry.Action (ResultsUnless AlikeUnless)

variable {d : Disk} {p q output : Path} {l : Location} {w w' : World}

/-! ## The brand -/

section Brand

variable {root root' : Path} {assets images : Option Path}

theorem eq_of_seekFile {problem : Problem} (h : d.seekFile p = .error problem) : problem = .nameTooLong := by
  unfold Disk.seekFile Disk.seek at h
  split at h <;> cases h
  rfl

theorem eq_of_sourceText {problem : Problem} (h : sourceText d p = .error problem) : problem = .nameTooLong :=
  eq_of_seekFile (map_eq_error h)

theorem eq_of_firstName {problem : Problem} : ∀ {files : List Text}, firstName d root files = .error problem →
    problem = .nameTooLong
  | [], h => by cases h
  | file :: rest, h => by
    rw [firstName] at h
    rcases bind_eq_error h with h | ⟨found, _, h⟩
    · exact eq_of_sourceText h
    · split at h
      · cases h
      · exact eq_of_firstName h

/-- **Only a path that is too long** keeps a brand from being found, and the logo does not depend on where the rest is
looked for. -/
theorem detectBrand_logo (d : Disk) (root root' : Path) (assets images : Option Path) :
    ResultsUnless (· = .nameTooLong) (fun b b' => b'.logo = b.logo) (detectBrand d root assets images)
      (detectBrand d root' assets images) := by
  unfold detectBrand
  refine (ResultsUnless.of_failures (fun _ => eq_of_firstName) fun _ => eq_of_firstName).bind fun name name' _ => ?_
  refine (ResultsUnless.of_failures (fun _ h => eq_of_sourceText (map_eq_error h))
    fun _ h => eq_of_sourceText (map_eq_error h)).bind fun color color' _ => ?_
  refine ResultsUnless.bind (.refl _ fun _ => rfl) ?_
  rintro logo _ rfl
  exact .ok rfl

section OneFolder

variable (h : d.OneFolder root root' l)

include h

theorem sourceText_unless {names : List Text} (hup : Path.up ∉ names) :
    Disk.SameUnlessLong (sourceText d (root.descend names)) (sourceText d (root'.descend names)) :=
  (h.seekFile hup).map fun _ _ he => by rw [he]

theorem firstName_unless : ∀ {files : List Text}, (∀ file ∈ files, file ≠ Path.up) →
    Disk.SameUnlessLong (firstName d root files) (firstName d root' files)
  | [], _ => .ok rfl
  | file :: rest, hfiles => by
    have hfile : Disk.SameUnlessLong (sourceText d (root.child file)) (sourceText d (root'.child file)) :=
      sourceText_unless h (by simpa using (hfiles file List.mem_cons_self).symm)
    unfold firstName
    refine hfile.bind ?_
    rintro found _ rfl
    split
    · exact .ok rfl
    · exact firstName_unless fun f hf => hfiles f (List.mem_cons_of_mem file hf)

/-- **A brand is found alike** along two paths to the folder of the old site. -/
theorem detectBrand_unless :
    Disk.SameUnlessLong (detectBrand d root assets images) (detectBrand d root' assets images) := by
  have hstyles : ∀ r : Path, r.join oldStyles = r.descend oldStyles.names := fun r => rfl
  unfold detectBrand
  refine (firstName_unless h (by decide)).bind ?_
  rintro name _ rfl
  unfold primaryColor
  rw [hstyles, hstyles]
  refine ResultsUnless.bind (Q := Eq) ((sourceText_unless h (by decide)).map fun _ _ he => by rw [he]) ?_
  rintro color _ rfl
  exact .refl _ fun _ => rfl

end OneFolder
end Brand

/-! ## What is built -/

theorem doSame_seen {α : Type} {Q : α → α → Prop} {f g : Disk → Except Problem α}
    (h : ∀ area e, d.Grows area e → ResultsUnless (· = .nameTooLong) Q (f e) (g e)) :
    DoSame d Q (Job.onDisk (check f)) (Job.onDisk (check g)) := by
  intro w w' hw
  obtain ⟨area, hg⟩ := hw.grows
  have hf := h area w.disk hg
  rw [Job.onDisk, Job.onDisk, check, check, hw.disk]
  generalize f w.disk = r, g w.disk = r' at hf
  cases hf with
  | ok hq => exact .alike (.ok ⟨rfl, hw.written, hw.grows⟩ hq)
  | error => exact .alike (.error ⟨rfl, hw.written, hw.grows⟩ rfl)
  | left he => exact .left (congrArg Failure.disk he)
  | right he => exact .right (congrArg Failure.disk he)

theorem doSame_copyAssets (hs : d.Sound) (hp : output.Proper) (assets : Option Path) :
    DoSame d Eq (copyAssets assets output) (copyAssets assets output) := by
  have himages := proper_child hp isEntryName_imagesFolder
  have hlook : ∀ {α : Type} (f : Disk → Except Problem α), DoSame d Eq (Job.onDisk (check f)) (Job.onDisk (check f)) :=
    fun f => doSame_seen fun _ _ _ => .refl _ fun _ => rfl
  unfold copyAssets
  refine Action.AgreesUnless.bind (doSame_onDisk hs (P := fun _ _ => False) fun e => ?_) fun _ _ _ => ?_
  · exact (makeDirectories_grows true himages e).wrote
  cases assets with
  | none => exact .pure rfl
  | some a =>
    refine Action.AgreesUnless.bind (.forM fun name _ => ?_) fun _ _ _ => ?_
    · unfold copyAssetFolder
      refine (hlook _).bind ?_
      rintro found _ rfl
      split
      · exact (doSame_onDisk hs (copyTree_wrote himages)).bind fun _ _ _ => doSame_tell
      · exact .pure rfl
    · refine Action.AgreesUnless.bind (.forM fun name hname => ?_) fun _ _ _ => .pure rfl
      unfold copyAssetFile
      refine (hlook _).bind ?_
      rintro found _ rfl
      split
      · have hentry := isEntryName_assetFile hname
        exact doSame_onDisk hs (copyFile_wrote (by rwa [Path.name_child]) (proper_child himages hentry))
      · exact .pure rfl

/-- **Two ends of a run that leave one site**: the pages are the same, and so is everything on the disk but for what
holds at one place, the manifest. -/
structure SameSite (manifest : Location) (same : Prop) (w w' : World) : Prop where
  written : w'.written = w.written
  disk : ∀ m, m ≠ manifest → w'.disk.locate? m = w.disk.locate? m
  whole : same → w'.disk = w.disk

/-- **Two outcomes that are the same** but for the name and the colour of the brand. -/
structure SameOutcome (same : Prop) (o o' : Outcome) : Prop where
  output : o'.output = o.output
  manifest : o'.manifest = o.manifest
  pages : o'.pages = o.pages
  tabs : o'.tabs = o.tabs
  logo : o'.brand.logo = o.brand.logo
  brand : same → o'.brand = o.brand

theorem Twins.sameSite (h : Twins d w w') (manifest : Location) (same : Prop) : SameSite manifest same w w' :=
  ⟨h.written, fun m _ => by rw [h.disk], fun _ => h.disk⟩

/-- **Two manifests that are written** at one place leave everything else alike. -/
theorem writeManifest_alike (hs : d.Sound) (hw : Twins d w w') {same : Prop} {m m' : Json} (hm : same → m' = m) :
    AlikeUnless Failure.IsLong (SameSite (d.settle (output.child manifestFile)) same) Eq
      (writeManifest output m w) (writeManifest output m' w') := by
  obtain ⟨area, hg⟩ := hw.grows
  have hnodup := (hg.sound hs).nodup
  have hself : w.disk.AlikeBut (fun _ _ _ => False) w.disk := ⟨rfl, hnodup, hnodup, fun k => .refl _ k _⟩
  have hwrite : AlikeUnless Failure.IsLong (SameSite (d.settle (output.child manifestFile)) same) Eq
      (Job.onDisk (write (output.child manifestFile) (Text.Utf8.encode (manifestText m))) w)
      (Job.onDisk (write (output.child manifestFile) (Text.Utf8.encode (manifestText m'))) w') := by
    rw [Job.onDisk, Job.onDisk, hw.disk, write_eq, write_eq]
    rcases hself.withFile (output.child manifestFile) (Text.Utf8.encode (manifestText m))
      (Text.Utf8.encode (manifestText m')) with ⟨problem, hfile, hfile'⟩ | ⟨place, hf, hfile, hfile'⟩
    · rw [hfile, hfile']
      exact .alike (.error ⟨hw.written, fun _ _ => rfl, fun _ => rfl⟩ rfl)
    · rw [hfile, hfile']
      refine .alike (.ok ⟨hw.written, fun k hk => ?_, fun hsame => by rw [hm hsame]⟩ rfl)
      rw [Disk.settle_of_find hg.links.symm (hg.sound hs).up_not_mem_here hf] at hk
      rw [Disk.locate?_put_ne _ _ hk, Disk.locate?_put_ne _ _ hk]
  exact hwrite.bind (fun _ _ => id) fun _ _ _ _ _ hi => .alike (.ok hi rfl)

/-- **A site is built alike** along two paths to the documents. -/
theorem build_alike {s : Settings} (h : d.OneFolder p q l) (hp : s.output.Proper) {same : Prop}
    (hsame : same → ∃ m, d.OneFolder p.parent q.parent m) (hw : Twins d w w') (static : Option Path) :
    AlikeUnless Failure.IsLong (SameSite (d.settle (s.output.child manifestFile)) same) (SameOutcome same)
      (s.build p static w) (s.build q static w') := by
  unfold Settings.build
  refine (doSame_copyAssets h.sound hp static w w' hw).bind (fun _ _ hu => hu.sameSite _ _) ?_
  rintro images _ u u' rfl hu
  have hbrand : DoSame d (fun b b' : Brand => b'.logo = b.logo ∧ (same → b' = b))
      (Job.onDisk (check (detectBrand · p.parent static (some images))))
      (Job.onDisk (check (detectBrand · q.parent static (some images)))) := by
    refine doSame_seen fun area e hg => ?_
    by_cases hs : same
    · obtain ⟨m, hm⟩ := hsame hs
      exact (detectBrand_unless (hm.of_grows hg)).imp fun _ _ he => ⟨by rw [he], fun _ => he.symm⟩
    · exact (detectBrand_logo e _ _ _ _).imp fun _ _ he => ⟨he, fun h => absurd h hs⟩
  refine (hbrand u u' hu).bind (fun _ _ hu => hu.sameSite _ _) ?_
  rintro b b' v v' hb hv
  refine AlikeUnless.bind (I := Twins d) (Q := Eq) ?_ (fun _ _ hu => hu.sameSite _ _) ?_
  · exact .alike (.ok ⟨hv.disk, rfl, hv.grows⟩ rfl)
  rintro _ _ u u' _ hu
  refine (doSame_assemble h hp s.classifier u u' hu).bind (fun _ _ hu => hu.sameSite _ _) ?_
  rintro buckets _ v v' rfl hv
  refine (writeManifest_alike h.sound hv fun hs => by rw [hb.2 hs]).bind (fun _ _ => id) ?_
  rintro path _ u u' rfl hu
  refine .alike (.ok hu ⟨rfl, rfl, ?_, rfl, ?_, fun hs => by rw [hb.2 hs]⟩)
  · exact congrArg (fun es : List Emission => firstMentions [] (es.map Emission.target)) hu.written
  · show (b'.withSettings s.brand).logo = (b.withSettings s.brand).logo
    rw [Brand.withSettings, Brand.withSettings, hb.1]

/-! ## The output folder made ready -/

/-- **A path that passes no place inside a folder**, by its names alone; it may pass the folder itself. -/
def PassesBy (d : Disk) (out : Location) (p : Path) : Prop :=
  ∀ front ∈ p.names.inits, out <+: Disk.locationAlong (d.start p) front → Disk.locationAlong (d.start p) front = out

instance PassesBy.decidable (d : Disk) (out : Location) (p : Path) : Decidable (PassesBy d out p) :=
  inferInstanceAs (Decidable (∀ front ∈ p.names.inits, out <+: Disk.locationAlong (d.start p) front →
    Disk.locationAlong (d.start p) front = out))

theorem PassesBy.parent {out : Location} (h : PassesBy d out p) : PassesBy d out p.parent := fun front hfront =>
  h front ((List.mem_inits _ _).2 (((List.mem_inits _ _).1 hfront).trans (List.dropLast_prefix p.names)))

section Prepare

variable {s : Settings} {e : Disk}

theorem sameLinks_of_prepare (hp : s.output.Proper) (hs : d.Sound) (hlink : d.NoLinks)
    (h : s.prepare d = (.ok (), e)) : d.SameLinks e := by
  obtain ⟨x, _, hlinks, _, _, hg⟩ := prepare_eq_ok hp h
  exact (hlinks hs fun m target _ => hlink m target).trans hg.links

/-- **An output folder that has been emptied** is a directory again. -/
theorem directory_of_prepare (hp : s.output.Proper) (hs : d.Sound) (hlink : d.NoLinks) (hclean : s.clean = true)
    (h : s.prepare d = (.ok (), e)) : e.locate? (d.settle s.output) = some .directory := by
  have hfound := (prepare_stands hp hs hlink h).1.found
  rw [Settings.prepare, if_pos hclean] at h
  obtain ⟨x, _, hmade⟩ := resetOutput_eq_ok h
  obtain ⟨y, _, hlast⟩ := makeDirectories_fresh (R := Disk.Grows .none) (.refl _)
    (fun n => makeParentsWithin_grows n true hp.parent) hmade
  obtain ⟨m, hm, hnone, rfl⟩ := find_of_makeDirectory hp hlast
  obtain rfl : m = d.settle s.output := congrArg Place.location (Except.ok.inj (hm.symm.trans hfound))
  refine Disk.locate?_put_self y .directory fun hroot => ?_
  rw [hroot, Disk.locate?_root] at hnone
  cases hnone

/-- **A directory is still found** once the output folder is ready, if its path passes by what is emptied. -/
theorem find_of_prepared (hp : s.output.Proper) (hs : d.Sound) (hlink : d.NoLinks) (h : s.prepare d = (.ok (), e))
    (hpass : s.clean = true → PassesBy d (d.settle s.output) p) (hf : d.find p = .ok ⟨l, some .directory⟩) :
    e.find p = .ok ⟨l, some .directory⟩ := by
  obtain ⟨x, _, _, hkeep, _, hg⟩ := prepare_eq_ok hp h
  obtain ⟨hr, hwalk⟩ := Disk.walks_of_find hf
  refine Disk.find_of_walks hr le_rfl ?_
  rw [(sameLinks_of_prepare hp hs hlink h).start]
  refine Disk.walks_kept hlink hwalk rfl fun front hfront hdir => ?_
  by_cases hclears : s.clears d (Disk.locationAlong (d.start p) front)
  · obtain ⟨hclean, m, hm, hbelow⟩ := hclears
    obtain rfl : d.settle s.output = m := Disk.settle_of_find (.refl d) hs.up_not_mem_here hm
    rw [hpass hclean front ((List.mem_inits _ _).2 hfront) hbelow]
    exact directory_of_prepare hp hs hlink hclean h
  · rw [← hkeep _ hclears] at hdir
    obtain ⟨entry, hentry, hkind⟩ := hg.kept _ _ hdir
    rw [hentry, hkind.directory_iff.1 rfl]

/-- **Two paths still lead to one folder** once the output folder is ready. -/
theorem oneFolder_of_prepared (hp : s.output.Proper) (hs : d.Sound) (hlink : d.NoLinks)
    (h : s.prepare d = (.ok (), e))
    (hpass : s.clean = true → PassesBy d (d.settle s.output) p ∧ PassesBy d (d.settle s.output) q)
    (hf : d.find p = .ok ⟨l, some .directory⟩) (hg : d.find q = .ok ⟨l, some .directory⟩) : e.OneFolder p q l := by
  obtain ⟨hstands, helink⟩ := prepare_stands hp hs hlink h
  exact ⟨hstands.sound, find_of_prepared hp hs hlink h (fun hclean => (hpass hclean).1) hf,
    find_of_prepared hp hs hlink h (fun hclean => (hpass hclean).2) hg, fun m target _ => helink m target⟩

end Prepare

/-! ## The run -/

/-- **The parents of two paths lead to one folder.** -/
def SameAbove (d : Disk) (p q : Path) : Prop :=
  ∃ m, d.find p.parent = .ok ⟨m, some .directory⟩ ∧ d.find q.parent = .ok ⟨m, some .directory⟩

/-- **A path that ends in a name**, and neither in nothing nor by leading up. -/
def EndsInName (p : Path) : Prop := ∃ name, p.names.getLast? = some name ∧ name ≠ Path.up

theorem find_parent_of_name (hlink : d.NoLinks) (hname : EndsInName p) (hf : d.find p = .ok ⟨l, some .directory⟩) :
    d.find p.parent = .ok ⟨l.dropLast, some .directory⟩ := by
  obtain ⟨name, hlast, hup⟩ := hname
  have hchild := parent_child_of_getLast? hlast
  obtain ⟨m, hm⟩ : ∃ m, d.find p.parent = .ok ⟨m, some .directory⟩ :=
    Disk.find_above_directory (hchild.symm ▸ hf : d.find (p.parent.descend [name]) = _)
  have hplace := Disk.place_of_find_child hm hup (fun target => hlink _ target) (hchild.symm ▸ hf)
  obtain rfl : l = m ++ [name] := congrArg Place.location hplace
  rw [hm, List.dropLast_concat]

/-- **Two paths to one folder that end in names** have parents that lead to one folder. -/
theorem sameAbove_of_names (hlink : d.NoLinks) (hp : d.find p = .ok ⟨l, some .directory⟩)
    (hq : d.find q = .ok ⟨l, some .directory⟩) (hpname : EndsInName p) (hqname : EndsInName q) : SameAbove d p q :=
  ⟨_, find_parent_of_name hlink hpname hp, find_parent_of_name hlink hqname hq⟩

theorem folders_of_docs (s : Settings) (hf : d.find p = .ok ⟨l, some .directory⟩) :
    ({ s with docs := some p } : Settings).folders d =
      ((staticFolder d s.searchRoot s.static).mapError .disk).map fun static => (p, static) := by
  have hseek : d.seekDirectory p = .ok true := by rw [Disk.seekDirectory, Disk.seek, hf]; rfl
  unfold Settings.folders docsFolder
  dsimp only
  rw [hseek]
  cases staticFolder d s.searchRoot s.static <;> rfl

theorem overlaps_of_directory (htree : d.IsTree) (hp : d.find p = .ok ⟨l, some .directory⟩)
    (hq : d.find q = .ok ⟨l, some .directory⟩) (output : Path) : overlaps d q output = overlaps d p output := by
  rw [overlaps, overlaps, resolve_of_directory htree hp, resolve_of_directory htree hq]

/-- **The spelling of the documents' path hardly matters.**  Let two paths lead to one directory, and neither to it
through an output folder that is emptied.  Then a run along the one fails as a run along the other does, or both return
with the same pages, tabs and logo, and leave the same disk but for the manifest; unless one fails because a path is too
long.  If the parents of the two lead to one folder, the brand and the manifest are the same too, and they do if both
paths end in names. -/
theorem run_respelled {s : Settings} (htree : w.disk.IsTree) (hlink : w.disk.NoLinks) (hproper : s.output.Proper)
    (hp : w.disk.find p = .ok ⟨l, some .directory⟩) (hq : w.disk.find q = .ok ⟨l, some .directory⟩)
    (hpass : s.clean = true →
      PassesBy w.disk (w.disk.settle s.output) p ∧ PassesBy w.disk (w.disk.settle s.output) q) :
    (EndsInName p → EndsInName q → SameAbove w.disk p q) ∧
    AlikeUnless Failure.IsLong
      (SameSite (w.disk.settle (s.output.child manifestFile)) (SameAbove w.disk p q))
      (SameOutcome (SameAbove w.disk p q))
      (({ s with docs := some p } : Settings).run w) (({ s with docs := some q } : Settings).run w) := by
  refine ⟨sameAbove_of_names hlink hp hq, ?_⟩
  have hsame : ∀ {u u' : World}, u'.disk = u.disk → u'.written = u.written →
      SameSite (w.disk.settle (s.output.child manifestFile)) (SameAbove w.disk p q) u u' :=
    fun hd hw => ⟨hw, fun _ _ => by rw [hd], fun _ => hd⟩
  have hfp := folders_of_docs s hp
  have hfq := folders_of_docs s hq
  cases hstatic : staticFolder w.disk s.searchRoot s.static with
  | error problem =>
    rw [hstatic] at hfp hfq
    rw [run_of_no_docs hfp, run_of_no_docs hfq]
    exact .alike (.error (hsame rfl rfl) rfl)
  | ok static =>
    rw [hstatic] at hfp hfq
    rw [run_eq hfp, run_eq hfq]
    dsimp only
    rw [overlaps_of_directory htree hp hq]
    split
    · exact .alike (.error (hsame rfl rfl) rfl)
    · exact .alike (.error (hsame rfl rfl) rfl)
    · have hprepare : ∀ docs, ({ s with docs := docs } : Settings).prepare = s.prepare := fun _ => rfl
      rw [hprepare (some p), hprepare (some q)]
      rcases hready : s.prepare w.disk with ⟨problem | _, e⟩
      · exact .alike (.error (hsame rfl rfl) rfl)
      have hs := htree.sound
      have habove : SameAbove w.disk p q → ∃ m, e.OneFolder p.parent q.parent m := fun ⟨m, hpm, hqm⟩ =>
        ⟨m, oneFolder_of_prepared hproper hs hlink hready
          (fun hclean => ⟨(hpass hclean).1.parent, (hpass hclean).2.parent⟩) hpm hqm⟩
      rw [← (sameLinks_of_prepare hproper hs hlink hready).settle hs hlink]
      have htwins : Twins e { w.told p with disk := e } { w.told q with disk := e } := ⟨rfl, rfl, _, .refl .none e⟩
      exact build_alike (oneFolder_of_prepared hproper hs hlink hready hpass hp hq) hproper habove htwins static

theorem run_respelled_givenSite : ∃ o o' w w',
    ({ givenSettings (.word "/out") with docs := some (.word "docs") } : Settings).run
      { disk := givenSite oldOutput } = (.ok o, w) ∧
    ({ givenSettings (.word "/out") with docs := some (.word "/static/.././out/../docs") } : Settings).run
      { disk := givenSite oldOutput } = (.ok o', w') ∧
    o'.pages = o.pages ∧ o'.tabs = o.tabs ∧ o'.brand = o.brand ∧ w'.disk = w.disk := by
  obtain ⟨o, w, hrun⟩ := Action.exists_eq_ok (x := ({ givenSettings (.word "/out") with
    docs := some (.word "docs") } : Settings).run { disk := givenSite oldOutput }) (by decide +kernel)
  obtain ⟨o', w', hrun'⟩ := Action.exists_eq_ok (x := ({ givenSettings (.word "/out") with
    docs := some (.word "/static/.././out/../docs") } : Settings).run { disk := givenSite oldOutput })
    (by decide +kernel)
  refine ⟨o, o', w, w', hrun, hrun', ?_⟩
  have hplain := (givenSite_holds (.inr rfl)).plain
  obtain ⟨habove, halike⟩ := run_respelled (s := givenSettings (.word "/out")) (w := { disk := givenSite oldOutput })
    (p := .word "docs") (q := .word "/static/.././out/../docs") (l := ["docs".toList]) hplain.toIsTree hplain.noLinks
    (Path.ofText_proper _) (by decide) (by decide) (fun _ => by decide)
  rw [hrun, hrun'] at halike
  have hsame := habove ⟨"docs".toList, by decide⟩ ⟨"docs".toList, by decide⟩
  cases halike with
  | alike h =>
    obtain ⟨hsite, houtcome⟩ := h.of_ok
    exact ⟨houtcome.pages, houtcome.tabs, houtcome.brand hsame, hsite.whole hsame⟩

/-- **A site whose name is in its settings**, with a folder in its documents and one in an old output folder. -/
def namedSite : Disk where
  entries := [(["site"], .directory), (["site", "docusaurus.config.js"], .file (Text.Utf8.encode "title: 'A'".toList)),
    (["site", "docs"], .directory), (["site", "docs", "a.md"], .file [0x78]), (["site", "docs", "g"], .directory),
    (["out"], .directory), (["out", "sub"], .directory)].map fun e => (e.1.map String.toList, e.2)

def namedSettings (docs : String) : Settings where
  output := .word "/out"
  docs := some (.word docs)

/-- **The spelling of the documents' path can matter.**  Three paths lead to the documents.  A run along the first finds
the name of the site in the folder above; along the second it looks for it in the documents and finds none; and the
third leads through the output folder, so once that has been emptied it leads nowhere. -/
theorem spelling_matters : namedSite.IsTree ∧ namedSite.NoLinks ∧
    (∀ docs ∈ ["/site/docs", "/site/docs/g/..", "/out/sub/../../site/docs"],
      namedSite.find (.word docs) = .ok ⟨["site".toList, "docs".toList], some .directory⟩) ∧
    (((namedSettings "/site/docs").run { disk := namedSite }).1.toOption.map fun o => o.brand.name) =
      some "A".toList ∧
    (((namedSettings "/site/docs/g/..").run { disk := namedSite }).1.toOption.map fun o => o.brand.name) =
      some "Documentation".toList ∧
    failure? ((namedSettings "/out/sub/../../site/docs").run { disk := namedSite }).1 = some (.disk .missing) := by
  refine ⟨⟨by decide, by decide, by decide, by decide⟩, ?_, by decide, by decide +kernel, by decide +kernel,
    by decide +kernel⟩
  exact fun l target => Disk.linkFree_of_entries (by simp [namedSite]) l l target (List.prefix_refl l)

end DocFerry.Site
