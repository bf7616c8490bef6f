import DocFerry.Proofs.Site.Keeping
import DocFerry.Proofs.Site.Navigation
/-!
# What a run leaves alone

A run writes its pages, its manifest and its copies of assets, and nothing else (`kept_emits`, `copyAssets_wrote`).
So a file that emptying the output folder does not take away is still there when the run returns, with the same
octets, unless the output folder is kept and the run writes to the very place of the file (`run_keeps_files`).
Documents and assets are no exception (`run_loses_files`).
-/
namespace DocFerry.Site

open Files Nav

/-! ## Pages -/

/-- **What writing pages does**, on a disk in order: files below the output folder, each of them noted. -/
def Emits (output : Path) (w w' : World) : Prop :=
  w.disk.Sound → ∃ es, w'.written = w.written ++ es ∧ (∀ e ∈ es, IsBelow output e.target) ∧
    w.disk.Wrote (fun _ q => ∃ e ∈ es, q = e.target) w'.disk

theorem Emits.refl (output : Path) (w : World) : Emits output w w := fun _ => ⟨[], by simp, by simp, .refl _ _⟩

theorem Emits.trans (output : Path) (w₁ w₂ w₃ : World) (h : Emits output w₁ w₂) (k : Emits output w₂ w₃) :
    Emits output w₁ w₃ := by
  intro hs
  obtain ⟨es, hw, hb, hd⟩ := h hs
  obtain ⟨fs, hw', hb', hd'⟩ := k ((hd hs).sound hs)
  refine ⟨es ++ fs, by rw [hw', hw, List.append_assoc], fun e he => ?_, ?_⟩
  · exact (List.mem_append.1 he).elim (hb e) (hb' e)
  · refine .trans (Disk.stable_const _) _ w₂.disk _ (hd.mono fun q ⟨e, he, hq⟩ => ?_) (hd'.mono fun q ⟨e, he, hq⟩ => ?_)
    · exact ⟨e, List.mem_append_left _ he, hq⟩
    · exact ⟨e, List.mem_append_right _ he, hq⟩

theorem emits_of_same {output : Path} {w w' : World} (hd : w'.disk = w.disk) (hw : w'.written = w.written) :
    Emits output w w' := fun _ => ⟨[], by simp [hw], by simp, hd ▸ .refl _ _⟩

theorem check_emits {α : Type} (output : Path) (f : Disk → Except Failure α) :
    Action.Keeps (Emits output) (Job.check f) := .refl output

variable {convert : Converter} {output : Path}

theorem writePage_emits (hp : output.Proper) {source : Path} {dirs : List Text} (hd : ∀ name ∈ dirs, IsEntryName name)
    (hf : '/' ∉ source.name) (label : Option Text) :
    Action.Keeps (Emits output) (writePage convert output source (Text.join ['/'] dirs) label) := by
  have hentries : ∀ name ∈ Address.target (dirs ++ [source.name]), IsEntryName name := by
    refine Address.target_entryNames ?_ (by rwa [Address.file_append])
    rw [Address.folders_append]
    exact hd
  have hproper : (targetAt output (dirs ++ [source.name])).Proper := hp.descend fun name hn => (hentries name hn).1
  unfold writePage
  refine Action.Keeps.bind (Emits.trans output) (check_emits output _) fun raw => ?_
  simp only [targetPath_join output hd hf]
  refine Action.Keeps.bind (Emits.trans output) (fun w _ => ⟨[], ?_, by simp, ?_⟩) fun _ w hs => ?_
  · rw [(Job.onDisk_rest _ w).2, List.append_nil]
  · have hk := Job.onDisk_keeps (makeDirectories_grows true hproper.parent) w
    exact Disk.Grows.wrote hk
  -- The page and the note of it come together, so the two steps are taken as one.
  rw [Action.bind_apply, Job.onDisk]
  have hwrote := write_wrote hproper (Text.Utf8.encode (convert ⟨raw, Path.baseName source.name,
    isIndexName (Path.baseName source.name), label⟩)) w.disk
  rcases hd : write (targetAt output (dirs ++ [source.name])) (Text.Utf8.encode (convert ⟨raw,
    Path.baseName source.name, isIndexName (Path.baseName source.name), label⟩)) w.disk with ⟨problem | _, d'⟩
  · rw [hd] at hwrote
    have hsame : d' = w.disk := by
      rw [write_eq] at hd
      split at hd <;> cases hd
      rfl
    exact ⟨[], by simp, by simp, hsame ▸ .refl _ _⟩
  · rw [hd] at hwrote
    refine ⟨[⟨_, _⟩], rfl, ?_, hwrote.mono fun q hq => ⟨_, List.mem_singleton_self _, hq⟩⟩
    intro e he
    rw [List.mem_singleton.1 he]
    exact ⟨_, hentries, rfl⟩

theorem kept_emits (hp : output.Proper) : Kept convert output (Emits output) where
  same _ _ := emits_of_same
  trans := Emits.trans output
  sound _ _ h hs := h hs hs
  page _ _ label hd hf := writePage_emits hp hd hf label

/-! ## The run -/

/-- **The paths of what a run makes**: its manifest, its pages and its copies of assets. -/
def IsProduct (static : Option Path) (o : Outcome) (d : Disk) (p : Path) : Prop :=
  p = o.manifest ∨ p ∈ o.pages ∨ IsAssetCopy static o.output d p

/-- **A run writes what it makes**, below the output folder, once that is ready. -/
theorem run_wrote {s : Settings} {o : Outcome} {w w' : World} (hproper : s.output.Proper) (hsound : w.disk.Sound)
    (hrun : s.run w = (.ok o, w')) :
    ∃ static d₁, s.folders w.disk = .ok (o.docs, static) ∧ s.prepare w.disk = (.ok (), d₁) ∧ d₁.Sound ∧
      d₁.Wrote (fun d q => IsProduct static o d q ∧ IsBelow s.output q) w'.disk := by
  obtain ⟨static, w₁, w₂, w₃, images, b, manifest, hfolders, _, hprepare, hassets, hassemble, hmanifest, hwritten, _,
    hpages, houtput, hpath⟩ := run_eq_ok hrun
  obtain ⟨e, he, _, _, _, hmade⟩ := prepare_eq_ok hproper hprepare
  have hsound₁ := hmade.sound (he hsound)
  have hassets' := copyAssets_wrote hproper static w₁
  rw [hassets] at hassets'
  have hsound₂ := (hassets' hsound₁).sound hsound₁
  obtain ⟨es, hes, hbelow, hpagesWrote⟩ := by
    have hk := (@kept_emits .standard _ hproper).assemble s.classifier o.docs { w₂ with written := [] } hsound₂
    rwa [hassemble] at hk
  have hlast := write_wrote (proper_child hproper isEntryName_manifestFile) manifest w₃.disk
  rw [hmanifest] at hlast
  have hstable : Disk.Stable fun d q => IsProduct static o d q ∧ IsBelow s.output q := by
    rintro area d f q hg ⟨h | h | h, hq⟩
    · exact ⟨.inl h, hq⟩
    · exact ⟨.inr (.inl h), hq⟩
    · exact ⟨.inr (.inr (stable_isAssetCopy _ _ _ _ _ _ hg h)), hq⟩
  refine ⟨static, w₁.disk, hfolders, hprepare, hsound₁, ?_⟩
  refine .trans hstable _ w₂.disk _ (hassets'.mono fun q hq => ?_) (.trans hstable _ w₃.disk _
    (hpagesWrote.mono fun q ⟨f, hf, hq⟩ => ?_) (hlast.mono fun q hq => ?_))
  · exact ⟨.inr (.inr (houtput ▸ hq)), hq.below⟩
  · refine ⟨.inr (.inl ?_), hq ▸ hbelow f hf⟩
    rw [hpages, (firstMentions_nodup [] _).2, hwritten, hes, hq]
    exact ⟨List.mem_map.2 ⟨f, by simpa using hf, rfl⟩, by simp⟩
  · exact ⟨.inl (hq.trans hpath.symm), [manifestFile], by simpa using isEntryName_manifestFile, hq⟩

/-- **A run keeps every file that it neither clears nor writes to.**  A file that emptying the output folder does not
take away is still there when the run returns, with the same octets; where the output folder is not emptied, unless
what the run makes leads to the very place of the file. -/
theorem run_keeps_files {s : Settings} {o : Outcome} {w w' : World} {static : Option Path} (htree : w.disk.IsTree)
    (hproper : s.output.Proper) (hrun : s.run w = (.ok o, w'))
    (hfolders : s.folders w.disk = .ok (o.docs, static)) {l : Location} {bytes : Text.Utf8.Octets}
    (hfile : w.disk.locate? l = some (.file bytes)) (hclear : ¬ s.clears w.disk l)
    (hwritten : s.clean = false → ∀ p e, IsProduct static o w'.disk p → w'.disk.find p ≠ .ok ⟨l, e⟩) :
    w'.disk.locate? l = some (.file bytes) := by
  obtain ⟨static', d₁, hfolders', hprepare, hsound₁, hwrote⟩ := run_wrote hproper htree.sound hrun
  obtain rfl : static' = static := congrArg Prod.snd (Except.ok.inj (hfolders'.symm.trans hfolders))
  obtain ⟨e, _, _, hkept, _, hmade⟩ := prepare_eq_ok hproper hprepare
  have hsame : ∀ {area : Area} {d d' : Disk}, d.Grows area d' → ¬ area l → d.locate? l = some (.file bytes) →
      d'.locate? l = some (.file bytes) := by
    intro area d d' hg hl hd
    rcases hg.outside l hl with he | ⟨hn, _⟩
    · rw [he, hd]
    · rw [hd] at hn; cases hn
  have hready : d₁.locate? l = some (.file bytes) := hsame hmade id (by rw [hkept l hclear, hfile])
  cases hclean : s.clean with
  | false =>
    refine hsame (hwrote hsound₁) ?_ hready
    rintro ⟨p, b, ⟨hp, _⟩, hf⟩
    exact hwritten hclean p _ hp hf
  | true =>
    -- The output folder is new, so everything that the run writes is in it, and the file is not.
    obtain ⟨k, hfound, hfree, hleft⟩ := prepare_fresh hclean hproper htree hprepare
    have hsettle := Disk.settle_of_find (.refl d₁) hsound₁.up_not_mem_here hfound
    have hbelow := (hwrote.mono fun q hq => hq.2).below (p := s.output) hsound₁ (.refl d₁) (by rwa [hsettle])
    refine hsame hbelow (fun hl => ?_) hready
    rw [Area.below, hsettle] at hl
    exact hleft l _ hfile hclear hl

theorem run_keeps_files_smallSite : ∃ o w', plainSettings.run { disk := smallSite } = (.ok o, w') ∧
    w'.disk.locate? (Path.names (.word "docs/a.md")) = some (.file [0x61]) := by
  obtain ⟨o, w', hrun⟩ := Action.exists_eq_ok (show (plainSettings.run { disk := smallSite }).1.isOk = true by
    decide +kernel)
  have hfound : plainSettings.folders smallSite = .ok (.word "docs", none) := by rfl
  have hdocs : o.docs = .word "docs" := docs_of_run hrun hfound
  have hclear : ¬ plainSettings.clears smallSite (Path.names (.word "docs/a.md")) := by
    rintro ⟨_, l, hl, _⟩
    have hnone : smallSite.find plainSettings.output = .ok ⟨Path.names (.word "out"), none⟩ := by rfl
    rw [hnone] at hl
    cases hl
  exact ⟨o, w', hrun, run_keeps_files (w := { disk := smallSite }) smallSite_isTree (Path.ofText_proper _) hrun
    (hdocs ▸ hfound) (by decide) hclear (fun h => absurd h (by decide))⟩

/-- **A site that holds its own output folder**, with two files in there. -/
def nestedSite : Disk where
  entries := [(["docs"], .directory), (["docs", "z.md"], .file [0x7A]), (["docs", "out"], .directory),
    (["docs", "out", "old.txt"], .file [0x61]), (["docs", "out", "z.mdx"], .file [0x62])].map
      fun e => (e.1.map String.toList, e.2)

/-- **The settings of a run** into a folder of the documents, which is emptied first or kept. -/
def nestedSettings (clean : Bool) : Settings where
  output := .word "docs/out"
  docs := some (.word "docs")
  clean := clean

/-- **A run can lose files of the documents.**  A file in an output folder that is emptied is gone, and one in the place
of a page is overwritten where the output folder is kept. -/
theorem run_loses_files :
    (∃ o w', (nestedSettings true).run { disk := nestedSite } = (.ok o, w') ∧ o.docs = .word "docs" ∧
      nestedSite.at? (.word "docs/out/old.txt") = some (.file [0x61]) ∧
      w'.disk.at? (.word "docs/out/old.txt") = none) ∧
    ∃ o w', (nestedSettings false).run { disk := nestedSite } = (.ok o, w') ∧ o.docs = .word "docs" ∧
      nestedSite.at? (.word "docs/out/z.mdx") = some (.file [0x62]) ∧
      w'.disk.at? (.word "docs/out/z.mdx") ≠ some (.file [0x62]) := by
  have hfound : ∀ clean, (nestedSettings clean).folders nestedSite = .ok (.word "docs", none) := fun clean => by rfl
  constructor
  · obtain ⟨o, w', hrun⟩ := Action.exists_eq_ok (show ((nestedSettings true).run { disk := nestedSite }).1.isOk = true by
      decide +kernel)
    have hgone : ((nestedSettings true).run { disk := nestedSite }).2.disk.at? (.word "docs/out/old.txt") = none := by
      decide +kernel
    rw [hrun] at hgone
    exact ⟨o, w', hrun, docs_of_run hrun (hfound true), by decide, hgone⟩
  · obtain ⟨o, w', hrun⟩ := Action.exists_eq_ok (show ((nestedSettings false).run { disk := nestedSite }).1.isOk = true
      by decide +kernel)
    have hlost : ((nestedSettings false).run { disk := nestedSite }).2.disk.at? (.word "docs/out/z.mdx") ≠
        some (.file [0x62]) := by decide +kernel
    rw [hrun] at hlost
    exact ⟨o, w', hrun, docs_of_run hrun (hfound false), by decide, hlost⟩

end DocFerry.Site
