import DocFerry.Proofs.Files.Tree
import DocFerry.Proofs.Site.Jobs
import DocFerry.Site.Migration
/-!
# A run taken apart

A run that finds its folders makes the output folder ready and goes on with what it builds there (`run_eq`,
`Settings.build`).  A run that returns has found its folders, made the output folder ready, copied the assets,
assembled the site and written the manifest, one after another (`run_eq_ok`).  Making the output folder ready leaves
it as a directory (`find_of_prepare`) and takes away at most what lies at or below it (`prepare_eq_ok`); copying the
assets writes below its folder of images (`copyAssets_wrote`).
-/
namespace DocFerry.Site

open Files Nav

/-- **The change that makes the output folder ready.** -/
def Settings.prepare (s : Settings) : Change Unit :=
  if s.clean then resetOutput s.output else makeDirectories true s.output

/-- **The part of a run after the output folder is ready.** -/
def Settings.build (s : Settings) (docs : Path) (static : Option Path) : Job Outcome := do
  let images ← copyAssets static s.output
  let detected ← Job.onDisk (check (detectBrand · docs.parent static (some images)))
  let brand := detected.withSettings s.brand
  modify fun w => { w with written := [] }
  let buckets ← assemble .standard s.output s.classifier docs
  let manifestPath ← writeManifest s.output (manifest buckets.tabs brand s.brand s.navbar s.footer)
  let written := (← get).written
  return { docs, output := s.output, manifest := manifestPath,
           pages := firstMentions [] (written.map Emission.target), brand, tabs := buckets.tabs }

/-- **The world once a run has told which documents it reads.** -/
def World.told (w : World) (docs : Path) : World :=
  { w with log := w.log ++ [⟨.info, "mint_migrate.migrator".toList, "converting docs from ".toList ++ docs.text⟩] }

/-- **A run that finds its folders** makes the output folder ready, unless that would hold the documents, and goes on
with what it builds there. -/
theorem run_eq {s : Settings} {w : World} {docs : Path} {static : Option Path}
    (h : s.folders w.disk = .ok (docs, static)) :
    s.run w = match overlaps w.disk docs s.output with
      | .error problem => (.error (.disk problem), w.told docs)
      | .ok true => (.error (.overlap s.output), w.told docs)
      | .ok false =>
        match s.prepare w.disk with
        | (.ok _, d) => s.build docs static { w.told docs with disk := d }
        | (.error problem, d) => (.error (.disk problem), { w.told docs with disk := d }) := by
  unfold Settings.run
  rw [Action.bind_apply, Job.check, h]
  dsimp only
  rw [Action.bind_apply]
  simp only [Job.tell, Action.modify_apply]
  rw [Action.bind_apply, Job.onDisk, check]
  dsimp only
  cases overlaps w.disk docs s.output with
  | error problem => rfl
  | ok inside =>
    cases inside with
    | true => rfl
    | false =>
      rw [show s.prepareOutput = Job.onDisk s.prepare from rfl]
      dsimp only
      rw [if_neg (by simp), Action.bind_apply, Job.onDisk]
      dsimp only
      rcases s.prepare w.disk with ⟨problem | _, d⟩ <;> rfl

/-- **What is built, step by step.** -/
theorem build_eq_ok {s : Settings} {docs : Path} {static : Option Path} {o : Outcome} {w w' : World}
    (h : s.build docs static w = (.ok o, w')) :
    ∃ (w₂ w₃ : World) (images : Path) (b : Buckets) (manifest : Text.Utf8.Octets),
      copyAssets static s.output w = (.ok images, w₂) ∧
      assemble .standard s.output s.classifier docs { w₂ with written := [] } = (.ok b, w₃) ∧
      write (s.output.child manifestFile) manifest w₃.disk = (.ok (), w'.disk) ∧ w'.written = w₃.written ∧
      o.tabs = b.tabs ∧ o.pages = firstMentions [] (w'.written.map Emission.target) ∧ o.docs = docs ∧
      o.output = s.output ∧ o.manifest = s.output.child manifestFile := by
  unfold Settings.build at h
  obtain ⟨images, w₂, hassets, h₁⟩ := Action.bind_eq_ok_iff.1 h
  obtain ⟨brand, x, hbrand, h₂⟩ := Action.bind_eq_ok_iff.1 h₁
  obtain ⟨d₂, hd₂, rfl⟩ := Job.onDisk_eq_ok.1 hbrand
  obtain ⟨_, rfl⟩ := check_eq_ok.1 hd₂
  obtain ⟨_, x, hmodify, h₃⟩ := Action.bind_eq_ok_iff.1 h₂
  cases hmodify
  obtain ⟨b, w₃, hassemble, h₄⟩ := Action.bind_eq_ok_iff.1 h₃
  obtain ⟨manifestPath, w₄, hmanifest, h₅⟩ := Action.bind_eq_ok_iff.1 h₄
  obtain ⟨last, x, hlast, h₆⟩ := Action.bind_eq_ok_iff.1 h₅
  cases hlast
  obtain ⟨rfl, rfl⟩ := Action.pure_eq_ok_iff.1 h₆
  obtain ⟨_, x, hwrite, hpath⟩ := Action.bind_eq_ok_iff.1 hmanifest
  obtain ⟨rfl, rfl⟩ := Action.pure_eq_ok_iff.1 hpath
  obtain ⟨d₄, hd₄, rfl⟩ := Job.onDisk_eq_ok.1 hwrite
  exact ⟨w₂, w₃, images, b, _, hassets, hassemble, hd₄, rfl, rfl, rfl, rfl, rfl, rfl⟩

/-- **A run that returns** has found its folders, made the output folder ready and built the site there. -/
theorem build_of_run {s : Settings} {o : Outcome} {w w' : World} (h : s.run w = (.ok o, w')) :
    ∃ docs static d, s.folders w.disk = .ok (docs, static) ∧ overlaps w.disk docs s.output = .ok false ∧
      s.prepare w.disk = (.ok (), d) ∧ s.build docs static { w.told docs with disk := d } = (.ok o, w') := by
  cases hf : s.folders w.disk with
  | error failure =>
    rw [run_of_no_docs hf] at h
    cases h
  | ok found =>
    obtain ⟨docs, static⟩ := found
    rw [run_eq hf] at h
    split at h
    · cases h
    · cases h
    · rename_i hapart
      split at h
      · rename_i d hd
        exact ⟨docs, static, d, rfl, hapart, hd, h⟩
      · cases h

/-- **A run that returns, step by step.** -/
theorem run_eq_ok {s : Settings} {o : Outcome} {w w' : World} (h : s.run w = (.ok o, w')) :
    ∃ (static : Option Path) (w₁ w₂ w₃ : World) (images : Path) (b : Buckets) (manifest : Text.Utf8.Octets),
      s.folders w.disk = .ok (o.docs, static) ∧ overlaps w.disk o.docs s.output = .ok false ∧
      s.prepare w.disk = (.ok (), w₁.disk) ∧ copyAssets static s.output w₁ = (.ok images, w₂) ∧
      assemble .standard s.output s.classifier o.docs { w₂ with written := [] } = (.ok b, w₃) ∧
      write (s.output.child manifestFile) manifest w₃.disk = (.ok (), w'.disk) ∧ w'.written = w₃.written ∧
      o.tabs = b.tabs ∧ o.pages = firstMentions [] (w'.written.map Emission.target) ∧ o.output = s.output ∧
      o.manifest = s.output.child manifestFile := by
  obtain ⟨docs, static, d, hfolders, hapart, hprepare, hbuild⟩ := build_of_run h
  obtain ⟨w₂, w₃, images, b, manifest, hassets, hassemble, hmanifest, hwritten, htabs, hpages, rfl, hrest⟩ :=
    build_eq_ok hbuild
  exact ⟨static, _, w₂, w₃, images, b, manifest, hfolders, hapart, hprepare, hassets, hassemble, hmanifest, hwritten,
    htabs, hpages, hrest⟩

theorem docs_of_run {s : Settings} {o : Outcome} {w w' : World} {docs : Path} {static : Option Path}
    (hrun : s.run w = (.ok o, w')) (hfound : s.folders w.disk = .ok (docs, static)) : o.docs = docs := by
  obtain ⟨_, _, _, _, _, _, _, hfolders, _⟩ := run_eq_ok hrun
  exact congrArg Prod.fst (Except.ok.inj (hfolders.symm.trans hfound))

/-! ## The output folder -/

/-- **The output folder emptied**: removed if it was found, and made anew. -/
theorem resetOutput_eq_ok {output : Path} {d d' : Disk} (h : resetOutput output d = (.ok (), d')) :
    ∃ e, (e = d ∧ (∀ l, d.find output ≠ .ok ⟨l, some .directory⟩) ∨
        ∃ l, d.find output = .ok ⟨l, some .directory⟩ ∧ e = d.removeBelow l) ∧
      makeDirectories false output e = (.ok (), d') := by
  unfold resetOutput at h
  obtain ⟨found, e, hfound, h₁⟩ := Action.bind_eq_ok_iff.1 h
  obtain ⟨hfound, rfl⟩ := check_eq_ok.1 hfound
  split at h₁
  · obtain ⟨_, e', hremoved, hmade⟩ := Action.bind_eq_ok_iff.1 h₁
    exact ⟨e', .inr (removeTree_eq_ok hremoved), hmade⟩
  · rename_i hnone
    refine ⟨e, .inl ⟨rfl, fun l hf => hnone ?_⟩, h₁⟩
    rw [Disk.seekAny, Disk.seek, hf] at hfound
    exact (Except.ok.inj hfound).symm

/-- **The output folder is there once it is made ready.** -/
theorem find_of_prepare {s : Settings} (hp : s.output.Proper) {d d' : Disk} (h : s.prepare d = (.ok (), d')) :
    ∃ l, d'.find s.output = .ok ⟨l, some .directory⟩ := by
  unfold Settings.prepare at h
  split at h
  · obtain ⟨e, _, hmade⟩ := resetOutput_eq_ok h
    obtain ⟨e', hg, hlast⟩ := makeDirectories_fresh (R := Disk.Grows .none) (.refl _)
      (fun n => makeParentsWithin_grows n true hp.parent) hmade
    obtain ⟨l, hl, _⟩ := find_of_makeDirectory hp hlast
    exact ⟨l, hl⟩
  · exact find_of_makeDirectories hp h

/-- **What emptying the output folder takes away**: what lies at or below the place where it is found. -/
def Settings.clears (s : Settings) (d : Disk) : Area := fun m =>
  s.clean = true ∧ ∃ l, d.find s.output = .ok ⟨l, some .directory⟩ ∧ l <+: m

/-- **Making the output folder ready** takes away what is cleared, and then makes directories only. -/
theorem prepare_eq_ok {s : Settings} (hp : s.output.Proper) {d d' : Disk} (h : s.prepare d = (.ok (), d')) :
    ∃ e, (d.Sound → e.Sound) ∧ (d.Sound → d.LinkFree (d.settle s.output) → d.SameLinks e) ∧
      (∀ m, ¬ s.clears d m → e.locate? m = d.locate? m) ∧ (∀ m, m ≠ [] → s.clears d m → e.locate? m = none) ∧
      e.Grows .none d' := by
  have hgrows : ∀ (reuse : Bool) (e : Disk), makeDirectories reuse s.output e = (.ok (), d') → e.Grows .none d' := by
    intro reuse e hm
    have hk := makeDirectories_grows reuse hp e
    rwa [hm] at hk
  unfold Settings.prepare at h
  split at h
  · rename_i hclean
    obtain ⟨e, ⟨rfl, hnone⟩ | ⟨l, hf, rfl⟩, hmade⟩ := resetOutput_eq_ok h
    · exact ⟨e, id, fun _ _ => .refl _, fun _ _ => rfl, fun m _ ⟨_, l, hf, _⟩ => absurd hf (hnone l),
        hgrows _ _ hmade⟩
    · refine ⟨d.removeBelow l, fun hs => hs.removeBelow l, fun hs hfree => ?_, fun m hm => ?_, fun m hm hc => ?_,
        hgrows _ _ hmade⟩
      · rw [Disk.settle_of_find (.refl d) hs.up_not_mem_here hf] at hfree
        exact hfree.removeBelow
      · exact Disk.locate?_removeBelow_outside fun hl => hm ⟨hclean, l, hf, hl⟩
      · obtain ⟨_, l', hf', hl⟩ := hc
        cases hf.symm.trans hf'
        exact Disk.locate?_removeBelow_inside hm hl
  · rename_i hclean
    exact ⟨d, id, fun _ _ => .refl _, fun _ _ => rfl, fun m _ hc => absurd hc.1 hclean, hgrows _ _ h⟩

/-- **An output folder that is emptied is new**: no link is in it, and nothing that is left from before. -/
theorem prepare_fresh {s : Settings} (hclean : s.clean = true) (hp : s.output.Proper) {d d' : Disk} (htree : d.IsTree)
    (h : s.prepare d = (.ok (), d')) :
    ∃ l, d'.find s.output = .ok ⟨l, some .directory⟩ ∧ d'.LinkFree l ∧
      ∀ m e, d.locate? m = some e → ¬ s.clears d m → ¬ l <+: m := by
  have hreset : resetOutput s.output d = (.ok (), d') := by
    rwa [Settings.prepare, if_pos hclean] at h
  obtain ⟨e, he, hmade⟩ := resetOutput_eq_ok hreset
  obtain ⟨e', hg, hlast⟩ := makeDirectories_fresh (R := Disk.Grows .none) (.refl _)
    (fun n => makeParentsWithin_grows n true hp.parent) hmade
  obtain ⟨l, hl, hnone, _⟩ := find_of_makeDirectory hp hlast
  have hkept : ∀ m, ¬ s.clears d m → e.locate? m = d.locate? m := by
    intro m hm
    rcases he with ⟨rfl, _⟩ | ⟨k, hf, rfl⟩
    · rfl
    · exact Disk.locate?_removeBelow_outside fun hk => hm ⟨hclean, k, hf, hk⟩
  -- Whatever is left stands in a directory that is left too, but where the new folder is there was nothing.
  have hleft : ∀ m x, d.locate? m = some x → ¬ s.clears d m → ¬ l <+: m := by
    rintro m x hm hc ⟨rest, rfl⟩
    have hat : ∃ y, d.locate? l = some y := by
      by_cases hr : rest = []
      · exact ⟨x, by simpa [hr] using hm⟩
      · exact ⟨_, htree.directory_above l rest hr hm⟩
    obtain ⟨y, hy⟩ := hat
    rw [← hkept l fun ⟨hs, k, hf, hk⟩ => hc ⟨hs, k, hf, hk.trans (List.prefix_append _ _)⟩] at hy
    obtain ⟨z, hz, _⟩ := hg.kept l y hy
    rw [hnone] at hz
    cases hz
  refine ⟨l, hl, fun m target hm hlink => ?_, hleft⟩
  have hgrows := makeDirectory_grows hp e'
  rw [hlast] at hgrows
  have he' := (hg.links.link m target).2 ((hgrows.links.link m target).2 hlink)
  rcases he with ⟨rfl, hno⟩ | ⟨k, hf, rfl⟩
  · exact hleft m _ he' (fun ⟨_, k, hk, _⟩ => hno k hk) hm
  · refine hleft m _ (Disk.locate?_of_removeBelow he') (fun ⟨_, k', hf', hk⟩ => ?_) hm
    cases hf.symm.trans hf'
    have hroot : m ≠ [] := by
      rintro rfl
      rw [Disk.locate?_root] at he'
      cases he'
    rw [Disk.locate?_removeBelow_inside hroot hk] at he'
    cases he'

/-! ## Assets -/

/-- **Where the assets are copied to.** -/
def IsAssetCopy (assets : Option Path) (output : Path) (d : Disk) (q : Path) : Prop :=
  ∃ a ∈ assets, (∃ name ∈ assetSubfolders, CopiedBelow (a.child name) (output.child imagesFolder) d q) ∨
    ∃ name ∈ assetFiles, CopiedTo (a.child name) ((output.child imagesFolder).child name) d q

theorem stable_isAssetCopy (assets : Option Path) (output : Path) : Disk.Stable (IsAssetCopy assets output) := by
  rintro area d e q hg ⟨a, ha, ⟨name, hn, h⟩ | ⟨name, hn, h⟩⟩
  · exact ⟨a, ha, .inl ⟨name, hn, stable_copiedBelow _ _ _ _ _ _ hg h⟩⟩
  · exact ⟨a, ha, .inr ⟨name, hn, stable_copiedTo _ _ _ _ _ _ hg h⟩⟩

theorem isEntryName_imagesFolder : IsEntryName imagesFolder := ⟨⟨by decide, by decide⟩, by decide⟩

theorem isEntryName_manifestFile : IsEntryName manifestFile := ⟨⟨by decide, by decide⟩, by decide⟩

theorem isEntryName_assetFile {name : Text} (h : name ∈ assetFiles) : IsEntryName name := by
  have hall : ∀ name ∈ assetFiles, Path.isName name = true ∧ '/' ∉ name ∧ name ≠ Path.up := by decide
  exact ⟨⟨(hall name h).1, (hall name h).2.1⟩, (hall name h).2.2⟩

/-- **Assets are copied into the folder of images.** -/
theorem IsAssetCopy.inImages {assets : Option Path} {output : Path} {d : Disk} {q : Path}
    (h : IsAssetCopy assets output d q) : IsBelow (output.child imagesFolder) q := by
  obtain ⟨a, _, ⟨name, _, h⟩ | ⟨name, hn, h⟩⟩ := h
  · exact h.below
  · have hname := isEntryName_assetFile hn
    exact .of_child hname (h.below (by rwa [Path.name_child]))

theorem IsAssetCopy.below {assets : Option Path} {output : Path} {d : Disk} {q : Path}
    (h : IsAssetCopy assets output d q) : IsBelow output q := .of_child isEntryName_imagesFolder h.inImages

section Copies

variable {R : Disk → Disk → Prop} (refl : ∀ d, R d d) (trans : ∀ d e f, R d e → R e f → R d f)

include refl trans

theorem copyAssetFolder_keeps {a images : Path} {name : Text} (h : Action.Keeps R (copyTree (a.child name) images)) :
    Job.KeepsDisk R (copyAssetFolder a images name) := by
  refine Job.bind_keeps trans (Job.onDisk_keeps (check_keeps refl _)) fun found => ?_
  split
  · exact Job.bind_keeps trans (Job.onDisk_keeps h) fun _ => Job.tell_keeps refl _ _ _
  · exact Action.Keeps.pure (fun w => refl w.disk) _

theorem copyAssetFile_keeps {a images : Path} {name : Text}
    (h : Action.Keeps R (copyFile (a.child name) (images.child name))) :
    Job.KeepsDisk R (copyAssetFile a images name) := by
  refine Job.bind_keeps trans (Job.onDisk_keeps (check_keeps refl _)) fun found => ?_
  split
  · exact Job.onDisk_keeps h
  · exact Action.Keeps.pure (fun w => refl w.disk) _

/-- **What the copy of the assets keeps**: what is kept by making the folder of images and by each copy. -/
theorem copyAssets_keeps {output : Path} {assets : Option Path}
    (hmake : Action.Keeps R (makeDirectories true (output.child imagesFolder)))
    (hfolder : ∀ a ∈ assets, ∀ name ∈ assetSubfolders,
      Job.KeepsDisk R (copyAssetFolder a (output.child imagesFolder) name))
    (hfile : ∀ a ∈ assets, ∀ name ∈ assetFiles, Job.KeepsDisk R (copyAssetFile a (output.child imagesFolder) name)) :
    Job.KeepsDisk R (copyAssets assets output) := by
  have hrefl : ∀ w : World, R w.disk w.disk := fun w => refl _
  unfold copyAssets
  refine Job.bind_keeps trans (Job.onDisk_keeps hmake) fun _ => ?_
  cases assets with
  | none => exact Action.Keeps.pure hrefl _
  | some a =>
    refine Job.bind_keeps trans (Job.forM_keeps refl trans _ (hfolder a rfl)) fun _ => ?_
    refine Job.bind_keeps trans (Job.forM_keeps refl trans _ (hfile a rfl)) fun _ => ?_
    exact Action.Keeps.pure hrefl _

end Copies

section Wrote

variable {a images : Path} {name : Text}

theorem copyAssetFolder_wrote (hp : images.Proper) :
    Job.KeepsDisk (Disk.Wrote (CopiedBelow (a.child name) images)) (copyAssetFolder a images name) :=
  copyAssetFolder_keeps (.refl _) (Disk.Wrote.trans (stable_copiedBelow _ _)) (copyTree_wrote hp)

theorem copyAssetFile_wrote (hp : images.Proper) (hn : name ∈ assetFiles) :
    Job.KeepsDisk (Disk.Wrote (CopiedTo (a.child name) (images.child name))) (copyAssetFile a images name) := by
  have hname := isEntryName_assetFile hn
  exact copyAssetFile_keeps (.refl _) (Disk.Wrote.trans (stable_copiedTo _ _))
    (copyFile_wrote (by rwa [Path.name_child]) (proper_child hp hname))

end Wrote

/-- **Copying the assets** writes where they are copied to. -/
theorem copyAssets_wrote {output : Path} (hp : output.Proper) (assets : Option Path) :
    Job.KeepsDisk (Disk.Wrote (IsAssetCopy assets output)) (copyAssets assets output) := by
  have hproper := proper_child hp isEntryName_imagesFolder
  refine copyAssets_keeps (.refl _) (Disk.Wrote.trans (stable_isAssetCopy assets output))
    (fun d => (makeDirectories_grows true hproper d).wrote) (fun a ha name hn w => ?_) fun a ha name hn w => ?_
  · exact (copyAssetFolder_wrote hproper w).mono fun q hq => ⟨a, ha, .inl ⟨name, hn, hq⟩⟩
  · exact (copyAssetFile_wrote hproper hn w).mono fun q hq => ⟨a, ha, .inr ⟨name, hn, hq⟩⟩

end DocFerry.Site
