import DocFerry.Proofs.Files.Confined
import DocFerry.Proofs.Site.Keeping
import DocFerry.Proofs.Site.Run
/-!
# What a run builds

What a run builds stays in the output folder: the copies of assets, the pages and the manifest (`build_confined`).
Where the assets are gone in the end, they were never copied and gave no logo, so the same is built without assets
(`build_of_lacks`).
-/
namespace DocFerry.Site

open Files Nav

/-! ## The output folder -/

section Built

variable {convert : Converter} {output : Path} {out : Location}

theorem writePage_confined (hp : output.Proper) {source : Path} {dirs : List Text}
    (hd : ∀ name ∈ dirs, IsEntryName name) (hf : '/' ∉ source.name) (label : Option Text) :
    Job.KeepsDisk (Confined output out) (writePage convert output source (Text.join ['/'] dirs) label) := by
  have hentries : ∀ name ∈ Address.target (dirs ++ [source.name]), IsEntryName name := by
    refine Address.target_entryNames ?_ (by rwa [Address.file_append])
    rw [Address.folders_append]
    exact hd
  have hparent : (targetAt output (dirs ++ [source.name])).parent = output.descend dirs := by
    rw [targetAt, Address.target, Address.folders_append, ← Path.child_descend, Path.parent_child]
  have htrans := Confined.trans output out
  unfold writePage
  refine Job.bind_keeps htrans (fun w => .refl _ _ w.disk) fun raw => ?_
  simp only [targetPath_join output hd hf, hparent]
  refine Job.bind_keeps htrans (Job.onDisk_keeps (makeDirectories_confined hp true hd)) fun _ => ?_
  refine Job.bind_keeps htrans (Job.onDisk_keeps (write_confined hp hentries _)) fun _ => ?_
  exact fun w => .refl _ _ w.disk

theorem kept_confined (convert : Converter) (out : Location) (hp : output.Proper) :
    Kept convert output fun w w' => Confined output out w.disk w'.disk where
  same w w' hd _ := by
    rw [hd]
    exact .refl _ _ _
  trans _ _ _ := Confined.trans _ _ _ _ _
  sound _ _ h hs := h hs.sound hs
  page _ _ label hd hf := writePage_confined hp hd hf label

theorem copyAssetFolder_confined (hp : output.Proper) (a : Path) (name : Text) :
    Job.KeepsDisk (Confined output out) (copyAssetFolder a (output.child imagesFolder) name) :=
  copyAssetFolder_keeps (.refl output out) (Confined.trans output out)
    (@copyTree_confined _ out [imagesFolder] hp (by simpa using isEntryName_imagesFolder) _)

theorem copyAssetFile_confined (hp : output.Proper) (a : Path) {name : Text} (hn : name ∈ assetFiles) :
    Job.KeepsDisk (Confined output out) (copyAssetFile a (output.child imagesFolder) name) := by
  have hname := isEntryName_assetFile hn
  refine copyAssetFile_keeps (.refl output out) (Confined.trans output out) ?_
  have himage : output.descend [imagesFolder, name] = (output.child imagesFolder).child name := by
    simp [Path.descend, Path.child]
  rw [← himage]
  exact copyFile_confined hp (by simpa using ⟨isEntryName_imagesFolder, hname⟩) (by rwa [Path.name_child])

theorem copyAssets_confined (out : Location) (hp : output.Proper) (static : Option Path) :
    Job.KeepsDisk (Confined output out) (copyAssets static output) := by
  have hmake : Action.Keeps (Confined output out) (makeDirectories true (output.descend [imagesFolder])) :=
    makeDirectories_confined hp true (by simpa using isEntryName_imagesFolder)
  exact copyAssets_keeps (.refl output out) (Confined.trans output out) hmake
    (fun a _ name _ => copyAssetFolder_confined hp a name) fun a _ name hn => copyAssetFile_confined hp a hn

theorem rest_confined {s : Settings} (hp : s.output.Proper) {docs : Path} {b : Buckets} {w₂ w₃ : World}
    {m : Text.Utf8.Octets} {d' : Disk}
    (hassemble : assemble .standard s.output s.classifier docs { w₂ with written := [] } = (.ok b, w₃))
    (hmanifest : write (s.output.child manifestFile) m w₃.disk = (.ok (), d')) : Confined s.output out w₂.disk d' := by
  have hpages := (kept_confined .standard out hp).assemble s.classifier docs { w₂ with written := [] }
  rw [hassemble] at hpages
  have hlast := @write_confined _ out [manifestFile] hp (by simpa using isEntryName_manifestFile) m w₃.disk
  rw [show s.output.descend [manifestFile] = s.output.child manifestFile from rfl, hmanifest] at hlast
  exact Confined.trans _ _ _ _ _ hpages hlast

end Built

/-! ## Assets that are gone -/

section Gone

variable {a : Path} {d d' : Disk}

/-- **No directory is where a path leads.** -/
def Lacks (p : Path) (d : Disk) : Prop := ∀ l, d.find p ≠ .ok ⟨l, some .directory⟩

theorem Lacks.of_grows {area : Area} (hg : d.Grows area d') (h : Lacks a d') : Lacks a d := by
  intro l hf
  obtain ⟨e, hf', he⟩ := hg.find hf
  cases e with
  | directory => exact h l hf'
  | file => exact he.elim
  | link => exact he.elim

/-- **Nothing is found below where no directory is.** -/
theorem Lacks.seek (hr : refusal? a = none) (h : Lacks a d) {names : List Text} (hne : names ≠ [])
    {found : Option Entry} (hs : d.seek (a.descend names) = .ok found) : found = none := by
  unfold Disk.seek at hs
  split at hs
  · rename_i place hf
    obtain ⟨j, l, ha, _⟩ := Disk.find_descend hne hf
    exact absurd (Disk.find_of_walks hr (Nat.le_refl _) ha) (h l)
  · cases hs
  · cases hs
    rfl

variable {images : Path} {name : Text} {w w' : World}

/-- **What is copied only if it is there** is not copied from where no directory is. -/
theorem copy_of_lacks (hr : refusal? a = none) (h : Lacks a w.disk) {β : Type} {f : Option Entry → β}
    {copied : β → Bool} (hf : copied (f none) = false) {copy : Job Unit}
    (hcopy : (do if copied (← Job.onDisk (check fun d => (d.seek (a.child name)).map f)) then copy) w = (.ok (), w')) :
    w' = w := by
  obtain ⟨found, u, hfound, hrest⟩ := Action.bind_eq_ok_iff.1 hcopy
  obtain ⟨d, hd, rfl⟩ := Job.onDisk_eq_ok.1 hfound
  obtain ⟨hseek, rfl⟩ := check_eq_ok.1 hd
  obtain ⟨entry, hentry, rfl⟩ := map_eq_ok hseek
  obtain rfl := h.seek hr (List.cons_ne_nil name []) hentry
  simp only [hf, Bool.false_eq_true, if_false] at hrest
  exact (Action.pure_eq_ok_iff.1 hrest).2.symm

theorem copyAssetFolder_of_lacks (hr : refusal? a = none) (h : Lacks a w.disk)
    (hcopy : copyAssetFolder a images name w = (.ok (), w')) : w' = w :=
  @copy_of_lacks _ name w w' hr h Bool (· == some .directory) id rfl _ hcopy

theorem copyAssetFile_of_lacks (hr : refusal? a = none) (h : Lacks a w.disk)
    (hcopy : copyAssetFile a images name w = (.ok (), w')) : w' = w :=
  @copy_of_lacks _ name w w' hr h _ _ Option.isSome rfl _ hcopy

theorem firstThat_eq_none {test : Path → Except Problem Bool} : ∀ {places : List Path} {found : Option Path},
    (∀ p ∈ places, test p ≠ .ok true) → Disk.firstThat test places = .ok found → found = none
  | [], _, _, h => (Except.ok.inj h).symm
  | p :: rest, found, hno, h => by
    rw [Disk.firstThat] at h
    obtain ⟨b, hb, h⟩ := bind_eq_ok h
    cases b with
    | true => exact absurd hb (hno p List.mem_cons_self)
    | false => exact firstThat_eq_none (fun q hq => hno q (List.mem_cons_of_mem _ hq)) h

/-- **Assets that are not there give no logo.** -/
theorem logo_of_lacks (hr : refusal? a = none) (h : Lacks a d) {images : Option Path} {place : Option Text}
    (hlogo : logo d (some a) images = .ok place) : logo d none images = .ok place := by
  have hlogos : ∀ p ∈ assetLogos, p.absolute = false ∧ p.names ≠ [] := by decide
  have hno : ∀ p ∈ assetLogos, d.seekAny (a.join p) ≠ .ok true := by
    intro p hp hseek
    obtain ⟨hrelative, hne⟩ := hlogos p hp
    obtain ⟨found, hfound, hsome⟩ := map_eq_ok hseek
    have hjoin : a.join p = a.descend p.names := by rw [Path.join, if_neg (by simp [hrelative]), Path.descend]
    rw [hjoin] at hfound
    rw [h.seek hr hne hfound] at hsome
    cases hsome
  have hnone : ∀ found, firstLogo d assetLogos (some a) = .ok found → found = none := by
    intro found hf
    obtain ⟨place, hplace, rfl⟩ := map_eq_ok hf
    rw [firstThat_eq_none hno hplace]
    rfl
  unfold logo at hlogo
  obtain ⟨first, hfirst, hlogo⟩ := bind_eq_ok hlogo
  rw [hnone first hfirst] at hlogo
  exact hlogo

end Gone
end DocFerry.Site
