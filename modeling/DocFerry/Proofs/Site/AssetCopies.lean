import DocFerry.Proofs.Files.Directories
import DocFerry.Proofs.Site.Outside
import DocFerry.Proofs.Site.Pictures
/-!
# Assets that are copied

Assets are copied once the output folder is ready and has its folder of images (`Settings.prepareImages`,
`copyAssets_of_made`).  Outside of the output folder the only directories that are new then are those on the way to it
(`directory_of_prepareImages`).  Assets that are not there any more are not copied (`copyAssets_of_absent`).  The others
stay as they are while they are copied (`copyAssets_makesOnly`), so the copy can be told from the disk before it: every
directory in an asset folder becomes one among the images (`copyAssets_directory`), and no other directory appears there.
-/
namespace DocFerry.Site

open Files

/-! ## Where assets are copied to -/

/-- **The change that makes the output folder ready for pictures.** -/
def Settings.prepareImages (s : Settings) : Change Unit := do
  s.prepare
  makeDirectories true (s.output.child imagesFolder)

section Ready

variable {s : Settings} {d e : Disk} {a p : Path} {l m : Location} {names : List Text}

/-- **A path that leads up nowhere** passes only what is above its place. -/
theorem prefix_of_onTheWay (hs : d.Sound) (hlink : d.NoLinks) (hup : Path.up ∉ p.names)
    (h : OnTheWay p (d.start p) m) : m <+: d.settle p := by
  obtain ⟨front, ⟨rest, hfront⟩, rfl⟩ := h
  rw [← hfront] at hup
  rw [Disk.settle_of_no_links hlink p (Disk.start_of_here hs.up_not_mem_here p), ← hfront,
    Disk.locationAlong_of_names _ hup, Disk.locationAlong_of_names _ fun hin => hup (List.mem_append_left _ hin),
    ← List.append_assoc]
  exact List.prefix_append _ _

/-- **A way that leads up nowhere** passes no place below a folder that the output folder is not in. -/
theorem not_onTheWay_below (hs : d.Sound) (hlink : d.NoLinks) (hup : Path.up ∉ p.names) (hl : ¬ l <+: d.settle p)
    (hm : l <+: m) : ¬ OnTheWay p (d.start p) m := fun h => hl (hm.trans (prefix_of_onTheWay hs hlink hup h))

/-- **The output folder that is ready for pictures** stands with its folder of images. -/
theorem prepareImages_stands (hp : s.output.Proper) (hs : d.Sound) (hlink : d.NoLinks)
    (h : s.prepareImages d = (.ok (), e)) : d.SameLinks e ∧ Stands s.output (d.settle s.output) e ∧
      e.find (s.output.child imagesFolder) = .ok ⟨d.settle s.output ++ [imagesFolder], some .directory⟩ := by
  obtain ⟨_, f, hready, hmade⟩ := Action.bind_eq_ok_iff.1 h
  obtain ⟨g, _, hlinks, _, _, hg⟩ := prepare_eq_ok hp hready
  obtain ⟨hstands, _⟩ := prepare_stands hp hs hlink hready
  have hproper := proper_child hp isEntryName_imagesFolder
  have hgrown := makeDirectories_grows true hproper f
  rw [hmade] at hgrown
  have hstands' := hstands.grown hgrown
  obtain ⟨l, hl⟩ := find_of_makeDirectories hproper hmade
  obtain rfl : l = d.settle s.output ++ [imagesFolder] :=
    @Stands.location _ _ _ [imagesFolder] hstands' (by simpa using isEntryName_imagesFolder) _ hl
  exact ⟨((hlinks hs fun m target _ => hlink m target).trans hg.links).trans hgrown.links, hstands', hl⟩

/-- **A directory outside of the output folder** that is there once this is ready was there before, or lies on the way
to the folder. -/
theorem directory_of_prepareImages (hp : s.output.Proper) (hs : d.Sound) (hlink : d.NoLinks)
    (h : s.prepareImages d = (.ok (), e)) (hm : ¬ d.settle s.output <+: m) (hdir : e.locate? m = some .directory) :
    d.locate? m = some .directory ∨ OnTheWay s.output (d.start s.output) m := by
  obtain ⟨_, f, hready, hmade⟩ := Action.bind_eq_ok_iff.1 h
  obtain ⟨hstands, _⟩ := prepare_stands hp hs hlink hready
  have hc : Confined s.output (d.settle s.output) f (makeDirectories true (s.output.descend [imagesFolder]) f).2 :=
    makeDirectories_confined hp true (by simpa using isEntryName_imagesFolder) f
  rw [show s.output.descend [imagesFolder] = s.output.child imagesFolder from rfl, hmade] at hc
  have hsame : e.locate? m = f.locate? m := by
    rw [← Disk.locate?_removeBelow_outside hm, (hc hstands).2, Disk.locate?_removeBelow_outside hm]
  have hbefore := prepare_outside hp hs hlink hm
  rw [hready] at hbefore
  rcases hbefore with hbefore | ⟨_, _, honway⟩
  · exact .inl (hbefore ▸ hsame ▸ hdir)
  · exact .inr honway

theorem isDirectory_of_prepareImages (hp : s.output.Proper) (htree : d.IsTree) (hlink : d.NoLinks)
    (h : s.prepareImages d = (.ok (), e)) (hf : d.find a = .ok ⟨l, some .directory⟩)
    (hout : ∀ m, l <+: m → ¬ d.settle s.output <+: m) (hnames : ∀ n ∈ names, IsEntryName n) (hne : names ≠ [])
    (hdir : e.isDirectory (a.descend names) = true) :
    d.isDirectory (a.descend names) = true ∨ OnTheWay s.output (d.start s.output) (d.settle (a.descend names)) := by
  have hs := htree.sound
  have hup := not_mem_up hnames
  obtain ⟨hsame, hstands, _⟩ := prepareImages_stands hp hs hlink h
  obtain ⟨m, hm⟩ := isDirectory_iff.1 hdir
  have hl : d.settle a = l := Disk.settle_of_find (.refl d) hs.up_not_mem_here hf
  have hplace : l ++ names = m := by
    rw [← hl, ← Disk.settle_descend hs hlink a hup]
    exact Disk.settle_of_find hsame.symm hstands.sound.up_not_mem_here hm
  obtain ⟨_, _, _, hwalk⟩ := Disk.find_descend hne hm
  have hat := Disk.entry_of_walks (hlink.of_sameLinks hsame) hwalk hup hne
  rw [Disk.settle_descend hs hlink a hup, hl, hplace]
  rcases directory_of_prepareImages hp hs hlink h (hout m ⟨names, hplace⟩) hat with hbefore | honway
  · have hfound := Disk.find_below htree.closed hf (Disk.walks_of_find hm).1 hup (hplace ▸ hbefore)
    exact .inl (by rw [Disk.isDirectory_of_find hfound, beq_self_eq_true])
  · exact .inr honway

/-- **The assets of a run** are found as a directory. -/
theorem find_of_static {s : Settings} {docs a : Path} (h : s.folders d = .ok (docs, some a)) :
    ∃ l, d.find a = .ok ⟨l, some .directory⟩ := by
  obtain ⟨_, _, h⟩ := bind_eq_ok h
  obtain ⟨assets, hassets, h⟩ := bind_eq_ok h
  obtain rfl : assets = some a := congrArg Prod.snd (Except.ok.inj h)
  have hfound := mapError_eq_ok.1 hassets
  refine find_of_seekDirectory ?_
  unfold staticFolder at hfound
  split at hfound
  · obtain ⟨there, hthere, h⟩ := bind_eq_ok hfound
    cases there with
    | true =>
      cases h
      exact hthere
    | false => cases h
  · exact findFolder_some hfound

end Ready

/-! ## Copies -/

theorem isEntryName_assetSubfolder {folder : Text} (h : folder ∈ assetSubfolders) : IsEntryName folder := by
  have hall : ∀ folder ∈ assetSubfolders, Path.isName folder = true ∧ '/' ∉ folder ∧ folder ≠ Path.up := by decide
  exact ⟨⟨(hall folder h).1, (hall folder h).2.1⟩, (hall folder h).2.2⟩

/-- **The assets are as they were at first.** -/
def AssetsStay (first : Disk) (assets : Option Path) (d : Disk) : Prop :=
  ∀ a ∈ assets, first.SameBelow a (first.settle a) d

theorem assetsStay_self {d : Disk} {assets : Option Path} (hs : d.Sound) (hlink : d.NoLinks)
    (hthere : ∀ a ∈ assets, ∃ l, d.find a = .ok ⟨l, some .directory⟩) : AssetsStay d assets d := by
  intro a ha
  obtain ⟨l, hl⟩ := hthere a ha
  obtain rfl : d.settle a = l := Disk.settle_of_find (.refl d) hs.up_not_mem_here hl
  exact ⟨hs, hs, hl, hl, fun m target _ => hlink m target, fun _ _ => rfl⟩

/-- **Where directories are made when assets are copied** below an output folder: for the images, and in there for the
directories of the asset folders. -/
def IsAssetDirectory (first : Disk) (assets : Option Path) (out m : Location) : Prop :=
  m = out ++ [imagesFolder] ∨ ∃ a ∈ assets, ∃ folder ∈ assetSubfolders, ∃ names, m = out ++ imagesFolder :: names ∧
    first.isDirectory ((a.child folder).descend names) = true

section Copies

variable {first : Disk} {assets : Option Path} {a output images : Path} {out : Location} {w w' : World}
  {folder name : Text} {names : List Text}

/-- **The copy of the assets begins with the folder of images**, so it does the same once this is made. -/
theorem copyAssets_of_made (hp : output.Proper) {d : Disk}
    (h : makeDirectories true (output.child imagesFolder) w.disk = (.ok (), d)) :
    copyAssets assets output { w with disk := d } = copyAssets assets output w := by
  obtain ⟨l, hl⟩ := find_of_makeDirectories (proper_child hp isEntryName_imagesFolder) h
  unfold copyAssets
  rw [Action.bind_apply, Action.bind_apply, Job.onDisk, Job.onDisk]
  dsimp only
  rw [h, makeDirectories_of_found hl]

/-- **Assets that are not there are not copied.** -/
theorem copyAssets_of_absent (hr : refusal? a = none) (hlacks : Lacks a w.disk) {l : Location}
    (himages : w.disk.find (output.child imagesFolder) = .ok ⟨l, some .directory⟩)
    (h : copyAssets (some a) output w = (.ok images, w')) :
    copyAssets none output w = (.ok images, w') ∧ w'.disk = w.disk := by
  unfold copyAssets at h
  obtain ⟨_, u, hmade, h⟩ := Action.bind_eq_ok_iff.1 h
  obtain ⟨_, v, hfolders, h⟩ := Action.bind_eq_ok_iff.1 h
  obtain ⟨_, x, hfiles, h⟩ := Action.bind_eq_ok_iff.1 h
  obtain ⟨rfl, rfl⟩ := Action.pure_eq_ok_iff.1 h
  have hu : u.disk = w.disk := by
    obtain ⟨d, hd, rfl⟩ := Job.onDisk_eq_ok.1 hmade
    cases hd.symm.trans (makeDirectories_of_found himages)
    rfl
  have hulacks : Lacks a u.disk := hu ▸ hlacks
  obtain rfl := Action.forM_fixed (fun _ _ _ => copyAssetFolder_of_lacks hr hulacks) hfolders
  obtain rfl := Action.forM_fixed (fun _ _ _ => copyAssetFile_of_lacks hr hulacks) hfiles
  exact ⟨Action.bind_eq_ok_iff.2 ⟨(), _, hmade, rfl⟩, hu⟩

/-- **The copy of the assets makes no other directories**, and leaves the assets as they were. -/
theorem copyAssets_makesOnly (hp : output.Proper) (hapart : ∀ a ∈ assets, ∀ m, first.settle a <+: m → ¬ out <+: m) :
    Job.KeepsDisk (MakesOnly output out (AssetsStay first assets) (IsAssetDirectory first assets out))
      (copyAssets assets output) := by
  have hI : Unaffected output out (AssetsStay first assets) := fun d d' hs hc hi a ha =>
    unaffected_sameBelow (hapart a ha) d d' hs hc (hi a ha)
  have himages : ∀ n ∈ [imagesFolder], IsEntryName n := by simpa using isEntryName_imagesFolder
  have hrefl := MakesOnly.refl output out (AssetsStay first assets) (IsAssetDirectory first assets out)
  have htrans := MakesOnly.trans output out (AssetsStay first assets) (IsAssetDirectory first assets out)
  refine copyAssets_keeps hrefl htrans ?_ (fun a ha folder hfolder => ?_) fun a ha name hname => ?_
  · refine makeDirectories_makesOnly hI hp true himages fun front hfront hne => .inl ?_
    obtain ⟨name, rest, rfl⟩ := List.exists_cons_of_ne_nil hne
    obtain ⟨rfl, hrest⟩ := List.cons_prefix_cons.1 hfront
    rw [List.prefix_nil.1 hrest]
  · refine copyAssetFolder_keeps hrefl htrans (copyTree_makesOnly hI hp himages fun more hm d hi hdir => ?_)
    have hup : Path.up ∉ folder :: more :=
      not_mem_up (List.forall_mem_cons.2 ⟨isEntryName_assetSubfolder hfolder, hm⟩)
    refine .inr ⟨a, ha, folder, hfolder, more, rfl, ?_⟩
    rw [descend_child] at hdir ⊢
    rwa [← (hi a ha).isDirectory hup]
  · have hentry := isEntryName_assetFile hname
    have hboth : ∀ n ∈ [imagesFolder, name], IsEntryName n := by simpa using ⟨isEntryName_imagesFolder, hentry⟩
    refine copyAssetFile_keeps hrefl htrans ?_
    rw [show (output.child imagesFolder).child name = output.descend [imagesFolder, name] by
      simp [Path.descend, Path.child]]
    exact copyFile_makesOnly hI hp hboth (by rwa [Path.name_child])

/-- **Every directory of an asset folder** becomes one among the images. -/
theorem copyAssets_directory (hp : output.Proper) (hs : w.disk.Sound) (hfolder : folder ∈ assetSubfolders)
    (hnames : ∀ n ∈ names, IsEntryName n) (hdir : w.disk.isDirectory ((a.child folder).descend names) = true)
    (h : copyAssets (some a) output w = (.ok images, w')) : w'.disk.isDirectory (images.descend names) = true := by
  obtain ⟨l, hf⟩ := isDirectory_iff.1 hdir
  obtain ⟨x, y, hx, hcopied, hy⟩ := copyAssets_folder names hp hfolder h
  obtain ⟨rfl, _⟩ := copyAssets_eq_ok h
  have hproper := proper_child hp isEntryName_imagesFolder
  have hsound := (hx hs).sound hs
  have hat := (hx hs).find_directory hf
  obtain ⟨k, hk⟩ := Disk.find_above_directory hat
  have hwrote := @copyAssetFolder_wrote a _ folder hproper x hsound
  rw [hcopied] at hwrote
  obtain ⟨m, hm⟩ := copyTreeWithin_directory hnames hproper hsound (copyAssetFolder_eq_ok hcopied hk) hat
  exact isDirectory_iff.2 ⟨m, (hy (hwrote.sound hsound)).find_directory hm⟩

theorem copyAssetFile_eq_ok (h : copyAssetFile a images name w = (.ok (), w')) (hfile : w.disk.HasFile (a.child name)) :
    copyFile (a.child name) (images.child name) w.disk = (.ok (), w'.disk) := by
  obtain ⟨l, bytes, hf⟩ := hfile
  obtain ⟨found, _, hfound, h⟩ := Action.bind_eq_ok_iff.1 h
  obtain ⟨d, hd, rfl⟩ := Job.onDisk_eq_ok.1 hfound
  obtain ⟨hseek, rfl⟩ := check_eq_ok.1 hd
  obtain rfl : found = some bytes := by
    rw [Disk.seekFile, Disk.seek, hf] at hseek
    exact (Except.ok.inj hseek).symm
  obtain ⟨d, hd, rfl⟩ := Job.onDisk_eq_ok.1 h
  exact hd

/-- **The copy of the assets comes to each file at their root** that is one of those to be copied. -/
theorem copyAssets_file (hp : output.Proper) (hs : w.disk.Sound) (hname : name ∈ assetFiles)
    (hfile : w.disk.HasFile (a.child name)) (h : copyAssets (some a) output w = (.ok images, w')) :
    ∃ e e', w.disk.Wrote (IsAssetCopy (some a) output) e ∧
      copyFile (a.child name) (images.child name) e = (.ok (), e') ∧
      e'.Wrote (IsAssetCopy (some a) output) w'.disk := by
  obtain ⟨rfl, u, v, hmade, hfolders, hfiles⟩ := copyAssets_eq_ok h
  have hproper := proper_child hp isEntryName_imagesFolder
  have hrefl := Disk.Wrote.refl (IsAssetCopy (some a) output)
  have htrans := Disk.Wrote.trans (stable_isAssetCopy (some a) output)
  have hall : ∀ l : List Text, (∀ file ∈ l, file ∈ assetFiles) → Job.KeepsDisk
      (Disk.Wrote (IsAssetCopy (some a) output)) (l.forM (copyAssetFile a (output.child imagesFolder))) :=
    fun l hl => Job.forM_keeps hrefl htrans l fun file hin w =>
      (copyAssetFile_wrote (a := a) hproper (hl file hin) w).mono fun q hq => ⟨a, rfl, .inr ⟨file, hl file hin, hq⟩⟩
  obtain ⟨before, after, hsplit⟩ := List.append_of_mem hname
  rw [hsplit] at hfiles
  obtain ⟨x, y, hbefore, hcopied, hafter⟩ := Action.forM_split hfiles
  have hx : w.disk.Wrote (IsAssetCopy (some a) output) x.disk := by
    have hgrown := makeDirectories_grows true hproper w.disk
    rw [hmade] at hgrown
    have hcopies := Job.forM_keeps hrefl htrans assetSubfolders (fun folder hin w =>
      (copyAssetFolder_wrote (a := a) hproper w).mono fun q hq => ⟨a, rfl, .inl ⟨folder, hin, hq⟩⟩) u
    rw [hfolders] at hcopies
    have hrest := hall before (fun file hin => hsplit ▸ List.mem_append_left _ hin) v
    rw [hbefore] at hrest
    exact htrans _ _ _ hgrown.wrote (htrans _ _ _ hcopies hrest)
  have hy := hall after (fun file hin => hsplit ▸ List.mem_append_right _ (List.mem_cons_of_mem _ hin)) y
  rw [hafter] at hy
  exact ⟨x.disk, y.disk, hx, copyAssetFile_eq_ok hcopied (Disk.stable_hasFile (hx hs) hfile), hy⟩

end Copies
end DocFerry.Site
