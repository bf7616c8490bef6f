import DocFerry.Proofs.Files.Overlay
import DocFerry.Proofs.Site.AssetCopies
/-!
# Assets laid over the images

Each asset folder is a layer over the folder of images, and each of the files at the root of the assets is one.  They
are laid one after the other, so at every path the topmost entry is there in the end, and what was there before where
no layer has one (`copyAssets_lays`).  That supposes that no path of a copy is too long: a path of an asset that is not
can become one below the folder of images, and then the copy fails (`deep_asset_not_copied`).
-/
namespace DocFerry.Site

open Files

/-! ## Layers -/

/-- **What an asset folder lays over the images**: what lies in it. -/
def folderLayer (d : Disk) (l : Location) (folder : Text) : Disk.Layer
  | [] => none
  | name :: rest => d.locate? (l ++ folder :: name :: rest)

/-- **What a file at the root of the assets lays over the images**: itself, if it is one. -/
def fileLayer (d : Disk) (l : Location) (name : Text) : Disk.Layer := fun names =>
  if names = [name] then
    match d.locate? (l ++ [name]) with
    | some (.file bytes) => some (.file bytes)
    | _ => none
  else none

theorem fileLayer_eq_among (d : Disk) (l : Location) (name : Text) :
    fileLayer d l name = .among [name] (fileLayer d l name) := by
  funext names
  cases names with
  | nil => rfl
  | cons first rest =>
    by_cases hfirst : first = name
    · simp [Disk.Layer.among, hfirst]
    · simp [Disk.Layer.among, fileLayer, hfirst]

/-- **The layers of the assets**, the lowest first. -/
def assetLayers (d : Disk) (l : Location) : List Disk.Layer :=
  assetSubfolders.map (folderLayer d l) ++ assetFiles.map (fileLayer d l)

theorem folderLayer_mem {folder : Text} (h : folder ∈ assetSubfolders) (d : Disk) (l : Location) :
    folderLayer d l folder ∈ assetLayers d l := List.mem_append_left _ (List.mem_map_of_mem h)

theorem fileLayer_mem {name : Text} (h : name ∈ assetFiles) (d : Disk) (l : Location) :
    fileLayer d l name ∈ assetLayers d l := List.mem_append_right _ (List.mem_map_of_mem h)

/-- **Assets that can be laid over the images**: two places apart without links, the second of which may have yet to be
made, where no path is that of a file in one layer, or among the images, and of a directory in another. -/
structure CanOverlay (a output : Path) (l m : Location) (d : Disk) : Prop where
  tree : d.IsTree
  short : ∀ k e, d.locate? k = some e → ∀ name ∈ k, exceeds longestName name = false
  assets : d.DirectoryAt a l
  images : CanStand d (output.child imagesFolder) m
  assetsFree : d.LinkFree l
  imagesFree : d.LinkFree m
  apart : ¬ l <+: m ∧ ¬ m <+: l
  alike : ∀ lower ∈ d.treeAt m :: assetLayers d l, ∀ upper ∈ assetLayers d l,
    ∀ names old new, lower names = some old → upper names = some new → old.SameKind new

/-- **Assets of which no path is too long to be looked up**, nor that of a copy. -/
structure LookedUp (a images : Path) (l : Location) (d : Disk) : Prop where
  folders : ∀ folder ∈ assetSubfolders, refusal? (a.child folder) = none
  files : ∀ name ∈ assetFiles, refusal? (a.child name) = none
  below : ∀ folder ∈ assetSubfolders, ∀ names e, folderLayer d l folder names = some e →
    refusal? ((a.child folder).descend names) = none
  copies : ∀ layer ∈ assetLayers d l, ∀ names e, layer names = some e → refusal? (images.descend names) = none

/-- **Images over which some of the layers have been laid**, and assets that are as they were at first. -/
structure Overlaying (a images : Path) (l m : Location) (first d : Disk) : Prop where
  sound : d.Sound
  closed : d.Closed
  assets : d.DirectoryAt a l
  images : d.DirectoryAt images m
  assetsFree : d.LinkFree l
  imagesFree : d.LinkFree m
  same : ∀ names, d.locate? (l ++ names) = first.locate? (l ++ names)
  alike : ∀ layer ∈ assetLayers first l, ∀ names old new, d.locate? (m ++ names) = some old →
    layer names = some new → old.SameKind new

section Steps

variable {a output images : Path} {l m : Location} {first : Disk} {w : World} {folder name : Text} {names : List Text}

theorem Overlaying.step {layer : Disk.Layer} {d d' : Disk} (h : Overlaying a images l m first d)
    (hfirst : CanOverlay a output l m first) (hin : layer ∈ assetLayers first l) (hlaid : d.Laid layer m d') :
    Overlaying a images l m first d' where
  sound := hlaid.grows.sound h.sound
  closed := hlaid.closed h.closed
  assets := h.assets.grown hlaid.grows
  images := h.images.grown hlaid.grows
  assetsFree := hlaid.grows.links.linkFree h.assetsFree
  imagesFree := hlaid.grows.links.linkFree h.imagesFree
  same names := by rw [hlaid.outside _ (not_below hfirst.apart names), h.same]
  alike upper hupper names old new hold hnew := by
    rw [hlaid.inside] at hold
    rcases Option.or_eq_some_iff.1 hold with hlaid | ⟨_, hold⟩
    · exact hfirst.alike layer (List.mem_cons_of_mem _ hin) upper hupper names old new hlaid hnew
    · exact h.alike upper hupper names old new hold hnew

theorem Overlaying.find_child {d : Disk} (h : Overlaying a images l m first d) (hr : refusal? (a.child name) = none)
    (hname : IsEntryName name) (hshort : exceeds longestName name = false) :
    d.find (a.child name) = .ok ⟨l ++ [name], first.locate? (l ++ [name])⟩ := by
  rw [← h.same]
  exact Disk.find_entry h.assets.found hr hname.2 hshort fun target => h.assetsFree _ target (List.prefix_append _ _)

theorem Overlaying.fitsOver {d : Disk} (h : Overlaying a (output.child imagesFolder) l m first d)
    (hfirst : CanOverlay a output l m first) (hlooked : LookedUp a (output.child imagesFolder) l first)
    (hfolder : folder ∈ assetSubfolders) (hdir : first.locate? (l ++ [folder]) = some .directory) :
    FitsOver (a.child folder) (output.child imagesFolder) (l ++ [folder]) m d := by
  have hlayer := folderLayer_mem hfolder first l
  have hshort : exceeds longestName folder = false := hfirst.short _ _ hdir folder (by simp)
  have hat : d.locate? (l ++ [folder]) = some .directory := (h.same _).trans hdir
  have hfound := h.find_child (hlooked.folders folder hfolder) (isEntryName_assetSubfolder hfolder) hshort
  have hbelow : ∀ {names e}, names ≠ [] → d.locate? (l ++ [folder] ++ names) = some e →
      folderLayer first l folder names = some e := by
    intro names e hne he
    obtain ⟨name, rest, rfl⟩ := List.exists_cons_of_ne_nil hne
    rw [List.append_assoc, h.same] at he
    exact he
  exact
    { sound := h.sound
      closed := h.closed
      tree := ⟨hdir ▸ hfound, hat⟩
      folder := .there h.images
      treeFree := h.assetsFree.below (List.prefix_append _ _)
      folderFree := h.imagesFree
      apart := ⟨fun hp => hfirst.apart.1 ((List.prefix_append _ _).trans hp), not_below hfirst.apart [folder]⟩
      short := fun names e he n hn => by
        rw [List.append_assoc, h.same] at he
        exact hfirst.short _ e he n (by simp [hn])
      looked := fun names e he => by
        by_cases hne : names = []
        · rw [hne, Path.descend_nil, Path.descend_nil]
          exact ⟨hlooked.folders folder hfolder, (Disk.walks_of_find h.images.found).1⟩
        · have hin := hbelow hne he
          exact ⟨hlooked.below folder hfolder names e hin, hlooked.copies _ hlayer names e hin⟩
      alike := fun names e old he hold => by
        by_cases hne : names = []
        · rw [hne, List.append_nil] at he hold
          cases hat.symm.trans he
          cases h.images.directory.symm.trans hold
          exact .refl _
        · exact h.alike _ hlayer names old e hold (hbelow hne he) }

/-- **An asset folder that is copied** lays its layer over the images; one that is not there has none. -/
theorem Overlaying.copyAssetFolder (h : Overlaying a (output.child imagesFolder) l m first w.disk)
    (hfirst : CanOverlay a output l m first) (hlooked : LookedUp a (output.child imagesFolder) l first)
    (hfolder : folder ∈ assetSubfolders) :
    ∃ w', copyAssetFolder a (output.child imagesFolder) folder w = (.ok (), w') ∧
      w.disk.Laid (folderLayer first l folder) m w'.disk ∧
      Overlaying a (output.child imagesFolder) l m first w'.disk := by
  have hshort : exceeds longestName folder = false := by
    revert folder
    decide
  have hin := folderLayer_mem hfolder first l
  have hfound := h.find_child (hlooked.folders folder hfolder) (isEntryName_assetSubfolder hfolder) hshort
  have hseek : w.disk.seekDirectory (a.child folder) = .ok (first.locate? (l ++ [folder]) == some .directory) := by
    rw [Disk.seekDirectory, Disk.seek, hfound]
    rfl
  have hcheck : Job.onDisk (check (·.seekDirectory (a.child folder))) w =
      (.ok (first.locate? (l ++ [folder]) == some .directory), w) :=
    Job.onDisk_eq_ok.2 ⟨_, check_eq_ok.2 ⟨hseek, rfl⟩, rfl⟩
  by_cases hdir : first.locate? (l ++ [folder]) = some .directory
  · obtain ⟨d, hcopied, hlaid⟩ := copyTree_lays (h.fitsOver hfirst hlooked hfolder hdir)
    -- The folder itself is laid over that of the images, which is a directory as well.
    have hlayer : w.disk.Laid (folderLayer first l folder) m d :=
      { hlaid with
        inside := fun names => by
          rw [hlaid.inside, Disk.treeAt]
          cases names with
          | nil => simp [folderLayer, h.same, hdir, h.images.directory]
          | cons name rest => rw [folderLayer, List.append_assoc, h.same, List.singleton_append] }
    have hcopy : Job.onDisk (copyTree (a.child folder) (output.child imagesFolder)) w =
        (.ok (), { w with disk := d }) := Job.onDisk_eq_ok.2 ⟨d, hcopied, rfl⟩
    have hdone : ∃ w', Site.copyAssetFolder a (output.child imagesFolder) folder w = (.ok (), w') ∧ w'.disk = d := by
      unfold Site.copyAssetFolder
      rw [Action.bind_apply, hcheck]
      dsimp only
      rw [if_pos (by simpa using hdir), Action.bind_apply, hcopy]
      exact ⟨_, rfl, rfl⟩
    obtain ⟨w', hdone, rfl⟩ := hdone
    exact ⟨w', hdone, hlayer, h.step hfirst hin hlayer⟩
  · -- Below what is no directory there is nothing.
    have hnone : folderLayer first l folder = fun _ => none := by
      funext names
      cases names with
      | nil => rfl
      | cons name rest =>
        refine Option.eq_none_iff_forall_ne_some.2 fun e he => hdir ?_
        rw [folderLayer, List.append_cons] at he
        exact hfirst.tree.closed.directory_above _ _ (by simp) he
    refine ⟨w, ?_, hnone ▸ .nothing m w.disk, h⟩
    unfold Site.copyAssetFolder
    refine Action.bind_eq_ok_iff.2 ⟨_, w, hcheck, ?_⟩
    rw [if_neg (by simpa using hdir)]
    rfl

/-- **A file at the root of the assets that is copied** is laid over the images. -/
theorem Overlaying.copyAssetFile (h : Overlaying a (output.child imagesFolder) l m first w.disk)
    (hfirst : CanOverlay a output l m first) (hlooked : LookedUp a (output.child imagesFolder) l first)
    (hname : name ∈ assetFiles) : ∃ w', copyAssetFile a (output.child imagesFolder) name w = (.ok (), w') ∧
      w.disk.Laid (fileLayer first l name) m w'.disk ∧
      Overlaying a (output.child imagesFolder) l m first w'.disk := by
  have hshort : exceeds longestName name = false := by
    revert name
    decide
  have hin := fileLayer_mem hname first l
  have hentry := isEntryName_assetFile hname
  have hfound := h.find_child (hlooked.files name hname) hentry hshort
  have hcheck : ∀ octets, w.disk.seekFile (a.child name) = .ok octets →
      Job.onDisk (check (·.seekFile (a.child name))) w = (.ok octets, w) := fun octets hseek =>
    Job.onDisk_eq_ok.2 ⟨_, check_eq_ok.2 ⟨hseek, rfl⟩, rfl⟩
  have hskip : w.disk.seekFile (a.child name) = .ok none → fileLayer first l name = (fun _ => none) →
      ∃ w', Site.copyAssetFile a (output.child imagesFolder) name w = (.ok (), w') ∧
        w.disk.Laid (fileLayer first l name) m w'.disk ∧
        Overlaying a (output.child imagesFolder) l m first w'.disk := fun hseek hnone =>
    ⟨w, Action.bind_eq_ok_iff.2 ⟨none, w, hcheck none hseek, rfl⟩, hnone ▸ .nothing m w.disk, h⟩
  rcases hfile : first.locate? (l ++ [name]) with _ | ⟨bytes | _ | target⟩
  case some.file =>
    have hlayer : fileLayer first l name [name] = some (.file bytes) := by simp [fileLayer, hfile]
    have hkind : ∀ old, w.disk.locate? (m ++ [name]) = some old → old.SameKind (.file bytes) := fun old hold =>
      h.alike _ hin [name] old _ hold hlayer
    have hne : l ++ [name] ≠ m ++ [name] := fun heq =>
      hfirst.apart.1 ((List.append_inj' heq rfl).1 ▸ List.prefix_rfl)
    rw [hfile] at hfound
    obtain ⟨d, hcopied, hput⟩ := copyFile_lays hfound h.images (hlooked.copies _ hin [name] _ hlayer) hentry hshort
      h.imagesFree hkind hne
    have halone : Disk.Layer.alone (.file bytes) = (fileLayer first l name).under name := by
      funext rest
      simp [Disk.Layer.alone, Disk.Layer.under, fileLayer, hfile]
    have hlaid : w.disk.Laid (fileLayer first l name) m d := by
      rw [fileLayer_eq_among]
      exact (halone ▸ hput).below
    have hseek : w.disk.seekFile (a.child name) = .ok (some bytes) := by
      rw [Disk.seekFile, Disk.seek, hfound]
      rfl
    exact ⟨{ w with disk := d }, Action.bind_eq_ok_iff.2
      ⟨some bytes, w, hcheck _ hseek, Job.onDisk_eq_ok.2 ⟨_, hcopied, rfl⟩⟩, hlaid, h.step hfirst hin hlaid⟩
  all_goals
    refine hskip ?_ ?_
    · rw [Disk.seekFile, Disk.seek, hfound, hfile]
      rfl
    · funext names
      simp [fileLayer, hfile]

end Steps

end DocFerry.Site
