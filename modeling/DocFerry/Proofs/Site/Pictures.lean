import DocFerry.Proofs.Files.Copies
import DocFerry.Proofs.Files.Names
import DocFerry.Proofs.Markup.References
import DocFerry.Proofs.Site.Run
/-!
# Pictures after the move

The asset folders are copied one over the other into the folder of images, and then the files at the root of the assets.
A reference to a file of any asset folder is led to the path that the file has in its folder, below the folder of
images.  The page then shows that file, unless something that is copied after it is put in its place
(`pictures_shown`), which happens to a file of one name in two folders (`picture_of_other_folder`).  Without links
this is a matter of names (`unshadowed_of_noLinks`).
-/
namespace DocFerry.Files.Disk

open Text.Utf8 (Octets)

/-- **Two paths lead to one place**, where something is. -/
def SharePlace (d : Disk) (p q : Path) : Prop :=
  ∃ l e e', d.find p = .ok ⟨l, some e⟩ ∧ d.find q = .ok ⟨l, some e'⟩

variable {P : Disk → Path → Prop} {d e f : Disk} {area : Area} {p : Path} {l : Location} {bytes : Octets}

/-- **A file stays as it is** if nothing that is written in the meantime is put in its place, as a later disk shows. -/
theorem Wrote.find_file (h : d.Wrote P e) (hs : d.Sound) (hP : Stable P) (hg : e.Grows area f)
    (hf : d.find p = .ok ⟨l, some (.file bytes)⟩) (hapart : ∀ q, P f q → ¬ f.SharePlace q p) :
    e.find p = .ok ⟨l, some (.file bytes)⟩ := by
  have hgrown := h hs
  refine hgrown.find_file hf fun ⟨q, written, hq, hat⟩ => ?_
  obtain ⟨_, hp', _⟩ := hgrown.find hf
  obtain ⟨_, hp'', _⟩ := hg.find hp'
  obtain ⟨_, hq', _⟩ := hg.find hat
  exact hapart q (hP _ _ _ _ hg hq) ⟨l, _, _, hq', hp''⟩

end DocFerry.Files.Disk

namespace DocFerry.Site

open Files
open Text.Utf8 (Octets)

/-- **The asset folders that are copied after one.** -/
def foldersAfter (folder : Text) : List Text := (assetSubfolders.dropWhile (· != folder)).tail

theorem assetSubfolders_split {folder : Text} (h : folder ∈ assetSubfolders) :
    ∃ before, assetSubfolders = before ++ folder :: foldersAfter folder := by
  have hall : ∀ folder ∈ assetSubfolders,
      assetSubfolders = assetSubfolders.takeWhile (· != folder) ++ folder :: foldersAfter folder := by decide
  exact ⟨_, hall folder h⟩

/-- **What is copied after a file of an asset folder, or beside it**: the other files of that folder, those of the
folders after it, and the files at the root of the assets. -/
def CopiedAfter (a images : Path) (folder : Text) (names : List Text) (d : Disk) (q : Path) : Prop :=
  CopiedBut (a.child folder) images names d q ∨ (∃ later ∈ foldersAfter folder, CopiedBelow (a.child later) images d q) ∨
    ∃ name ∈ assetFiles, CopiedTo (a.child name) (images.child name) d q

theorem stable_copiedAfter (a images : Path) (folder : Text) (names : List Text) :
    Disk.Stable (CopiedAfter a images folder names) := by
  rintro area d e q hg (h | ⟨later, hl, h⟩ | ⟨name, hn, h⟩)
  · exact .inl (stable_copiedBut _ _ _ _ _ _ _ hg h)
  · exact .inr (.inl ⟨later, hl, stable_copiedBelow _ _ _ _ _ _ hg h⟩)
  · exact .inr (.inr ⟨name, hn, stable_copiedTo _ _ _ _ _ _ hg h⟩)

theorem copyAssetFolder_eq_ok {a images : Path} {folder : Text} {w w' : World} {l : Location}
    (h : copyAssetFolder a images folder w = (.ok (), w')) (hf : w.disk.find (a.child folder) = .ok ⟨l, some .directory⟩) :
    copyTree (a.child folder) images w.disk = (.ok (), w'.disk) := by
  obtain ⟨found, _, hfound, h⟩ := Action.bind_eq_ok_iff.1 h
  obtain ⟨d, hd, rfl⟩ := Job.onDisk_eq_ok.1 hfound
  obtain ⟨hseek, rfl⟩ := check_eq_ok.1 hd
  obtain rfl : found = true := by
    rw [Disk.seekDirectory, Disk.seek, hf] at hseek
    exact (Except.ok.inj hseek).symm
  obtain ⟨_, x, hcopied, htold⟩ := Action.bind_eq_ok_iff.1 h
  obtain ⟨d', hd', rfl⟩ := Job.onDisk_eq_ok.1 hcopied
  cases htold
  exact hd'

theorem copyAssets_eq_ok {a output images : Path} {w w' : World} (h : copyAssets (some a) output w = (.ok images, w')) :
    images = output.child imagesFolder ∧ ∃ u v, makeDirectories true images w.disk = (.ok (), u.disk) ∧
      assetSubfolders.forM (copyAssetFolder a images) u = (.ok (), v) ∧
      assetFiles.forM (copyAssetFile a images) v = (.ok (), w') := by
  unfold copyAssets at h
  obtain ⟨_, u, hmade, h⟩ := Action.bind_eq_ok_iff.1 h
  obtain ⟨_, v, hfolders, h⟩ := Action.bind_eq_ok_iff.1 h
  obtain ⟨_, x, hfiles, h⟩ := Action.bind_eq_ok_iff.1 h
  obtain ⟨rfl, rfl⟩ := Action.pure_eq_ok_iff.1 h
  obtain ⟨d, hd, rfl⟩ := Job.onDisk_eq_ok.1 hmade
  exact ⟨rfl, _, v, hd, hfolders, hfiles⟩

/-- **The copy of the assets taken apart at one of their folders**: before it the folders before are copied, and after
it those after it and the files. -/
theorem copyAssets_folder {a output images : Path} {w w' : World} {folder : Text} (names : List Text)
    (hp : output.Proper) (hfolder : folder ∈ assetSubfolders) (h : copyAssets (some a) output w = (.ok images, w')) :
    ∃ x y, w.disk.Wrote (IsAssetCopy (some a) output) x.disk ∧ copyAssetFolder a images folder x = (.ok (), y) ∧
      y.disk.Wrote (CopiedAfter a images folder names) w'.disk := by
  obtain ⟨rfl, u, v, hmade, hfolders, hfiles⟩ := copyAssets_eq_ok h
  have hproper := proper_child hp isEntryName_imagesFolder
  have hstable := stable_isAssetCopy (some a) output
  have hafter := stable_copiedAfter a (output.child imagesFolder) folder names
  obtain ⟨before, hsplit⟩ := assetSubfolders_split hfolder
  rw [hsplit] at hfolders
  obtain ⟨x, y, hbefore, hcopied, hrest⟩ := Action.forM_split hfolders
  refine ⟨x, y, ?_, hcopied, ?_⟩
  · have hgrown := makeDirectories_grows true hproper w.disk
    rw [hmade] at hgrown
    have hcopies := Job.forM_keeps (Disk.Wrote.refl (IsAssetCopy (some a) output)) (Disk.Wrote.trans hstable) before
      (fun name hn w => (copyAssetFolder_wrote (a := a) hproper w).mono fun q hq =>
        ⟨a, rfl, .inl ⟨name, by rw [hsplit]; exact List.mem_append_left _ hn, hq⟩⟩) u
    rw [hbefore] at hcopies
    exact Disk.Wrote.trans hstable _ _ _ hgrown.wrote hcopies
  · have hlater := Job.forM_keeps (Disk.Wrote.refl (CopiedAfter a (output.child imagesFolder) folder names))
      (Disk.Wrote.trans hafter) (foldersAfter folder) (fun name hn w =>
        (copyAssetFolder_wrote (a := a) hproper w).mono fun q hq => .inr (.inl ⟨name, hn, hq⟩)) y
    have hroot := Job.forM_keeps (Disk.Wrote.refl (CopiedAfter a (output.child imagesFolder) folder names))
      (Disk.Wrote.trans hafter) assetFiles (fun name hn w =>
        (copyAssetFile_wrote (a := a) hproper hn w).mono fun q hq => .inr (.inr ⟨name, hn, hq⟩)) v
    rw [hrest] at hlater
    rw [hfiles] at hroot
    exact Disk.Wrote.trans hafter _ _ _ hlater hroot

/-- **The copy of the assets comes to each file of an asset folder.** -/
theorem copyAssets_reaches {a output images : Path} {w w' : World} {folder : Text} {names : List Text}
    (hp : output.Proper) (hs : w.disk.Sound) (hfolder : folder ∈ assetSubfolders) (hne : names ≠ [])
    (hnames : ∀ n ∈ names, IsEntryName n) (hfile : w.disk.HasFile ((a.child folder).descend names))
    (h : copyAssets (some a) output w = (.ok images, w')) :
    ∃ e e', w.disk.Wrote (IsAssetCopy (some a) output) e ∧
      copyFile ((a.child folder).descend names) (images.descend names) e = (.ok (), e') ∧
      e'.Wrote (CopiedAfter a images folder names) w'.disk := by
  obtain ⟨x, y, hx, hcopied, hy⟩ := copyAssets_folder names hp hfolder h
  obtain ⟨rfl, _⟩ := copyAssets_eq_ok h
  have hthere : x.disk.HasFile ((a.child folder).descend names) := Disk.stable_hasFile (hx hs) hfile
  obtain ⟨_, _, hat⟩ := hthere
  obtain ⟨_, _, hdir, _⟩ := Disk.find_on_the_way hne hat
  obtain ⟨e, e', he, hcopy, he'⟩ := copyTreeWithin_reaches hne hnames (proper_child hp isEntryName_imagesFolder)
    ((hx hs).sound hs) (copyAssetFolder_eq_ok hcopied hdir) ⟨_, _, hat⟩
  refine ⟨e, e', Disk.Wrote.trans (stable_isAssetCopy (some a) output) _ _ _ hx
    (he.mono fun q hq => ⟨a, rfl, .inl ⟨folder, hfolder, hq⟩⟩), hcopy,
    Disk.Wrote.trans (stable_copiedAfter a (output.child imagesFolder) folder names) _ _ _
      (he'.mono fun q hq => .inl hq) hy⟩

/-- **The file that a page shows for an image**: its reference begins at the root of the new site. -/
def pictureAt (output : Path) (target : Text) : Path := output.joinText ((Markup.imageRoot ++ target).drop 1)

theorem pictureAt_join (output : Path) {names : List Text} (hne : names ≠ []) (hnames : ∀ n ∈ names, IsEntryName n) :
    pictureAt output (Text.join ['/'] names) = (output.child imagesFolder).descend names := by
  have htext : (Markup.imageRoot ++ Text.join ['/'] names).drop 1 = Text.join ['/'] (imagesFolder :: names) := by
    cases names with
    | nil => exact absurd rfl hne
    | cons name names => rfl
  have hsteps : ∀ n ∈ imagesFolder :: names, Path.IsStep n :=
    List.forall_mem_cons.2 ⟨isEntryName_imagesFolder.1, fun n hn => (hnames n hn).1⟩
  rw [pictureAt, htext, Path.joinText_join output hsteps, descend_child]

/-- **No other copy is put in the place of an asset's picture**: no directory is there, nothing that is copied after
the asset leads there, and no copy at all leads to the asset itself. -/
structure Unshadowed (a output : Path) (folder : Text) (names : List Text) (d : Disk) : Prop where
  file : d.isDirectory ((output.child imagesFolder).descend names) = false
  picture : ∀ q, CopiedAfter a (output.child imagesFolder) folder names d q →
    ¬ d.SharePlace q ((output.child imagesFolder).descend names)
  asset : ∀ q, IsAssetCopy (some a) output d q → ¬ d.SharePlace q ((a.child folder).descend names)

/-- **A file of an asset folder is what its picture shows.** -/
theorem find_picture {a output images : Path} {w w' : World} {folder : Text} {names : List Text} {l : Location}
    {bytes : Octets} (hs : w.disk.Sound) (hp : output.Proper) (hfolder : folder ∈ assetSubfolders) (hne : names ≠ [])
    (hnames : ∀ n ∈ names, IsEntryName n)
    (hfile : w.disk.find ((a.child folder).descend names) = .ok ⟨l, some (.file bytes)⟩)
    (hcopy : copyAssets (some a) output w = (.ok images, w')) (h : Unshadowed a output folder names w'.disk) :
    ∃ m, w'.disk.find ((output.child imagesFolder).descend names) = .ok ⟨m, some (.file bytes)⟩ := by
  obtain ⟨e, e', he, hcopied, he'⟩ := copyAssets_reaches hp hs hfolder hne hnames ⟨l, bytes, hfile⟩ hcopy
  obtain ⟨rfl, _⟩ := copyAssets_eq_ok hcopy
  have htarget := proper_descend (proper_child hp isEntryName_imagesFolder) hnames
  have hlast : IsEntryName ((a.child folder).descend names).name :=
    (a.child folder).name_descend hne ▸ hnames _ (List.getLast_mem hne)
  have hesound := (he hs).sound hs
  have hcopygrown := copyFile_wrote hlast htarget e hesound
  rw [hcopied] at hcopygrown
  have hafter := he' (hcopygrown.sound hesound)
  obtain ⟨area, hgrown⟩ := Disk.exists_grows_trans ⟨_, hcopygrown⟩ ⟨_, hafter⟩
  -- What is no directory in the end has not been one before.
  have hnodir : e.isDirectory ((output.child imagesFolder).descend names) = false := by
    refine Bool.eq_false_iff.2 fun hdir => ?_
    obtain ⟨m, hm⟩ := isDirectory_iff.1 hdir
    obtain ⟨x, hx, hkind⟩ := hgrown.find hm
    rw [Entry.SameKind.directory_iff hkind |>.1 rfl] at hx
    have hfile := h.file
    rw [Disk.isDirectory_of_find hx] at hfile
    cases hfile
  obtain ⟨_, m, copied, hsource, hfound⟩ := find_of_copyFile hcopied hnodir
  have hkept := he.find_file hs (stable_isAssetCopy _ _) hgrown hfile h.asset
  cases hsource.symm.trans hkept
  exact ⟨m, he'.find_file (hcopygrown.sound hesound) (stable_copiedAfter _ _ _ _) (.refl .none _) hfound h.picture⟩

theorem assetSubfolder_of_assetFolder {folder : Text} (h : folder ++ ['/'] ∈ Markup.assetFolders) :
    folder ∈ assetSubfolders := by
  have hall : ∀ f ∈ Markup.assetFolders, f.dropLast ∈ assetSubfolders := by decide
  simpa using hall _ h

theorem join_ne_nil {names : List Text} (hne : names ≠ []) (hnames : ∀ n ∈ names, IsEntryName n) :
    Text.join ['/'] names ≠ [] := by
  obtain ⟨c, _, hlast⟩ := Path.getLast?_join hne fun n hn => (hnames n hn).1
  intro he
  rw [he] at hlast
  cases hlast

/-- **Pictures stay what they are.**  A reference to a file of an asset folder is led to the path that the file has in
its folder, and after the copy of the assets the file there has the same octets, which are still those of the asset:
unless something that is copied after it is put in its place. -/
theorem pictures_shown {a output images : Path} {w w' : World} {folder : Text} {names : List Text} {bytes : Octets}
    (hs : w.disk.Sound) (hp : output.Proper) (hfolder : folder ++ ['/'] ∈ Markup.assetFolders) (hne : names ≠ [])
    (hnames : ∀ n ∈ names, IsEntryName n) (hfile : w.disk.read ((a.child folder).descend names) = .ok bytes)
    (hcopy : copyAssets (some a) output w = (.ok images, w')) (h : Unshadowed a output folder names w'.disk) :
    Markup.Redirects (folder ++ ['/']) (Text.join ['/'] names) ∧
      w'.disk.read (pictureAt output (Text.join ['/'] names)) = .ok bytes ∧
      w'.disk.read ((a.child folder).descend names) = .ok bytes := by
  obtain ⟨l, hf⟩ := Disk.hasFile_of_read hfile
  obtain ⟨m, hpicture⟩ := find_picture hs hp (assetSubfolder_of_assetFolder hfolder) hne hnames hf hcopy h
  have hcopied := copyAssets_wrote hp (some a) w
  rw [hcopy] at hcopied
  have hasset := hcopied.find_file hs (stable_isAssetCopy _ _) (.refl .none _) hf h.asset
  refine ⟨Markup.redirects hfolder (join_ne_nil hne hnames), ?_, ?_⟩
  · rw [pictureAt_join output hne hnames, Disk.read, hpicture]
  · rw [Disk.read, hasset]

/-! ## Without links -/

/-- **The names that a file may be copied to**: its own, or its last name once more if a directory is there. -/
def LandsOn (other names : List Text) : Prop :=
  other ≠ [] ∧ (other = names ∨ other ++ [other.getLast?.getD []] = names)

section NoLinks

variable {d : Disk} {p q source : Path} {other names : List Text}

theorem names_of_sharePlace (hs : d.Sound) (hl : d.NoLinks) (hother : ∀ n ∈ other, IsEntryName n)
    (hnames : ∀ n ∈ names, IsEntryName n) (h : d.SharePlace (p.descend other) (p.descend names)) : other = names := by
  obtain ⟨l, _, _, hq, hp⟩ := h
  have hfree : d.LinkFree (d.settle p) := fun m target _ => hl m target
  have hql := Disk.location_of_find_descend hs (.refl d) hfree (not_mem_up hother) hq
  have hpl := Disk.location_of_find_descend hs (.refl d) hfree (not_mem_up hnames) hp
  exact List.append_cancel_left (hql.symm.trans hpl)

/-- **A copy that is put in the place of a path below its target** has landed on its names. -/
theorem landsOn_of_copiedTo (hs : d.Sound) (hl : d.NoLinks) (hne : other ≠ []) (hother : ∀ n ∈ other, IsEntryName n)
    (hnames : ∀ n ∈ names, IsEntryName n) (hname : source.name = other.getLast?.getD [])
    (h : CopiedTo source (p.descend other) d q) (hq : d.SharePlace q (p.descend names)) : LandsOn other names := by
  refine ⟨hne, ?_⟩
  rcases h.2 with rfl | rfl
  · exact .inl (names_of_sharePlace hs hl hother hnames hq)
  · rw [Path.child_descend, hname] at hq
    refine .inr (names_of_sharePlace hs hl (fun n hn => ?_) hnames hq)
    rcases List.mem_append.1 hn with hn | hn
    · exact hother n hn
    · rw [List.mem_singleton.1 hn, List.getLast?_eq_some_getLast hne]
      exact hother _ (List.getLast_mem hne)

theorem name_descend_eq (p : Path) (hne : other ≠ []) : (p.descend other).name = other.getLast?.getD [] := by
  rw [Path.name_descend p hne, List.getLast?_eq_some_getLast hne, Option.getD_some]

end NoLinks

/-- **Without links an asset's picture is its own** if no other file that is copied after it lands on its names, and the
folder of images lies apart from the asset. -/
theorem unshadowed_of_noLinks {a output : Path} {folder : Text} {names : List Text} {d : Disk} (hs : d.Sound)
    (hl : d.NoLinks) (hup : Path.up ∉ folder :: names) (hnames : ∀ n ∈ names, IsEntryName n)
    (hfile : d.isDirectory ((output.child imagesFolder).descend names) = false)
    (hapart : ¬ d.settle (output.child imagesFolder) <+: d.settle a ++ folder :: names)
    (hbeside : ∀ other, other ≠ names → LandsOn other names → ¬ d.HasFile ((a.child folder).descend other))
    (hlater : ∀ later ∈ foldersAfter folder, ∀ other, LandsOn other names → ¬ d.HasFile ((a.child later).descend other))
    (hroot : ∀ name ∈ assetFiles, LandsOn [name] names → ¬ d.HasFile (a.child name)) :
    Unshadowed a output folder names d where
  file := hfile
  picture q hq hshare := by
    rcases hq with ⟨other, hne, hother, hbut, hq⟩ | ⟨later, hin, other, hne, hother, hq⟩ | ⟨name, hname, hq⟩
    · exact hbeside other hbut (landsOn_of_copiedTo hs hl hne hother hnames (name_descend_eq _ hne) hq hshare) hq.1
    · exact hlater later hin other (landsOn_of_copiedTo hs hl hne hother hnames (name_descend_eq _ hne) hq hshare) hq.1
    · have hentry : ∀ n ∈ [name], IsEntryName n := by simpa using isEntryName_assetFile hname
      rw [← Path.descend_nil ((output.child imagesFolder).child name), descend_child] at hq
      exact hroot name hname (landsOn_of_copiedTo hs hl (by simp) hentry hnames (Path.name_child _ _) hq hshare) hq.1
  asset q hq hshare := by
    obtain ⟨below, hbelow, rfl⟩ := hq.inImages
    obtain ⟨l, _, _, hql, hal⟩ := hshare
    have hq' := Disk.location_of_find_descend hs (.refl d) (fun m t _ => hl m t) (not_mem_up hbelow) hql
    rw [descend_child] at hal
    have ha' := Disk.location_of_find_descend hs (.refl d) (fun m t _ => hl m t) hup hal
    exact hapart (ha' ▸ hq' ▸ List.prefix_append _ _)

/-- **Assets in two folders**, with one name in both. -/
def assetSite : Disk where
  entries := [(["static"], .directory), (["static", "img"], .directory), (["static", "img", "a.png"], .file [1]),
    (["static", "img", "b.png"], .file [2]), (["static", "assets"], .directory),
    (["static", "assets", "b.png"], .file [3])].map fun e => (e.1.map String.toList, e.2)

theorem assetSite_isTree : assetSite.IsTree := ⟨by decide, by decide, by decide, by decide⟩

theorem pictures_shown_assetSite : ∃ images w',
    copyAssets (some (.word "static")) (.word "out") { disk := assetSite } = (.ok images, w') ∧
      w'.disk.read (pictureAt (.word "out") "a.png".toList) = .ok [1] := by
  obtain ⟨images, w', hcopy⟩ := Action.exists_eq_ok (show (copyAssets (some (.word "static")) (.word "out")
    { disk := assetSite }).1.isOk = true by decide +kernel)
  have hw' : w' = (copyAssets (some (.word "static")) (.word "out") { disk := assetSite }).2 := by rw [hcopy]
  have hproper : (Path.word "out").Proper := Path.ofText_proper _
  have hgrown := copyAssets_wrote hproper (some (.word "static")) { disk := assetSite } assetSite_isTree.sound
  rw [← hw'] at hgrown
  have hnolinks : w'.disk.NoLinks := Disk.NoLinks.of_sameLinks (fun l target =>
    Disk.linkFree_of_entries (by simp [assetSite]) l l target (List.prefix_refl l)) hgrown.links
  have hnames : ∀ n ∈ ["a.png".toList], IsEntryName n := by
    exact List.forall_mem_singleton.2 ⟨⟨by decide, by decide⟩, by decide⟩
  have halone : ∀ other, LandsOn other ["a.png".toList] → other = ["a.png".toList] := by
    rintro other ⟨hne, h | h⟩
    · exact h
    · rcases List.append_eq_singleton_iff.1 h with ⟨hnil, _⟩ | ⟨_, hnil⟩
      · exact absurd hnil hne
      · cases hnil
  have hnone : ∀ later ∈ foldersAfter "img".toList,
      (w'.disk.read (((Path.word "static").child later).descend ["a.png".toList])).isOk = false := by
    rw [hw']
    decide +kernel
  have h : Unshadowed (.word "static") (.word "out") "img".toList ["a.png".toList] w'.disk := by
    refine unshadowed_of_noLinks (hgrown.sound assetSite_isTree.sound) hnolinks (by decide) hnames ?_ ?_
      (fun other hne h => absurd (halone other h) hne) (fun later hl other h hfile => ?_) (fun name hn h => ?_)
    · rw [hw']
      decide +kernel
    · rw [hw']
      decide +kernel
    · obtain ⟨_, _, hf⟩ := hfile
      have hread := hnone later hl
      rw [← halone other h, Disk.read, hf] at hread
      cases hread
    · obtain ⟨rfl⟩ := halone [name] h
      exact absurd hn (by decide)
  exact ⟨images, w', hcopy, (pictures_shown assetSite_isTree.sound hproper (by decide) (by decide) hnames
    (show assetSite.read _ = .ok [1] by decide +kernel) hcopy h).2.1⟩

/-- **A picture is not always that of its own asset**: of two assets of one name, the page that refers to the one shows
the other. -/
theorem picture_of_other_folder : ∃ images w',
    copyAssets (some (.word "static")) (.word "out") { disk := assetSite } = (.ok images, w') ∧
      Markup.canonicalizeImages "![B](/img/b.png)".toList = "![B](/images/b.png)".toList ∧
      w'.disk.read (((Path.word "static").child "img".toList).descend ["b.png".toList]) = .ok [2] ∧
      w'.disk.read (pictureAt (.word "out") "b.png".toList) = .ok [3] := by
  obtain ⟨images, w', hcopy⟩ := Action.exists_eq_ok (show (copyAssets (some (.word "static")) (.word "out")
    { disk := assetSite }).1.isOk = true by decide +kernel)
  have hw' : w' = (copyAssets (some (.word "static")) (.word "out") { disk := assetSite }).2 := by rw [hcopy]
  refine ⟨images, w', hcopy, by decide +kernel, ?_, ?_⟩ <;>
    · rw [hw']
      decide +kernel

end DocFerry.Site
