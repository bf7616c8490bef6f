import DocFerry.Proofs.Site.AssetCopies
/-!
# The logo of the new site

A logo is looked for in the old assets under some names and then among the images under others, while the assets are
copied from some folders and under some names of files.  The lists agree: wherever a logo is found among the assets, it
is copied to the images under its own name (`copied_of_assetLogo`).  So the logo in the manifest leads to something in
the new site, and to a file unless a directory of its name has been copied to the images, or was there before
(`picture_of_logo`, `logo_resolves`).  A directory is taken for a logo where one is found among the images
(`directory_as_logo`).
-/
namespace DocFerry.Site

open Files Nav

/-! ## Where a logo is found -/

theorem mem_of_firstThat {test : Path → Except Problem Bool} {p : Path} : ∀ {places : List Path},
    Disk.firstThat test places = .ok (some p) → p ∈ places
  | [], h => by cases h
  | q :: rest, h => by
    rw [Disk.firstThat] at h
    obtain ⟨b, _, h⟩ := bind_eq_ok h
    cases b with
    | true =>
      cases h
      exact List.mem_cons_self
    | false => exact List.mem_cons_of_mem _ (mem_of_firstThat h)

/-- **A logo of the assets is copied**: it is in an asset folder, or a file at the root of the assets that is copied. -/
theorem copied_of_assetLogo : ∀ p ∈ assetLogos, (∃ folder ∈ assetSubfolders, p.names = [folder, p.name]) ∨
    p.name ∈ assetFiles ∧ p.names = [p.name] := by
  decide

/-- **A logo of the images** is right in their folder. -/
theorem names_of_imageLogo : ∀ p ∈ imageLogos, p.names = [p.name] := by decide

/-- **A logo is found below a folder** along plain names. -/
theorem descend_of_logo {p : Path} (h : p ∈ assetLogos ++ imageLogos) :
    (∀ n ∈ p.names, IsEntryName n) ∧ IsEntryName p.name ∧ ∀ root : Path, root.join p = root.descend p.names := by
  have hall : ∀ p ∈ assetLogos ++ imageLogos, p.absolute = false ∧
      ∀ n ∈ p.name :: p.names, Path.isName n = true ∧ '/' ∉ n ∧ n ≠ Path.up := by decide
  obtain ⟨hrelative, hnames⟩ := hall p h
  obtain ⟨hname, hnames⟩ := List.forall_mem_cons.1 hnames
  refine ⟨fun n hn => ⟨⟨(hnames n hn).1, (hnames n hn).2.1⟩, (hnames n hn).2.2⟩,
    ⟨⟨hname.1, hname.2.1⟩, hname.2.2⟩, fun root => ?_⟩
  rw [Path.join, if_neg (by simp [hrelative]), Path.descend]

/-- **A logo found below a folder** under one of some names, and the place that it has after the move. -/
def LogoBelow (d : Disk) (candidates : List Path) (root : Path) (place : Text) : Prop :=
  ∃ p ∈ candidates, place = "/images/".toList ++ p.name ∧ ∃ l e, d.find (root.join p) = .ok ⟨l, some e⟩

section Found

variable {d : Disk} {assets : Option Path} {output images : Path} {out : Location} {name place : Text} {w w' : World}

theorem firstLogo_eq_some {candidates : List Path} {root : Option Path}
    (h : firstLogo d candidates root = .ok (some place)) : ∃ r ∈ root, LogoBelow d candidates r place := by
  cases root with
  | none => cases h
  | some r =>
    obtain ⟨found, hfound, hplace⟩ := map_eq_ok h
    cases found with
    | none => cases hplace
    | some p =>
      obtain ⟨entry, hseek, hsome⟩ := map_eq_ok (Disk.firstThat_some hfound)
      obtain ⟨e, rfl⟩ := Option.isSome_iff_exists.1 hsome
      obtain ⟨⟨l, _⟩, hfind, rfl⟩ := Disk.find_of_seek hseek
      exact ⟨r, rfl, p, mem_of_firstThat hfound, (Option.some.inj hplace).symm, l, e, hfind⟩

/-- **A logo is found** among the assets, or else among the images. -/
theorem logo_eq_some (h : logo d assets (some images) = .ok (some place)) :
    (∃ a ∈ assets, LogoBelow d assetLogos a place) ∨ LogoBelow d imageLogos images place := by
  unfold logo at h
  obtain ⟨first, hfirst, h⟩ := bind_eq_ok h
  cases first with
  | some found =>
    cases h
    exact .inl (firstLogo_eq_some hfirst)
  | none =>
    obtain ⟨other, hother, hrest⟩ := firstLogo_eq_some h
    cases Option.mem_some_iff.1 hother
    exact .inr hrest

/-! ## The picture of a logo -/

/-- **The logo that is found has a picture** among the images, once the assets have been copied: what is found among
the assets is a file that has been copied there. -/
theorem exists_picture (hp : output.Proper) (hs : w.disk.Sound) (hstay : AssetsStay w.disk assets w'.disk)
    (hfiles : ∀ a ∈ assets, ∀ p ∈ assetLogos, w.disk.isDirectory (a.join p) = false)
    (hcopy : copyAssets assets output w = (.ok images, w'))
    (hlogo : logo w'.disk assets (some images) = .ok (some ("/images/".toList ++ name))) :
    IsEntryName name ∧ ∃ l e, w'.disk.find (images.child name) = .ok ⟨l, some e⟩ := by
  rcases logo_eq_some hlogo with ⟨a, ha, p, hin, hplace, l, e, hfound⟩ | ⟨p, hin, hplace, hfound⟩
  · obtain rfl : name = p.name := List.append_cancel_left hplace
    obtain ⟨hnames, hentry, hjoin⟩ := descend_of_logo (List.mem_append_left _ hin)
    have hfile := hfiles a ha p hin
    cases Option.mem_def.1 ha
    obtain ⟨rfl, _⟩ := copyAssets_eq_ok hcopy
    refine ⟨hentry, ?_⟩
    rw [hjoin] at hfound hfile
    -- What is found there in the end is no directory, so it has been a file when the assets were copied.
    have hup := not_mem_up hnames
    have hthere : w.disk.HasFile (a.descend p.names) := by
      rw [← (hstay a rfl).hasFile_iff hup, Disk.hasFile_iff_of_find hfound, (hstay a rfl).isDirectory hup, hfile]
    have himages := proper_child hp isEntryName_imagesFolder
    rcases copied_of_assetLogo p hin with ⟨folder, hfolder, hpath⟩ | ⟨hroot, hpath⟩
    · rw [hpath, ← descend_child] at hthere
      have hlast : ((a.child folder).descend [p.name]).name = p.name := Path.name_child _ _
      obtain ⟨e, e', he, hcopyFile, he'⟩ :=
        copyAssets_reaches hp hs hfolder (List.cons_ne_nil _ _) (by simpa using hentry) hthere hcopy
      exact find_target_of_copyFile (hlast.symm ▸ hentry) (proper_child himages hentry) ((he hs).sound hs)
        hcopyFile he'
    · rw [hpath, ← descend_child, Path.descend_nil] at hthere
      obtain ⟨e, e', he, hcopyFile, he'⟩ := copyAssets_file hp hs hroot hthere hcopy
      exact find_target_of_copyFile (by rwa [Path.name_child]) (proper_child himages hentry) ((he hs).sound hs)
        hcopyFile he'
  · obtain rfl : name = p.name := List.append_cancel_left hplace
    obtain ⟨_, hentry, hjoin⟩ := descend_of_logo (List.mem_append_right _ hin)
    rw [hjoin, names_of_imageLogo p hin] at hfound
    exact ⟨hentry, hfound⟩

theorem images_of_copyAssets (h : copyAssets assets output w = (.ok images, w')) :
    images = output.child imagesFolder := by
  cases assets with
  | none =>
    obtain ⟨_, _, _, h⟩ := Action.bind_eq_ok_iff.1 h
    exact (Action.pure_eq_ok_iff.1 h).1.symm
  | some a => exact (copyAssets_eq_ok h).1

/-- **A directory is the picture of a logo** exactly if there was one in its place, or one of its name in an asset
folder. -/
theorem isDirectory_picture (hp : output.Proper) (hs : Stands output out w.disk)
    (himages : w.disk.find (output.child imagesFolder) = .ok ⟨out ++ [imagesFolder], some .directory⟩)
    (hapart : ∀ a ∈ assets, ∀ m, w.disk.settle a <+: m → ¬ out <+: m) (hstay : AssetsStay w.disk assets w.disk)
    (hcopy : copyAssets assets output w = (.ok images, w')) (hname : IsEntryName name) {l : Location} {e : Entry}
    (hf : w'.disk.find (images.child name) = .ok ⟨l, some e⟩) :
    w'.disk.isDirectory (images.child name) = true ↔ w.disk.isDirectory (images.child name) = true ∨
      ∃ a ∈ assets, ∃ folder ∈ assetSubfolders, w.disk.isDirectory ((a.child folder).child name) = true := by
  have hmakes := copyAssets_makesOnly hp hapart w hs hstay
  have hgrown := (copyAssets_confined out hp assets w hs).1
  rw [hcopy] at hmakes hgrown
  obtain ⟨hs', _, hdirs⟩ := hmakes
  obtain rfl := images_of_copyAssets hcopy
  constructor
  · intro hdir
    -- The picture lies where its names say, so it is what is at that place.
    have hplace := Disk.place_of_find_child (hgrown.find_directory himages) hname.2
      (fun target => hs'.free _ target (by simp [List.append_assoc])) hf
    rw [List.append_assoc] at hplace
    obtain ⟨rfl, hat⟩ := Place.mk.inj hplace
    rw [Disk.isDirectory_of_find hf, beq_iff_eq] at hdir
    subst hdir
    rcases hdirs _ hat.symm with hbefore | hfolder | ⟨a, ha, folder, hfolder, names, hm, hdir⟩
    · rw [← List.append_assoc] at hbefore
      have hfound := Disk.find_child himages (Disk.walks_of_find hf).1 hname.2 hbefore (by simp)
      exact .inl (by rw [Disk.isDirectory_of_find hfound, beq_self_eq_true])
    · exact absurd (congrArg List.length hfolder) (by simp)
    · obtain rfl : [name] = names := (List.cons.inj (List.append_cancel_left hm)).2
      exact .inr ⟨a, ha, folder, hfolder, hdir⟩
  · rintro (hbefore | ⟨a, ha, folder, hfolder, hdir⟩)
    · obtain ⟨m, hm⟩ := isDirectory_iff.1 hbefore
      exact isDirectory_iff.2 ⟨m, hgrown.find_directory hm⟩
    · cases Option.mem_def.1 ha
      exact copyAssets_directory hp hs.sound hfolder (by simpa using hname) hdir hcopy

/-- **The picture of a detected logo** is there, once the assets have been copied to an output folder that is ready
for pictures. -/
theorem picture_of_logo (hp : output.Proper) (hlink : w.disk.NoLinks) (hs : Stands output out w.disk)
    (himages : w.disk.find (output.child imagesFolder) = .ok ⟨out ++ [imagesFolder], some .directory⟩)
    (hapart : ∀ a ∈ assets, ∀ m, w.disk.settle a <+: m → ¬ out <+: m) (hr : ∀ a ∈ assets, refusal? a = none)
    (hfiles : ∀ a ∈ assets, ∀ p ∈ assetLogos, w.disk.isDirectory (a.join p) = false)
    (hcopy : copyAssets assets output w = (.ok images, w'))
    (hlogo : logo w'.disk assets (some images) = .ok (some ("/images/".toList ++ name))) :
    (∃ l e, w'.disk.find (images.child name) = .ok ⟨l, some e⟩) ∧
      (w'.disk.isDirectory (images.child name) = true ↔ w.disk.isDirectory (images.child name) = true ∨
        ∃ a ∈ assets, ∃ folder ∈ assetSubfolders, w.disk.isDirectory ((a.child folder).child name) = true) := by
  by_cases hthere : ∀ a ∈ assets, ∃ l, w.disk.find a = .ok ⟨l, some .directory⟩
  · have hstay := assetsStay_self hs.sound hlink hthere
    obtain ⟨_, hstay', _⟩ := copyAssets_makesOnly hp hapart w hs hstay
    rw [hcopy] at hstay'
    obtain ⟨hname, l, e, hfound⟩ := exists_picture hp hs.sound hstay' hfiles hcopy hlogo
    exact ⟨⟨l, e, hfound⟩, isDirectory_picture hp hs himages hapart hstay hcopy hname hfound⟩
  · -- Assets that are not there are not copied, and give no logo, so it is as if there were none.
    obtain ⟨a, ha, hlacks⟩ : ∃ a ∈ assets, Lacks a w.disk := by simpa [Lacks] using hthere
    cases Option.mem_def.1 ha
    obtain ⟨hnone, hsame⟩ := copyAssets_of_absent (hr a rfl) hlacks himages hcopy
    have hlogo := logo_of_lacks (hr a rfl) (hsame ▸ hlacks) hlogo
    have hempty : ∀ {P : Path → Prop}, ∀ a ∈ (none : Option Path), P a := by simp
    obtain ⟨hname, l, e, hfound⟩ := exists_picture hp hs.sound hempty hempty hnone hlogo
    refine ⟨⟨l, e, hfound⟩, ?_⟩
    rw [isDirectory_picture hp hs himages hempty hempty hnone hname hfound]
    refine or_congr_right ⟨by simp, fun ⟨b, hb, folder, _, hdir⟩ => ?_⟩
    cases Option.mem_some_iff.1 hb
    obtain ⟨l, hl⟩ := isDirectory_iff.1 hdir
    have hat : w.disk.find (a.descend [folder, name]) = .ok ⟨l, some .directory⟩ := by rwa [← descend_child]
    obtain ⟨m, hm⟩ := Disk.find_above_directory hat
    exact absurd hm (hlacks m)

end Found

/-! ## The run -/

/-- **The brand of a site that is built** is the one detected once the assets have been copied, with the settings. -/
theorem brand_of_build {s : Settings} {docs : Path} {assets : Option Path} {o : Outcome} {w w₂ w' : World} {images : Path}
    (h : s.build docs assets w = (.ok o, w')) (hcopy : copyAssets assets s.output w = (.ok images, w₂)) :
    ∃ detected, detectBrand w₂.disk docs.parent assets (some images) = .ok detected ∧
      o.brand = detected.withSettings s.brand := by
  unfold Settings.build at h
  obtain ⟨images', u, hcopy', h⟩ := Action.bind_eq_ok_iff.1 h
  cases hcopy.symm.trans hcopy'
  obtain ⟨detected, x, hdetect, h⟩ := Action.bind_eq_ok_iff.1 h
  obtain ⟨d, hd, rfl⟩ := Job.onDisk_eq_ok.1 hdetect
  obtain ⟨hdetected, rfl⟩ := check_eq_ok.1 hd
  obtain ⟨_, _, _, h⟩ := Action.bind_eq_ok_iff.1 h
  obtain ⟨_, _, _, h⟩ := Action.bind_eq_ok_iff.1 h
  obtain ⟨_, _, _, h⟩ := Action.bind_eq_ok_iff.1 h
  obtain ⟨_, _, _, h⟩ := Action.bind_eq_ok_iff.1 h
  obtain ⟨rfl, _⟩ := Action.pure_eq_ok_iff.1 h
  exact ⟨detected, hdetected, rfl⟩

/-- **The logo of a brand that no setting overrides** is the one detected. -/
theorem logo_of_detected {d : Disk} {root : Path} {assets images : Option Path} {detected : Brand}
    {settings : Config.BrandSettings} {place : Text} (h : detectBrand d root assets images = .ok detected)
    (hbrand : ∀ l ∈ settings.logo, l = []) (hlogo : (detected.withSettings settings).logo = some place) :
    logo d assets images = .ok (some place) := by
  have hnone : settings.logo.filter (fun l => !l.isEmpty) = none := by
    refine Option.filter_eq_none_iff.2 fun l hl => ?_
    simp [hbrand l hl]
  rw [Brand.withSettings, hnone, Option.none_or] at hlogo
  unfold detectBrand at h
  obtain ⟨_, _, h⟩ := bind_eq_ok h
  obtain ⟨_, _, h⟩ := bind_eq_ok h
  obtain ⟨found, hfound, h⟩ := bind_eq_ok h
  cases h
  rw [hfound, show found = some place from hlogo]

/-- **No directory is taken for a logo of the assets** when they are copied, if there was none before the run and none
is made on the way to the output folder. -/
theorem files_of_prepareImages {s : Settings} {docs : Path} {assets : Option Path} {d e : Disk} (htree : d.IsTree)
    (hlink : d.NoLinks) (hproper : s.output.Proper) (hfolders : s.folders d = .ok (docs, assets))
    (hapart : ∀ a ∈ assets, ∀ m, d.settle a <+: m → ¬ d.settle s.output <+: m)
    (hfiles : ∀ a ∈ assets, ∀ p ∈ assetLogos, d.isDirectory (a.join p) = false)
    (hway : ∀ a ∈ assets, ∀ p ∈ assetLogos, ¬ OnTheWay s.output (d.start s.output) (d.settle (a.join p)))
    (hready : s.prepareImages d = (.ok (), e)) : ∀ a ∈ assets, ∀ p ∈ assetLogos, e.isDirectory (a.join p) = false := by
  intro a ha p hp
  obtain ⟨hnames, _, hjoin⟩ := descend_of_logo (List.mem_append_left _ hp)
  have hbefore := hfiles a ha p hp
  have hpassed := hway a ha p hp
  cases Option.mem_def.1 ha
  obtain ⟨l, hl⟩ := find_of_static hfolders
  obtain rfl : d.settle a = l := Disk.settle_of_find (.refl d) htree.sound.up_not_mem_here hl
  rw [hjoin] at hbefore hpassed ⊢
  have hne : p.names ≠ [] := by rcases copied_of_assetLogo p hp with ⟨_, _, hpath⟩ | ⟨_, hpath⟩ <;> simp [hpath]
  refine Bool.eq_false_iff.2 fun hdir => ?_
  rcases isDirectory_of_prepareImages hproper htree hlink hready hl (hapart a rfl) hnames hne hdir with hthere | honway
  · rw [hbefore] at hthere
    cases hthere
  · exact hpassed honway

/-- **A detected logo resolves unless a directory is in its place.**  Let the assets and the output folder be apart, and
let no directory be in the place of a logo among the assets, nor be made there on the way to the output folder.  If a
run returns with a logo among the images that no setting has overridden, something is there under its name.  It is a
file exactly if no directory was in its place once the output folder was ready for pictures, and none of its name in an
asset folder. -/
theorem logo_resolves {s : Settings} {o : Outcome} {w w' : World} {assets : Option Path} {d : Disk} {name : Text}
    (htree : w.disk.IsTree) (hlink : w.disk.NoLinks) (hproper : s.output.Proper)
    (hfolders : s.folders w.disk = .ok (o.docs, assets))
    (hapart : ∀ a ∈ assets,
      ¬ w.disk.settle a <+: w.disk.settle s.output ∧ ¬ w.disk.settle s.output <+: w.disk.settle a)
    (hfiles : ∀ a ∈ assets, ∀ p ∈ assetLogos, w.disk.isDirectory (a.join p) = false)
    (hway : ∀ a ∈ assets, ∀ p ∈ assetLogos, ¬ OnTheWay s.output (w.disk.start s.output) (w.disk.settle (a.join p)))
    (hbrand : ∀ l ∈ s.brand.logo, l = []) (hready : s.prepareImages w.disk = (.ok (), d)) (hrun : s.run w = (.ok o, w'))
    (hlogo : o.brand.logo = some ("/images/".toList ++ name)) :
    w'.disk.exists? ((s.output.child imagesFolder).child name) = true ∧
      (w'.disk.HasFile ((s.output.child imagesFolder).child name) ↔
        d.isDirectory ((s.output.child imagesFolder).child name) = false ∧
          ∀ a ∈ assets, ∀ folder ∈ assetSubfolders, d.isDirectory ((a.child folder).child name) = false) := by
  have hs := htree.sound
  have hbelow : ∀ a ∈ assets, ∀ m, w.disk.settle a <+: m → ¬ w.disk.settle s.output <+: m := fun a ha m hm hout =>
    (List.prefix_or_prefix_of_prefix hm hout).elim (hapart a ha).1 (hapart a ha).2
  have hfiles' := files_of_prepareImages htree hlink hproper hfolders hbelow hfiles hway hready
  obtain ⟨hsame, hstands, himages⟩ := prepareImages_stands hproper hs hlink hready
  have hlink' := hlink.of_sameLinks hsame
  obtain ⟨docs, assets', d₀, hfolders', _, hprepared, hbuild⟩ := build_of_run hrun
  cases hfolders.symm.trans hfolders'
  obtain ⟨_, _, hprepared', hmade⟩ := Action.bind_eq_ok_iff.1 hready
  cases hprepared.symm.trans hprepared'
  obtain ⟨w₂, w₃, images, b, m, hcopy, hassemble, hmanifest, _⟩ := build_eq_ok hbuild
  obtain rfl := images_of_copyAssets hcopy
  -- The logo is detected on the disk on which the assets have been copied.
  obtain ⟨detected, hdetected, hbuilt⟩ := brand_of_build hbuild hcopy
  have hdetectedLogo := logo_of_detected hdetected hbrand (hbuilt ▸ hlogo)
  have hcopied : copyAssets assets s.output { w.told o.docs with disk := d } = (.ok _, w₂) :=
    (copyAssets_of_made (w := { w.told o.docs with disk := d₀ }) hproper hmade).trans hcopy
  obtain ⟨⟨l, e, hfound⟩, hpicture⟩ := picture_of_logo hproper hlink' hstands himages
    (fun a ha => by rw [hsame.settle hs hlink]; exact hbelow a ha)
    (fun a ha => by
      cases Option.mem_def.1 ha
      obtain ⟨l, hl⟩ := find_of_static hfolders
      exact (Disk.walks_of_find hl).1)
    hfiles' (hcopied) hdetectedLogo
  -- What is there then is there in the end.
  have hstands' := copyAssets_confined (w.disk.settle s.output) hproper assets { w.told o.docs with disk := d }
  rw [hcopied] at hstands'
  obtain ⟨e', hfound', hkind⟩ :=
    (rest_confined hproper hassemble hmanifest (hstands.grown (hstands' hstands).1)).1.find hfound
  refine ⟨by rw [Disk.exists?, Disk.at?, hfound']; rfl, ?_⟩
  rw [Disk.isDirectory_of_find hfound, beq_iff_eq, hkind.directory_iff] at hpicture
  rw [Disk.hasFile_iff_of_find hfound', Disk.isDirectory_of_find hfound', beq_eq_false_iff_ne, ne_eq, hpicture.not]
  simp

/-- **A site with a logo** in an asset folder, and another one at the root of its assets. -/
def logoSite : Disk := givenSite [(["static", "img"], .directory), (["static", "img", "logo.svg"], .file [0x2F])]

theorem logoSite_isTree : logoSite.IsTree := ⟨by decide, by decide, by decide, by decide⟩

theorem logoSite_noLinks : logoSite.NoLinks := fun l target =>
  Disk.linkFree_of_entries (by simp [logoSite, givenSite]) l l target (List.prefix_refl l)

theorem logo_resolves_logoSite : ∃ o w', (givenSettings (.word "out")).run { disk := logoSite } = (.ok o, w') ∧
    o.brand.logo = some "/images/logo.svg".toList ∧ w'.disk.HasFile (.word "out/images/logo.svg") := by
  obtain ⟨o, w', hrun⟩ := Action.exists_eq_ok
    (show ((givenSettings (.word "out")).run { disk := logoSite }).1.isOk = true by decide +kernel)
  obtain ⟨_, d, hready⟩ := Action.exists_eq_ok
    (show ((givenSettings (.word "out")).prepareImages logoSite).1.isOk = true by decide +kernel)
  have hd : d = ((givenSettings (.word "out")).prepareImages logoSite).2 := by rw [hready]
  have hfolders : (givenSettings (.word "out")).folders logoSite = .ok (.word "docs", some (.word "static")) := by rfl
  have hdocs : o.docs = .word "docs" := docs_of_run hrun hfolders
  have hlogo : o.brand.logo = some ("/images/".toList ++ "logo.svg".toList) := by
    have hmade : (((givenSettings (.word "out")).run { disk := logoSite }).1.toOption.map fun o => o.brand.logo) =
        some (some ("/images/".toList ++ "logo.svg".toList)) := by decide +kernel
    rw [hrun] at hmade
    exact Option.some.inj hmade
  have hapart : ¬ logoSite.settle (.word "static") <+: logoSite.settle (.word "out") ∧
      ¬ logoSite.settle (.word "out") <+: logoSite.settle (.word "static") := by decide
  have hbelow : ∀ p ∈ assetLogos,
      logoSite.settle (.word "static") <+: logoSite.settle ((Path.word "static").join p) := by decide
  have hway : ∀ p ∈ assetLogos,
      ¬ OnTheWay (.word "out") (logoSite.start (.word "out")) (logoSite.settle ((Path.word "static").join p)) :=
    fun p hp => not_onTheWay_below logoSite_isTree.sound logoSite_noLinks (by decide) hapart.1 (hbelow p hp)
  obtain ⟨_, hfile⟩ := logo_resolves (w := { disk := logoSite }) logoSite_isTree logoSite_noLinks
    (Path.ofText_proper _) (hdocs ▸ hfolders) (by rintro a ⟨rfl⟩; exact hapart) (by rintro a ⟨rfl⟩; decide +kernel)
    (by rintro a ⟨rfl⟩; exact hway) (by rintro l ⟨⟩) hready hrun hlogo
  have hpath : Path.word "out/images/logo.svg" = ((Path.word "out").child imagesFolder).child "logo.svg".toList := by
    decide
  subst hd
  exact ⟨o, w', hrun, hlogo.trans (by decide),
    hpath ▸ hfile.2 ⟨by decide +kernel, by rintro a ⟨rfl⟩; decide +kernel⟩⟩

/-- **A site with a directory under the name of a logo** in an asset folder. -/
def hollowLogoSite : Disk where
  entries := [(["docs"], .directory), (["docs", "a.md"], .file [0x61]), (["static"], .directory),
    (["static", "img"], .directory), (["static", "img", "logo-light.svg"], .directory),
    (["static", "img", "logo-light.svg", "x"], .file [0x62])].map fun e => (e.1.map String.toList, e.2)

/-- **A directory is taken for a logo.**  One that lies in an asset folder under the name of a logo is copied to the
images, and found there as the logo of the new site. -/
theorem directory_as_logo : ∃ o w', (givenSettings (.word "out")).run { disk := hollowLogoSite } = (.ok o, w') ∧
    hollowLogoSite.IsTree ∧ hollowLogoSite.NoLinks ∧
    ¬ hollowLogoSite.settle (.word "static") <+: hollowLogoSite.settle (.word "out") ∧
    ¬ hollowLogoSite.settle (.word "out") <+: hollowLogoSite.settle (.word "static") ∧
    (givenSettings (.word "out")).brand.logo = none ∧
    (∀ p ∈ assetLogos, hollowLogoSite.exists? ((Path.word "static").join p) = false) ∧
    o.brand.logo = some "/images/logo-light.svg".toList ∧
    w'.disk.isDirectory (.word "out/images/logo-light.svg") = true ∧
    ¬ w'.disk.HasFile (.word "out/images/logo-light.svg") := by
  have hmade : (((givenSettings (.word "out")).run { disk := hollowLogoSite }).1.toOption.map fun o => o.brand.logo) =
      some (some "/images/logo-light.svg".toList) := by decide +kernel
  have hdir : ((givenSettings (.word "out")).run { disk := hollowLogoSite }).2.disk.isDirectory
      (.word "out/images/logo-light.svg") = true := by decide +kernel
  rcases hrun : (givenSettings (.word "out")).run { disk := hollowLogoSite } with ⟨failure | o, w'⟩
  · rw [hrun] at hmade
    cases hmade
  · rw [hrun] at hmade hdir
    refine ⟨o, w', rfl, ⟨by decide, by decide, by decide, by decide⟩, fun l target => ?_, by decide, by decide, rfl,
      by decide +kernel, Option.some.inj hmade, hdir, ?_⟩
    · exact Disk.linkFree_of_entries (by simp [hollowLogoSite]) l l target (List.prefix_refl l)
    · rintro ⟨_, _, hf⟩
      rw [Disk.isDirectory_of_find hf] at hdir
      cases hdir

end DocFerry.Site
