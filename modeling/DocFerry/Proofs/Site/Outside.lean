import DocFerry.Proofs.Site.Rerun
/-!
# What a run changes outside of its output folder

On a disk without links, emptying the output folder takes away what is in it, or leaves the disk as it is, and goes on
by making directories on the way to it (`resetOutput_taken`, `makeDirectories_makesWay`).  What is built after that
stays in the folder (`build_keeps_confined`).  So a run, whether it returns or fails, changes nothing outside of its
output folder, but that directories which were missing on the way to it appear (`run_changes_outside`).
-/
namespace DocFerry.Site

open Files Nav

variable {p : Path} {base l m : Location} {d e : Disk}

/-! ## Emptying, as far as it goes -/

theorem locate?_removeInside (d : Disk) (l m : Location) :
    (d.removeInside l).locate? m = if l <+: m ∧ m ≠ l then none else d.locate? m := by
  unfold Disk.locate?
  by_cases hroot : m = []
  · rw [if_pos hroot, if_pos hroot, if_neg]
    rintro ⟨hp, hne⟩
    exact hne (hroot.trans (List.prefix_nil.1 (hroot ▸ hp)).symm)
  · rw [if_neg hroot, if_neg hroot]
    split
    · rename_i h
      exact Disk.get?_filter_of_neg fun e => by simp [List.isPrefixOf_iff_prefix.2 h.1, h.2]
    · rename_i h
      exact Disk.get?_filter_of_pos fun e => by simpa [List.isPrefixOf_iff_prefix, or_iff_not_imp_left] using h

/-- **A disk from which a directory has been taken**, with or without its own name, if there is one at the path. -/
def TakenFrom (p : Path) (d e : Disk) : Prop :=
  (e = d ∧ ∀ l, d.find p ≠ .ok ⟨l, some .directory⟩) ∨
    ∃ l, d.find p = .ok ⟨l, some .directory⟩ ∧ (e = d.removeInside l ∨ e = d.removeBelow l)

theorem removeFound_taken (p : Path) (d : Disk) : TakenFrom p d (removeFound p d).2 := by
  unfold removeFound
  rw [Action.bind_apply, check]
  rcases hf : d.find p with problem | ⟨l, _ | _ | _ | _⟩
  · exact .inl ⟨rfl, by simp [hf]⟩
  · exact .inl ⟨rfl, by simp [hf]⟩
  · exact .inl ⟨rfl, by simp [hf]⟩
  · refine .inr ⟨l, hf, ?_⟩
    dsimp only
    rw [Action.bind_apply, Action.modify_apply]
    dsimp only [step]
    cases he : (d.removeInside l).withoutEmptied p l with
    | error problem => exact .inl rfl
    | ok e =>
      refine .inr ?_
      unfold Disk.withoutEmptied at he
      split at he
      · cases he
      · split at he
        · split at he <;> cases he
        · cases he
          exact Disk.removeBelow_removeInside d l
  · exact .inl ⟨rfl, by simp [hf]⟩

theorem removeTree_taken (hlink : d.NoLinks) : TakenFrom p d (removeTree p d).2 := by
  have hfound : removeTree p d = removeFound p d := by
    have hne := entryAt?_ne_link hlink p
    unfold removeTree
    rw [Action.bind_apply, Action.get_apply]
    dsimp only
    cases hat : d.entryAt? p with
    | none => rfl
    | some entry =>
      cases entry with
      | link target => exact absurd hat (hne target)
      | file => rfl
      | directory => rfl
  rw [hfound]
  exact removeFound_taken p d

/-- **Emptying the output folder**, as far as it goes: a directory that is there is taken, and then others are made. -/
theorem resetOutput_taken {R : Disk → Disk → Prop} (refl : ∀ d, R d d)
    (hmake : Action.Keeps R (makeDirectories false p)) (hlink : d.NoLinks) :
    ∃ e, TakenFrom p d e ∧ R e (resetOutput p d).2 := by
  unfold resetOutput
  rw [Action.bind_apply, check]
  rcases hseek : d.seekAny p with problem | _ | _
  · refine ⟨d, .inl ⟨rfl, fun l hf => ?_⟩, refl d⟩
    rw [Disk.seekAny, Disk.seek, hf] at hseek
    cases hseek
  · refine ⟨d, .inl ⟨rfl, fun l hf => ?_⟩, hmake d⟩
    rw [Disk.seekAny, Disk.seek, hf] at hseek
    cases hseek
  · dsimp only
    rw [if_pos rfl, Action.bind_apply]
    have htaken := removeTree_taken (p := p) hlink
    rcases hr : removeTree p d with ⟨problem | _, e⟩ <;> rw [hr] at htaken
    · exact ⟨e, htaken, refl e⟩
    · exact ⟨e, htaken, hmake e⟩

namespace TakenFrom

theorem here (h : TakenFrom p d e) : e.here = d.here := by
  rcases h with ⟨rfl, _⟩ | ⟨_, _, rfl | rfl⟩ <;> rfl

theorem locate?_of_some (h : TakenFrom p d e) {entry : Entry} (he : e.locate? m = some entry) :
    d.locate? m = some entry := by
  rcases h with ⟨rfl, _⟩ | ⟨l, _, rfl | rfl⟩
  · exact he
  · rw [locate?_removeInside] at he
    split at he
    · cases he
    · exact he
  · exact Disk.locate?_of_removeBelow he

theorem noLinks (h : TakenFrom p d e) (hlink : d.NoLinks) : e.NoLinks := fun l target hl =>
  hlink l target (h.locate?_of_some hl)

theorem sound (h : TakenFrom p d e) (hs : d.Sound) : e.Sound := by
  refine ⟨?_, fun l entry hl => hs.names l entry (h.locate?_of_some hl), fun name hn => hs.here name (h.here ▸ hn)⟩
  rcases h with ⟨rfl, _⟩ | ⟨l, _, rfl | rfl⟩
  · exact hs.nodup
  · exact Table.nodup_keys_filter hs.nodup _
  · exact Table.nodup_keys_filter hs.nodup _

/-- **Only what is in the directory is taken.** -/
theorem outside (h : TakenFrom p d e) (hs : d.Sound) (hlink : d.NoLinks)
    (hm : ¬ Disk.locationAlong (d.start p) p.names <+: m) : e.locate? m = d.locate? m := by
  rcases h with ⟨rfl, _⟩ | ⟨l, hf, he⟩
  · rfl
  · obtain rfl := Disk.location_of_no_links hs hlink hf
    rcases he with rfl | rfl
    · rw [locate?_removeInside, if_neg fun hin => hm hin.1]
    · exact Disk.locate?_removeBelow_outside hm

end TakenFrom

/-! ## Directories on the way -/

/-- **The places that a path passes**, by its names alone. -/
def OnTheWay (p : Path) (base : Location) : Area := fun m =>
  ∃ front, front <+: p.names ∧ m = Disk.locationAlong base front

/-- **Directories made on the way to the end of a path.** -/
def MakesWay (p : Path) (d e : Disk) : Prop :=
  d.Sound → d.NoLinks → d.Grows .none e ∧ ∀ m, e.locate? m = d.locate? m ∨ OnTheWay p (d.start p) m

theorem MakesWay.refl (p : Path) (d : Disk) : MakesWay p d d := fun _ _ => ⟨.refl _ d, fun _ => .inl rfl⟩

theorem MakesWay.trans (p : Path) (d e f : Disk) (h : MakesWay p d e) (k : MakesWay p e f) : MakesWay p d f := by
  intro hs hlink
  obtain ⟨hg, hsame⟩ := h hs hlink
  obtain ⟨kg, ksame⟩ := k (hg.sound hs) (hlink.of_sameLinks hg.links)
  refine ⟨hg.trans kg, fun m => ?_⟩
  rcases ksame m with hm | hm
  · rw [hm]
    exact hsame m
  · exact .inr (hg.links.start p ▸ hm)

theorem makeDirectories_makesWay (hp : p.Proper) (reuse : Bool) :
    Action.Keeps (MakesWay p) (makeDirectories reuse p) := by
  refine makeParentsWithin_keeps (P := fun q => ∃ front, front <+: p.names ∧ q = { p with names := front })
    (.refl p) (.trans p) ?_ ?_ _ reuse ⟨p.names, List.prefix_rfl, rfl⟩
  · rintro q ⟨front, hfront, rfl⟩
    exact ⟨front.dropLast, (List.dropLast_prefix front).trans hfront, rfl⟩
  · rintro q ⟨front, hfront, rfl⟩ d hs hlink
    have hq : Path.Proper { p with names := front } := fun name hn => hp name (hfront.subset hn)
    have hg := makeDirectory_grows hq d
    refine ⟨hg, fun m => ?_⟩
    rcases hmade : makeDirectory { p with names := front } d with ⟨problem | _, e⟩
    · exact .inl (by rw [(makeDirectory_eq_error hmade).2])
    · rw [hmade] at hg
      obtain ⟨l, hfound, hnone, rfl⟩ := find_of_makeDirectory hq hmade
      have hl : l = Disk.locationAlong (d.start p) front := by
        rw [show d.start p = _ from (hg.links.start p).symm]
        exact Disk.location_of_no_links (hg.sound hs) (hlink.of_sameLinks hg.links) hfound
      by_cases hm : m = l
      · exact .inr ⟨front, hfront, hm.trans hl⟩
      · exact .inl (Disk.locate?_put_ne d _ hm)

/-- **Making the output folder ready** changes nothing outside of it but that directories appear on the way to it. -/
theorem prepare_outside {s : Settings} (hp : s.output.Proper) (hs : d.Sound) (hlink : d.NoLinks)
    (hm : ¬ d.settle s.output <+: m) :
    (s.prepare d).2.locate? m = d.locate? m ∨
      d.locate? m = none ∧ (s.prepare d).2.locate? m = some .directory ∧ OnTheWay s.output (d.start s.output) m := by
  have hway : ∃ e, e.Sound ∧ e.NoLinks ∧ e.here = d.here ∧ e.locate? m = d.locate? m ∧
      MakesWay s.output e (s.prepare d).2 := by
    unfold Settings.prepare
    split
    · obtain ⟨e, htaken, hmade⟩ :=
        resetOutput_taken (MakesWay.refl _) (makeDirectories_makesWay hp false) hlink
      rw [Disk.settle_of_no_links hlink _ (Disk.start_of_here hs.up_not_mem_here _)] at hm
      exact ⟨e, htaken.sound hs, htaken.noLinks hlink, htaken.here, htaken.outside hs hlink hm, hmade⟩
    · exact ⟨d, hs, hlink, rfl, rfl, makeDirectories_makesWay hp true d⟩
  obtain ⟨e, hes, helink, hhere, hem, hmade⟩ := hway
  obtain ⟨hg, hsame⟩ := hmade hes helink
  rcases hsame m with hm' | honway
  · exact .inl (hm'.trans hem)
  · rcases hg.outside m id with hm' | ⟨hnone, hdir⟩
    · exact .inl (hm'.trans hem)
    · refine .inr ⟨hem ▸ hnone, hdir, ?_⟩
      rwa [Disk.start, hhere] at honway

/-- **The output folder that is ready** stands where its path settled, on a disk without links. -/
theorem prepare_stands {s : Settings} (hp : s.output.Proper) (hs : d.Sound) (hlink : d.NoLinks)
    (h : s.prepare d = (.ok (), e)) : Stands s.output (d.settle s.output) e ∧ e.NoLinks := by
  obtain ⟨f, hsound, hlinks, _, _, hg⟩ := prepare_eq_ok hp h
  have hsame := (hlinks hs fun m target _ => hlink m target).trans hg.links
  have hes := hg.sound (hsound hs)
  have helink := hlink.of_sameLinks hsame
  obtain ⟨l, hl⟩ := find_of_prepare hp h
  obtain rfl : d.settle s.output = l := Disk.settle_of_find hsame.symm hes.up_not_mem_here hl
  exact ⟨⟨hes, hl, fun m target _ => helink m target⟩, helink⟩

/-! ## The whole run -/

/-- **A site that is built stays in the output folder**, as far as it is built. -/
theorem build_keeps_confined {s : Settings} (hp : s.output.Proper) (out : Location) (docs : Path)
    (static : Option Path) : Job.KeepsDisk (Confined s.output out) (s.build docs static) := by
  have hrefl := Confined.refl s.output out
  have htrans := Confined.trans s.output out
  unfold Settings.build
  refine Job.bind_keeps htrans (copyAssets_confined out hp static) fun images => ?_
  refine Job.bind_keeps htrans (Job.onDisk_keeps (check_keeps hrefl _)) fun detected => ?_
  refine Job.bind_keeps htrans (fun w => hrefl w.disk) fun _ => ?_
  refine Job.bind_keeps htrans ((kept_confined .standard out hp).assemble s.classifier docs) fun b => ?_
  refine Job.bind_keeps htrans (Job.bind_keeps htrans (Job.onDisk_keeps ?_) fun _ w => hrefl w.disk) fun _ => ?_
  · exact @write_confined _ out [manifestFile] hp (by simpa using isEntryName_manifestFile) _
  · exact Job.bind_keeps htrans (fun w => hrefl w.disk) fun _ w => hrefl w.disk

/-- **A run changes nothing outside of its output folder**, whether it returns or fails, but that directories which
were missing on the way to that folder may be there afterwards. -/
theorem run_changes_outside {s : Settings} {w : World} (hs : w.disk.Sound) (hlink : w.disk.NoLinks)
    (hp : s.output.Proper) (hm : ¬ w.disk.settle s.output <+: m) :
    (s.run w).2.disk.locate? m = w.disk.locate? m ∨ w.disk.locate? m = none ∧
      (s.run w).2.disk.locate? m = some .directory ∧ OnTheWay s.output (w.disk.start s.output) m := by
  rcases hf : s.folders w.disk with failure | ⟨docs, static⟩
  · exact .inl (by rw [run_of_no_docs hf])
  · have hready := prepare_outside hp hs hlink hm
    rw [run_eq hf]
    split
    · exact .inl rfl
    · exact .inl rfl
    · split
      · rename_i d hd
        rw [hd] at hready
        -- The output folder stands where its path settles, so what is built stays out of the place in question.
        obtain ⟨hstands, _⟩ := prepare_stands hp hs hlink hd
        have hbuilt := build_keeps_confined hp _ docs static { w.told docs with disk := d } hstands
        have hsame : ((s.build docs static { w.told docs with disk := d }).2).disk.locate? m = d.locate? m := by
          rw [← Disk.locate?_removeBelow_outside hm, hbuilt.2, Disk.locate?_removeBelow_outside hm]
        rw [hsame]
        exact hready
      · rename_i problem d hd
        rw [hd] at hready
        exact hready

theorem run_changes_outside_givenSite :
    ((givenSettings (.word "new/out")).run { disk := givenSite oldOutput }).2.disk.locate?
      ["docs".toList, "z.md".toList] = some (.file [0x7A]) := by
  have hsite := (givenSite_holds (.inr rfl)).plain
  rcases run_changes_outside (s := givenSettings (.word "new/out")) (w := { disk := givenSite oldOutput })
    (m := ["docs".toList, "z.md".toList]) hsite.sound hsite.noLinks (Path.ofText_proper _) (by decide) with
    hsame | ⟨hnone, _⟩
  · exact hsame.trans (by decide)
  · exact absurd hnone (by decide)

end DocFerry.Site
