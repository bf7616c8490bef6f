import DocFerry.Proofs.Files.Plain
/-!
# Changes that stay in a folder

What is made or written below a folder without links changes nothing but what is at or below that folder
(`makeDirectories_confined`, `write_confined`, `copyTree_confined`): once all of that is taken away, the same disk is
left.
-/
namespace DocFerry.Files

open Text.Utf8 (Octets)

/-- **A folder that stands on a disk in order**, without links in it. -/
structure Stands (p : Path) (l : Location) (d : Disk) : Prop where
  sound : d.Sound
  found : d.find p = .ok ⟨l, some .directory⟩
  free : d.LinkFree l

/-- **A change that stays in a folder**: the disk grows, and once what is at or below the folder is taken away, nothing
has changed. -/
def Confined (p : Path) (l : Location) (d d' : Disk) : Prop :=
  Stands p l d → d.Grows (fun _ => True) d' ∧ d'.removeBelow l = d.removeBelow l

variable {p : Path} {l m : Location} {d d' : Disk} {names : List Text}

theorem Stands.grown (h : Stands p l d) {area : Area} (hg : d.Grows area d') : Stands p l d' := by
  obtain ⟨e, hf, he⟩ := hg.find h.found
  cases e with
  | directory => exact ⟨hg.sound h.sound, hf, hg.links.linkFree h.free⟩
  | file => exact he.elim
  | link => exact he.elim

theorem Confined.refl (p : Path) (l : Location) (d : Disk) : Confined p l d d := fun _ => ⟨.refl _ d, rfl⟩

theorem Confined.trans (p : Path) (l : Location) (d e f : Disk) (h : Confined p l d e) (k : Confined p l e f) :
    Confined p l d f := by
  intro hs
  obtain ⟨hg, he⟩ := h hs
  obtain ⟨kg, ke⟩ := k (hs.grown hg)
  exact ⟨hg.trans kg, ke.trans he⟩

/-- **Where a path below the folder leads.** -/
theorem Stands.location (h : Stands p l d) (hn : ∀ name ∈ names, IsEntryName name) {place : Place}
    (hf : d.find (p.descend names) = .ok place) : place.location = l ++ names := by
  have hsettle := Disk.settle_of_find (.refl d) h.sound.up_not_mem_here h.found
  have hloc := Disk.location_of_find_descend h.sound (.refl d) (by rw [hsettle]; exact h.free) (not_mem_up hn) hf
  rwa [hsettle] at hloc

/-! ## Directories -/

section Parent

variable {name : Text} {e : Entry}

theorem parent_child_of_getLast? (hlast : p.names.getLast? = some name) : p.parent.child name = p := by
  obtain ⟨front, hp⟩ := List.getLast?_eq_some_iff.1 hlast
  obtain ⟨start, names⟩ := p
  obtain rfl : names = front ++ [name] := hp
  simp [Path.parent, Path.child]

/-- **A place that is there is not made**, and nothing is missing on the way to it. -/
theorem withDirectory_of_found (h : d.find p = .ok ⟨l, some e⟩) :
    (∀ d', d.withDirectory p ≠ .ok d') ∧ d.withDirectory p ≠ .error .missing := by
  obtain ⟨hr, hw⟩ := Disk.walks_of_find h
  constructor
  · intro d' hd
    obtain ⟨m, name, _, hlast, hup, hparent, hnone, rfl⟩ := Disk.withDirectory_eq_ok hd
    rw [← parent_child_of_getLast? hlast] at h
    have hplace := Disk.place_of_find_child hparent hup (by simp [hnone]) h
    rw [hnone] at hplace
    cases hplace
  · unfold Disk.withDirectory
    rw [hr]
    cases hlast : p.names.getLast? with
    | none => simp
    | some name =>
      dsimp only
      split
      · simp [h]
      · rename_i hup
        obtain ⟨front, hp⟩ := List.getLast?_eq_some_iff.1 hlast
        rw [hp] at hw
        obtain ⟨_, m, _, hfront, _⟩ := hw.split (by simp)
        have hnames : p.parent.names = front := by rw [Path.parent, hp, List.dropLast_concat]
        cases hrefused : refusal? p.parent with
        | some refused =>
          rw [Disk.find, hrefused]
          rcases Disk.refusal?_eq_some hrefused with rfl | rfl <;> simp
        | none =>
          have hwalk : Walks d Disk.maxLinks (d.start p.parent) p.parent.names ⟨m, some .directory⟩ := by
            rw [hnames]
            exact hfront
          have hparent := Disk.find_of_walks hrefused (Nat.le_refl _) hwalk
          rw [hparent]
          dsimp only
          split
          · simp
          · split <;> simp

/-- **A directory that is there** need not be made. -/
theorem makeDirectories_of_found (h : d.find p = .ok ⟨l, some .directory⟩) : makeDirectories true p d = (.ok (), d) := by
  obtain ⟨hnone, hmissing⟩ := withDirectory_of_found h
  have hthere : d.seekDirectory p = .ok true := by
    rw [Disk.seekDirectory, Disk.seek, h]
    rfl
  unfold makeDirectories makeParentsWithin
  rw [Action.tryCatch_apply, makeDirectory_eq]
  cases hmade : d.withDirectory p with
  | ok e => exact absurd hmade (hnone e)
  | error problem =>
    have hother : problem ≠ .missing := fun hp => hmissing (hp ▸ hmade)
    dsimp only
    rw [if_neg hother, Action.bind_apply, check, hthere]
    rfl

end Parent

theorem makeDirectory_confined (hp : p.Proper) (hn : ∀ name ∈ names, IsEntryName name) :
    Action.Keeps (Confined p l) (makeDirectory (p.descend names)) := by
  intro d hs
  refine ⟨(makeDirectory_grows (proper_descend hp hn) d).wide, ?_⟩
  rw [makeDirectory_eq]
  split
  · rename_i d' hd
    rcases List.eq_nil_or_concat names with rfl | ⟨front, last, rfl⟩
    · rw [Path.descend_nil] at hd
      exact absurd hd ((withDirectory_of_found hs.found).1 d')
    · rw [List.concat_eq_append] at hd hn
      obtain ⟨m, name, _, hlast, _, hparent, _, rfl⟩ := Disk.withDirectory_eq_ok hd
      have hp : (p.descend (front ++ [last])).parent = p.descend front := by
        rw [← Path.child_descend, Path.parent_child]
      rw [hp] at hparent
      have hm := hs.location (fun name hm => hn name (List.mem_append_left _ hm)) hparent
      refine Disk.removeBelow_put d ?_ _
      rw [show m = l ++ front from hm, List.append_assoc]
      exact List.prefix_append _ _
  · rfl

theorem ensureDirectory_confined (hp : p.Proper) (hn : ∀ name ∈ names, IsEntryName name) :
    Action.Keeps (Confined p l) (ensureDirectory (p.descend names)) :=
  ensureDirectory_keeps (.refl p l) (Confined.trans p l) (makeDirectory_confined hp hn)

/-- **What directories made below a folder that stands keep**: none is missing above it, so what is kept by the making
of each of them from there on. -/
theorem makeParentsWithin_keepsBelow {R : Disk → Disk → Prop} (refl : ∀ d, R d d)
    (trans : ∀ d e f, R d e → R e f → R d f) (stands : ∀ d d', (Stands p l d → R d d') → R d d') :
    ∀ (parents : Nat) (reuse : Bool) {names : List Text},
    (∀ front, front <+: names → Action.Keeps R (makeDirectory (p.descend front))) →
    Action.Keeps R (makeParentsWithin parents reuse (p.descend names))
  | parents, reuse, names, hmake, d => by
    have hmade := hmake names List.prefix_rfl
    refine stands _ _ fun hs => ?_
    unfold makeParentsWithin
    rw [Action.tryCatch_apply]
    have hd := hmade d
    split
    · rename_i e hm
      rwa [hm] at hd
    · rename_i problem e hm
      obtain ⟨hfailed, rfl⟩ := makeDirectory_eq_error hm
      split
      · rename_i hmissing
        cases parents with
        | zero => exact refl e
        | succ parents =>
          rcases List.eq_nil_or_concat names with rfl | ⟨front, last, rfl⟩
          · rw [Path.descend_nil] at hfailed
            exact absurd (hmissing ▸ hfailed) (withDirectory_of_found hs.found).2
          · rw [List.concat_eq_append] at hmake hmade ⊢
            have hparent : (p.descend (front ++ [last])).parent = p.descend front := by
              rw [← Path.child_descend, Path.parent_child]
            rw [hparent]
            refine Action.Keeps.bind trans (makeParentsWithin_keepsBelow refl trans stands parents true
              fun more hm => hmake more (hm.trans (List.prefix_append _ _))) (fun _ => ?_) e
            split
            · exact ensureDirectory_keeps refl trans hmade
            · exact hmade
      · refine Action.Keeps.bind trans (check_keeps refl _) (fun found => ?_) e
        split
        · exact Action.Keeps.throw refl _
        · exact Action.Keeps.pure refl _

/-- **Directories made below a folder that stands** stay in it. -/
theorem makeParentsWithin_confined (hp : p.Proper) (parents : Nat) (reuse : Bool)
    (hn : ∀ name ∈ names, IsEntryName name) :
    Action.Keeps (Confined p l) (makeParentsWithin parents reuse (p.descend names)) :=
  makeParentsWithin_keepsBelow (.refl p l) (Confined.trans p l) (fun _ _ h hs => h hs hs) parents reuse
    fun _ hfront => makeDirectory_confined hp fun name hm => hn name (hfront.subset hm)

theorem makeDirectories_confined (hp : p.Proper) (reuse : Bool) (hn : ∀ name ∈ names, IsEntryName name) :
    Action.Keeps (Confined p l) (makeDirectories reuse (p.descend names)) := makeParentsWithin_confined hp _ reuse hn

/-! ## Files -/

theorem write_confined (hp : p.Proper) (hn : ∀ name ∈ names, IsEntryName name) (bytes : Octets) :
    Action.Keeps (Confined p l) (write (p.descend names) bytes) := by
  intro d hs
  have hg : d.Grows (fun _ => True) (write (p.descend names) bytes d).2 :=
    (write_wrote (proper_descend hp hn) bytes d hs.sound).mono fun _ _ => trivial
  refine ⟨hg, ?_⟩
  rw [write_eq]
  split
  · rename_i d' hd
    obtain ⟨place, hf, _, rfl⟩ := Disk.withFile_eq_ok hd
    refine Disk.removeBelow_put d ?_ _
    rw [hs.location hn hf]
    exact List.prefix_append _ _
  · rfl

/-- **What the copy of a file keeps**: what is kept by the writing of the target, or of the entry of its name there. -/
theorem copyFile_keeps {R : Disk → Disk → Prop} (refl : ∀ d, R d d) (trans : ∀ d e f, R d e → R e f → R d f)
    {source target : Path}
    (hwrite : ∀ q bytes, q = target ∨ q = target.child source.name → Action.Keeps R (write q bytes)) :
    Action.Keeps R (copyFile source target) := by
  unfold copyFile
  refine Action.Keeps.bind trans (Action.Keeps.get refl) fun d => ?_
  have hread : ∀ q, q = target ∨ q = target.child source.name →
      Action.Keeps R (do write q (← check (·.read source))) := fun q hq =>
    Action.Keeps.bind trans (check_keeps refl _) fun bytes => hwrite q bytes hq
  have htarget : (if d.isDirectory target then target.child source.name else target) = target ∨
      (if d.isDirectory target then target.child source.name else target) = target.child source.name := by
    split
    · exact .inr rfl
    · exact .inl rfl
  dsimp only
  split
  · split
    · exact Action.Keeps.bind trans (Action.Keeps.throw refl _) fun _ => hread _ htarget
    · exact hread _ htarget
  · exact hread _ htarget

theorem copyFile_confined (hp : p.Proper) (hn : ∀ name ∈ names, IsEntryName name) {source : Path}
    (hs : IsEntryName source.name) : Action.Keeps (Confined p l) (copyFile source (p.descend names)) := by
  refine copyFile_keeps (.refl p l) (Confined.trans p l) fun q bytes hq => ?_
  rcases hq with rfl | rfl
  · exact write_confined hp hn bytes
  · rw [Path.child_descend]
    refine write_confined hp (fun name hm => ?_) bytes
    rcases List.mem_append.1 hm with hm | hm
    · exact hn name hm
    · exact List.mem_singleton.1 hm ▸ hs

theorem copyTree_confined (hp : p.Proper) (hn : ∀ name ∈ names, IsEntryName name) (source : Path) :
    Action.Keeps (Confined p l) (copyTree source (p.descend names)) := by
  have hmore : ∀ more : List Text, (p.descend names).descend more = p.descend (names ++ more) := fun more => by
    simp [Path.descend]
  have hall : ∀ more : List Text, (∀ name ∈ more, IsEntryName name) → ∀ name ∈ names ++ more, IsEntryName name :=
    fun more hm name h => (List.mem_append.1 h).elim (hn name) (hm name)
  refine copyTree_keeps (.refl p l) (Confined.trans p l) (fun _ _ h hs => h hs.sound hs) (fun more hm => ?_)
    fun more hne hm => ?_
  · rw [hmore]
    exact ensureDirectory_confined hp (hall more hm)
  · rw [hmore]
    refine copyFile_confined hp (hall more hm) ?_
    exact source.name_descend hne ▸ hm _ (List.getLast_mem hne)

end DocFerry.Files
