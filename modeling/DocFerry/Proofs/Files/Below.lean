import DocFerry.Proofs.Files.Tree
/-!
# Disks that are the same below a folder

Two disks can be the same at and below a folder without links, whatever else they hold (`Disk.SameBelow`).  Every path
that goes on from the folder then leads to the same place on both, or fails for the same reason (`SameBelow.find`), so
the same is seen, read and listed there.
-/
namespace DocFerry.Files.Disk

variable {d d' : Disk} {p : Path} {l : Location} {names : List Text}

/-- **A walk that comes to a directory** goes on from there, with however many links it has left. -/
theorem walkLinks_append {k : Nat} {base : Location} {a : List Text} (h : Walks d k base a ⟨l, some .directory⟩) :
    ∃ j, ∀ b, d.walkLinks k base (a ++ b) = d.walkLinks j l b := by
  generalize hp : (⟨l, some .directory⟩ : Place) = place at h
  induction h with
  | @stay k =>
    cases hp
    exact ⟨k, fun _ => rfl⟩
  | up _ ih =>
    obtain ⟨j, hj⟩ := ih hp
    refine ⟨j, fun b => ?_⟩
    rw [← hj b, walkLinks_eq, List.cons_append, Disk.walk, if_pos rfl]
  | into hup hd _ ih =>
    obtain ⟨j, hj⟩ := ih hp
    refine ⟨j, fun b => ?_⟩
    rw [← hj b, walkLinks_eq, List.cons_append, Disk.walk, if_neg hup, hd]
  | follow hup ht _ ih =>
    obtain ⟨j, hj⟩ := ih hp
    refine ⟨j, fun b => ?_⟩
    rw [← hj b, walkLinks_eq, List.cons_append, Disk.walk, if_neg hup, ht, List.append_assoc]
    rfl
  | file => cases hp
  | absent => cases hp

/-- **A walk that meets no link** depends on nothing but what lies below the place where it starts. -/
theorem walk_congr (f f' : Location → Text → List Text → Except Problem Place) : ∀ {names : List Text} {base : Location},
    d.LinkFree base → (∀ m, base <+: m → d'.locate? m = d.locate? m) → Path.up ∉ names →
    d'.walk f' base names = d.walk f base names
  | [], _, _, _, _ => by rw [walk, walk]
  | name :: rest, base, hfree, hsame, hup => by
    obtain ⟨hname, hrest⟩ := not_or.1 (List.mem_cons.not.1 hup)
    have hbelow : base <+: base ++ [name] := List.prefix_append _ _
    have ih := walk_congr f f' (hfree.below hbelow) (fun m hm => hsame m (hbelow.trans hm)) hrest
    rw [walk, walk, if_neg (Ne.symm hname), if_neg (Ne.symm hname), hsame _ hbelow]
    rcases he : d.locate? (base ++ [name]) with _ | _ | _ | target
    · rfl
    · rfl
    · exact ih
    · exact absurd he (hfree _ target hbelow)

/-- **Two disks that are the same at and below a folder**, to which a path leads on both. -/
structure SameBelow (p : Path) (l : Location) (d d' : Disk) : Prop where
  sound : d.Sound
  sound' : d'.Sound
  found : d.find p = .ok ⟨l, some .directory⟩
  found' : d'.find p = .ok ⟨l, some .directory⟩
  free : d.LinkFree l
  same : ∀ m, l <+: m → d'.locate? m = d.locate? m

namespace SameBelow

variable (h : SameBelow p l d d') (hup : Path.up ∉ names)

include h

theorem namesAt_perm {m : Location} (hm : l <+: m) : (d'.namesAt m).Perm (d.namesAt m) := by
  rw [List.perm_ext_iff_of_nodup (nodup_namesAt h.sound'.nodup m) (nodup_namesAt h.sound.nodup m)]
  intro name
  rw [mem_namesAt, mem_namesAt, h.same _ (hm.trans (List.prefix_append _ _))]

include hup

/-- **A path that goes on from the folder** leads to the same place on both disks, or fails for the same reason. -/
theorem find : d'.find (p.descend names) = d.find (p.descend names) := by
  unfold Disk.find
  split
  · rfl
  · obtain ⟨j, hj⟩ := walkLinks_append (walks_of_find h.found).2
    obtain ⟨j', hj'⟩ := walkLinks_append (walks_of_find h.found').2
    show d'.walkLinks maxLinks (d'.start p) (p.names ++ names) = d.walkLinks maxLinks (d.start p) (p.names ++ names)
    rw [hj, hj', walkLinks_eq, walkLinks_eq]
    exact walk_congr _ _ h.free h.same hup

theorem seek : d'.seek (p.descend names) = d.seek (p.descend names) := by rw [Disk.seek, Disk.seek, h.find hup]

theorem seekDirectory : d'.seekDirectory (p.descend names) = d.seekDirectory (p.descend names) := by
  rw [Disk.seekDirectory, Disk.seekDirectory, h.seek hup]

theorem seekFile : d'.seekFile (p.descend names) = d.seekFile (p.descend names) := by
  rw [Disk.seekFile, Disk.seekFile, h.seek hup]

theorem read : d'.read (p.descend names) = d.read (p.descend names) := by rw [Disk.read, Disk.read, h.find hup]

theorem isDirectory : d'.isDirectory (p.descend names) = d.isDirectory (p.descend names) := by
  rw [Disk.isDirectory, Disk.isDirectory, at?, at?, h.find hup]

theorem hasFile_iff : d'.HasFile (p.descend names) ↔ d.HasFile (p.descend names) := by
  rw [HasFile, HasFile, h.find hup]

/-- **What the folder below holds** has the same names on both disks, in some order. -/
theorem list {found : List Text} (hlist : d'.list (p.descend names) = .ok found) :
    ∃ names', d.list (p.descend names) = .ok names' ∧ found.Perm names' := by
  obtain ⟨m, hf, rfl⟩ := list_eq_ok hlist
  have hfound := h.find hup ▸ hf
  refine ⟨d.namesAt m, by rw [Disk.list, hfound], h.namesAt_perm ?_⟩
  have hsettle := settle_of_find (.refl d) h.sound.up_not_mem_here h.found
  have hlocation := location_of_find_descend h.sound (.refl d) (by rw [hsettle]; exact h.free) hup hfound
  rw [hsettle] at hlocation
  exact ⟨names, hlocation.symm⟩

end SameBelow
end DocFerry.Files.Disk
