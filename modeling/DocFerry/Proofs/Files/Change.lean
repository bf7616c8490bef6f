import DocFerry.Proofs.Files.Growth
/-!
# What the changes of a disk do to it

Making directories grows a disk with no area at all (`makeDirectories_grows`).  Writing, copying a file and
copying a tree grow it where the paths that they write to lead in the end (`write_wrote`, `copyFile_wrote`,
`copyTree_wrote`).  Below a directory without links a path leads where its names say (`location_of_find_descend`), so
there what is written is at or below that directory (`Wrote.below`).
-/
namespace DocFerry.Files

open Text.Utf8 (Octets)

namespace Disk

theorem mem_namesAt {d : Disk} {l : Location} {name : Text} :
    name ∈ d.namesAt l ↔ ∃ e, d.locate? (l ++ [name]) = some e := by
  have hne : l ++ [name] ≠ [] := by simp
  have hlast : ∀ m : Location, m.dropLast = l ∧ m.getLast? = some name ↔ m = l ++ [name] := by
    intro m
    constructor
    · rintro ⟨rfl, hm⟩
      obtain ⟨ys, rfl⟩ := List.getLast?_eq_some_iff.1 hm
      simp
    · rintro rfl
      simp
  have hkey : name ∈ d.namesAt l ↔ l ++ [name] ∈ Table.keys d.entries := by
    simp only [namesAt, List.mem_filterMap, Table.keys, List.mem_map]
    constructor
    · rintro ⟨e, he, hn⟩
      split at hn
      · rename_i hd
        exact ⟨e, he, (hlast _).1 ⟨hd, hn⟩⟩
      · cases hn
    · rintro ⟨e, he, hn⟩
      exact ⟨e, he, by simp [hn]⟩
  rw [hkey]
  simp only [locate?, if_neg hne]
  constructor
  · exact Table.get?_ne_none_of_mem_keys
  · rintro ⟨e, h⟩
    exact Table.mem_keys_of_get? h

theorem Sound.entryName {d : Disk} (h : d.Sound) {l : Location} {name : Text} (hn : name ∈ d.namesAt l) :
    IsEntryName name := by
  obtain ⟨e, he⟩ := mem_namesAt.1 hn
  exact h.names _ _ he name (by simp)

/-- **The names of a directory**, when they can be listed. -/
theorem list_eq_ok {d : Disk} {p : Path} {names : List Text} (h : d.list p = .ok names) :
    ∃ l, d.find p = .ok ⟨l, some .directory⟩ ∧ names = d.namesAt l := by
  unfold list at h
  split at h
  · rename_i l hf
    cases h
    exact ⟨l, hf, rfl⟩
  all_goals cases h

/-- **What is seen somewhere is found there.** -/
theorem find_of_seek {d : Disk} {p : Path} {e : Entry} (h : d.seek p = .ok (some e)) :
    ∃ place, d.find p = .ok place ∧ place.entry = some e := by
  unfold seek at h
  split at h
  · rename_i place hf
    exact ⟨place, hf, Except.ok.inj h⟩
  · cases h
  · cases h

theorem withDirectory_eq_ok {d d' : Disk} {p : Path} (h : d.withDirectory p = .ok d') :
    ∃ l name, refusal? p = none ∧ p.names.getLast? = some name ∧ name ≠ Path.up ∧
      d.find p.parent = .ok ⟨l, some .directory⟩ ∧ d.locate? (l ++ [name]) = none ∧
      d' = d.put (l ++ [name]) .directory := by
  unfold withDirectory at h
  split at h
  · cases h
  · cases h
  · rename_i name hr hn
    split at h
    · split at h <;> cases h
    · rename_i hup
      split at h
      · rename_i l hf
        split at h
        · cases h
        · rename_i hsome
          split at h
          · cases h
          · cases h
            exact ⟨l, name, hr, hn, hup, hf, by simpa using hsome, rfl⟩
      all_goals cases h

theorem withFile_eq_ok {d d' : Disk} {p : Path} {bytes : Octets} (h : d.withFile p bytes = .ok d') :
    ∃ place, d.find p = .ok place ∧ place.entry ≠ some .directory ∧ d' = d.put place.location (.file bytes) := by
  unfold withFile at h
  split at h
  · cases h
  · rename_i l e hne hf
    cases h
    exact ⟨⟨l, e⟩, hf, hne, rfl⟩
  · cases h

end Disk

/-! ## Directories -/

theorem makeDirectory_eq_ok {p : Path} {d d' : Disk} (h : makeDirectory p d = (.ok (), d')) :
    d.withDirectory p = .ok d' := by
  rw [makeDirectory_eq] at h
  split at h
  · rename_i hd
    cases h
    exact hd
  · cases h

theorem makeDirectory_grows {p : Path} (hp : p.Proper) : Action.Keeps (Disk.Grows .none) (makeDirectory p) := by
  intro d
  rw [makeDirectory_eq]
  split
  · rename_i d' hd
    obtain ⟨l, name, _, hlast, hup, hf, hn, rfl⟩ := Disk.withDirectory_eq_ok hd
    refine Disk.grows_put (by simp) (fun hs n hm => ?_) (by simp) (by simp [hn]) (.inr ⟨hn, rfl⟩)
    rcases List.mem_append.1 hm with hm | hm
    · exact hs.entryNames_of_find hp.parent hf n hm
    · rw [List.mem_singleton.1 hm]
      exact ⟨hp name (List.mem_of_getLast? hlast), hup⟩
  · exact .refl _ _

theorem check_eq_ok {α : Type} {f : Disk → Except Problem α} {a : α} {d d' : Disk} :
    check f d = (.ok a, d') ↔ f d = .ok a ∧ d' = d := by
  simp [check, eq_comm]

theorem check_keeps {R : Disk → Disk → Prop} (refl : ∀ d, R d d) {α : Type} (f : Disk → Except Problem α) :
    Action.Keeps R (check f) := refl

theorem makeDirectory_eq_error {p : Path} {problem : Problem} {d d' : Disk}
    (h : makeDirectory p d = (.error problem, d')) : d.withDirectory p = .error problem ∧ d' = d := by
  rw [makeDirectory_eq] at h
  split at h
  · cases h
  · rename_i hd
    cases h
    exact ⟨hd, rfl⟩

section Keeps

variable {R : Disk → Disk → Prop}

theorem ensureDirectory_keeps (refl : ∀ d, R d d) (trans : ∀ d e f, R d e → R e f → R d f) {p : Path}
    (hmake : Action.Keeps R (makeDirectory p)) : Action.Keeps R (ensureDirectory p) := by
  refine Action.Keeps.tryCatch trans hmake fun problem => ?_
  refine Action.Keeps.bind trans (check_keeps refl _) fun found => ?_
  split
  · exact Action.Keeps.throw refl _
  · exact Action.Keeps.pure refl _

/-- **What the making of a directory with its parents keeps**: what is kept by the making of each of them. -/
theorem makeParentsWithin_keeps (refl : ∀ d, R d d) (trans : ∀ d e f, R d e → R e f → R d f) {P : Path → Prop}
    (hparent : ∀ q, P q → P q.parent) (hmake : ∀ q, P q → Action.Keeps R (makeDirectory q)) :
    ∀ (parents : Nat) (reuse : Bool) {p : Path}, P p → Action.Keeps R (makeParentsWithin parents reuse p)
  | parents, reuse, p, hp => by
    unfold makeParentsWithin
    refine Action.Keeps.tryCatch trans (hmake p hp) fun problem => ?_
    split
    · cases parents with
      | zero => exact Action.Keeps.throw refl _
      | succ parents =>
        refine Action.Keeps.bind trans
          (makeParentsWithin_keeps refl trans hparent hmake parents true (hparent p hp)) fun _ => ?_
        split
        · exact ensureDirectory_keeps refl trans (hmake p hp)
        · exact hmake p hp
    · refine Action.Keeps.bind trans (check_keeps refl _) fun found => ?_
      split
      · exact Action.Keeps.throw refl _
      · exact Action.Keeps.pure refl _

/-- **A directory that must be new is made last**, where nothing was. -/
theorem makeDirectories_fresh (refl : ∀ d, R d d) {p : Path}
    (hparents : ∀ parents, Action.Keeps R (makeParentsWithin parents true p.parent)) {d d' : Disk}
    (h : makeDirectories false p d = (.ok (), d')) : ∃ e, R d e ∧ makeDirectory p e = (.ok (), d') := by
  unfold makeDirectories at h
  generalize p.names.length = parents at h
  unfold makeParentsWithin at h
  rw [Action.tryCatch_apply] at h
  split at h
  · rename_i t hm
    cases h
    exact ⟨d, refl d, hm⟩
  · rename_i problem t hm
    obtain ⟨_, rfl⟩ := makeDirectory_eq_error hm
    split at h
    · cases parents with
      | zero => cases h
      | succ parents =>
        obtain ⟨_, u, hu, hlast⟩ := Action.bind_eq_ok_iff.1 h
        have hk := hparents parents t
        rw [hu] at hk
        exact ⟨u, hk, hlast⟩
    · obtain ⟨_, u, _, hlast⟩ := Action.bind_eq_ok_iff.1 h
      cases hlast

end Keeps

theorem ensureDirectory_grows {p : Path} (hp : p.Proper) : Action.Keeps (Disk.Grows .none) (ensureDirectory p) :=
  ensureDirectory_keeps (.refl _) (fun _ _ _ => .trans) (makeDirectory_grows hp)

theorem makeParentsWithin_grows (parents : Nat) (reuse : Bool) {p : Path} (hp : p.Proper) :
    Action.Keeps (Disk.Grows .none) (makeParentsWithin parents reuse p) :=
  makeParentsWithin_keeps (P := Path.Proper) (.refl _) (fun _ _ _ => .trans) (fun _ => Path.Proper.parent)
    (fun _ => makeDirectory_grows) parents reuse hp

/-- **Making directories grows a disk with no area at all.** -/
theorem makeDirectories_grows (reuse : Bool) {p : Path} (hp : p.Proper) :
    Action.Keeps (Disk.Grows .none) (makeDirectories reuse p) := makeParentsWithin_grows _ reuse hp

/-- **A directory that is made is found**, where nothing was. -/
theorem find_of_makeDirectory {p : Path} (hp : p.Proper) {d d' : Disk} (h : makeDirectory p d = (.ok (), d')) :
    ∃ l, d'.find p = .ok ⟨l, some .directory⟩ ∧ d.locate? l = none ∧ d' = d.put l .directory := by
  have hg := makeDirectory_grows hp d
  rw [h] at hg
  obtain ⟨l, name, hr, hlast, hup, hf, hnone, rfl⟩ := Disk.withDirectory_eq_ok (makeDirectory_eq_ok h)
  obtain ⟨e, hw, he⟩ := hg.walks (Disk.walks_of_find hf).2
  cases e with
  | file => exact he.elim
  | link => exact he.elim
  | directory =>
    have hinto : Walks (d.put (l ++ [name]) .directory) 0 l [name] ⟨l ++ [name], some .directory⟩ :=
      .into hup (by rw [Disk.locate?_put d (by simp), if_pos rfl]) .stay
    have hnames : p.parent.names ++ [name] = p.names := by
      obtain ⟨rest, hrest⟩ := List.getLast?_eq_some_iff.1 hlast
      rw [Path.parent, hrest, List.dropLast_concat]
    have hwalk := hw.trans hinto
    rw [hnames] at hwalk
    refine ⟨l ++ [name], ?_, hnone, rfl⟩
    unfold Disk.find
    rw [hr]
    show Disk.walkLinks _ _ (Disk.start _ p) p.names = _
    rw [hg.links.start]
    exact hwalk.walkLinks

theorem find_of_seekDirectory {p : Path} {d : Disk} (h : d.seekDirectory p = .ok true) :
    ∃ l, d.find p = .ok ⟨l, some .directory⟩ := by
  obtain ⟨found, hs, hfound⟩ := map_eq_ok h
  obtain ⟨⟨l, e⟩, hf, he⟩ := Disk.find_of_seek (beq_iff_eq.1 hfound ▸ hs)
  exact ⟨l, he ▸ hf⟩

theorem find_of_ensureDirectory {p : Path} (hp : p.Proper) {d d' : Disk} (h : ensureDirectory p d = (.ok (), d')) :
    ∃ l, d'.find p = .ok ⟨l, some .directory⟩ := by
  unfold ensureDirectory at h
  rw [Action.tryCatch_apply] at h
  split at h
  · rename_i t hm
    cases h
    obtain ⟨l, hl, _⟩ := find_of_makeDirectory hp hm
    exact ⟨l, hl⟩
  · rename_i problem t hm
    obtain ⟨found, u, hfound, hlast⟩ := Action.bind_eq_ok_iff.1 h
    obtain ⟨hfound, rfl⟩ := check_eq_ok.1 hfound
    split at hlast
    · cases hlast
    · rename_i hthere
      obtain ⟨_, rfl⟩ := Action.pure_eq_ok_iff.1 hlast
      simp only [not_or, Bool.not_eq_true', Bool.not_eq_false] at hthere
      exact find_of_seekDirectory (hthere.2 ▸ hfound)

/-- **A directory that is made, or was there, is found.** -/
theorem find_of_makeDirectories {p : Path} (hp : p.Proper) {d d' : Disk}
    (h : makeDirectories true p d = (.ok (), d')) : ∃ l, d'.find p = .ok ⟨l, some .directory⟩ := by
  unfold makeDirectories at h
  generalize p.names.length = parents at h
  unfold makeParentsWithin at h
  rw [Action.tryCatch_apply] at h
  split at h
  · rename_i t hm
    cases h
    obtain ⟨l, hl, _⟩ := find_of_makeDirectory hp hm
    exact ⟨l, hl⟩
  · rename_i problem t hm
    split at h
    · cases parents with
      | zero => cases h
      | succ parents =>
        obtain ⟨_, u, _, hlast⟩ := Action.bind_eq_ok_iff.1 h
        exact find_of_ensureDirectory hp hlast
    · obtain ⟨found, u, hfound, hlast⟩ := Action.bind_eq_ok_iff.1 h
      obtain ⟨hfound, rfl⟩ := check_eq_ok.1 hfound
      split at hlast
      · cases hlast
      · rename_i hthere
        obtain ⟨_, rfl⟩ := Action.pure_eq_ok_iff.1 hlast
        have hfound : u.seekDirectory p = .ok true := by
          rw [hfound]
          simpa using hthere
        exact find_of_seekDirectory hfound

/-! ## Files that are written -/

namespace Disk

/-- **A file put where a walk ends** is what the walk then finds. -/
theorem walks_put_file {d : Disk} {k : Nat} {base : Location} {names : List Text} {place : Place}
    (h : Walks d k base names place) (hd : place.entry ≠ some .directory) (bytes : Octets) :
    Walks (d.put place.location (.file bytes)) k base names ⟨place.location, some (.file bytes)⟩ := by
  obtain ⟨hroot, hat⟩ := h.entry_of_ne_directory hd
  have hlink := h.entry_ne_link
  have hput := locate?_put d hroot (.file bytes)
  -- A directory or a link that the walk passes is not where it ends, so it is still there.
  have hkept : ∀ {m : Location} {e : Entry}, d.locate? m = some e → e ≠ place.entry →
      (d.put place.location (.file bytes)).locate? m = some e := by
    intro m e hm he
    rw [hput, if_neg, hm]
    rintro rfl
    exact he (hm.symm.trans hat)
  generalize d.put place.location (.file bytes) = d' at hput hkept
  induction h with
  | stay => exact absurd rfl hd
  | up _ ih => exact .up (ih hd hroot hat hlink hput hkept)
  | into hup hm _ ih => exact .into hup (hkept hm fun h => hd h.symm) (ih hd hroot hat hlink hput hkept)
  | follow hup hm _ ih =>
    exact .follow hup (hkept hm fun h => hlink _ h.symm) (ih hd hroot hat hlink hput hkept)
  | file hup => exact .file hup (by rw [hput, if_pos rfl])
  | absent hup => exact .file hup (by rw [hput, if_pos rfl])

/-- **A file that is written is found** with its octets. -/
theorem find_of_withFile {d d' : Disk} {p : Path} {bytes : Octets} (h : d.withFile p bytes = .ok d') :
    ∃ place, d.find p = .ok place ∧ d'.find p = .ok ⟨place.location, some (.file bytes)⟩ := by
  obtain ⟨place, hf, hne, rfl⟩ := withFile_eq_ok h
  obtain ⟨hr, hw⟩ := walks_of_find hf
  obtain ⟨hroot, _⟩ := hw.entry_of_ne_directory hne
  refine ⟨place, hf, ?_⟩
  have hwalk := walks_put_file hw hne bytes
  have hstart : (d.put place.location (.file bytes)).start p = d.start p := by
    simp [start, (entries_put d hroot (.file bytes)).2]
  unfold find
  rw [hr, hstart]
  exact hwalk.walkLinks

/-- **What a change writes**: a disk in order grows where the paths that a condition picks lead in the end, and each
of those places then holds a file.  The condition may look at the disk. -/
def Wrote (P : Disk → Path → Prop) (d d' : Disk) : Prop :=
  d.Sound → d.Grows (fun l => ∃ p bytes, P d' p ∧ d'.find p = .ok ⟨l, some (.file bytes)⟩) d'

/-- **A condition that stays true while a disk grows.** -/
def Stable (P : Disk → Path → Prop) : Prop := ∀ area d e p, Grows area d e → P d p → P e p

variable {P Q : Disk → Path → Prop}

theorem stable_const (R : Path → Prop) : Stable fun _ => R := fun _ _ _ _ _ h => h

theorem Wrote.refl (P : Disk → Path → Prop) (d : Disk) : d.Wrote P d := fun _ => .refl _ _

theorem Wrote.trans (hP : Stable P) (d e f : Disk) (h : d.Wrote P e) (k : e.Wrote P f) : d.Wrote P f := by
  intro hs
  have hg := h hs
  have hk := k (hg.sound hs)
  -- Where a path led between the two changes, it still leads after the second one.
  refine (hg.mono fun l ⟨p, bytes, hp, hf⟩ => ?_).trans hk
  obtain ⟨e', hf', he⟩ := hk.find hf
  cases e' with
  | file bytes' => exact ⟨p, bytes', hP _ _ _ _ hk hp, hf'⟩
  | directory => exact he.elim
  | link => exact he.elim

theorem Wrote.mono {d d' : Disk} (h : d.Wrote P d') (hp : ∀ p, P d' p → Q d' p) : d.Wrote Q d' := fun hs =>
  (h hs).mono fun _ ⟨p, bytes, hm, hf⟩ => ⟨p, bytes, hp p hm, hf⟩

theorem Grows.wrote {d d' : Disk} (h : d.Grows .none d') : d.Wrote P d' := fun _ => h.wide

/-- **A file is there.** -/
def HasFile (d : Disk) (p : Path) : Prop := ∃ l bytes, d.find p = .ok ⟨l, some (.file bytes)⟩

theorem stable_hasFile {area : Area} {d e : Disk} {p : Path} (hg : d.Grows area e) (h : d.HasFile p) : e.HasFile p := by
  obtain ⟨l, bytes, hf⟩ := h
  obtain ⟨e', hf', he⟩ := hg.find hf
  cases e' with
  | file bytes' => exact ⟨l, bytes', hf'⟩
  | directory => exact he.elim
  | link => exact he.elim

theorem hasFile_of_read {d : Disk} {p : Path} {bytes : Octets} (h : d.read p = .ok bytes) :
    ∃ l, d.find p = .ok ⟨l, some (.file bytes)⟩ := by
  unfold read at h
  split at h
  · rename_i l bytes' hf
    cases h
    exact ⟨l, hf⟩
  all_goals cases h

end Disk

/-- **The paths at or below a path**, by names that entries can have. -/
def IsBelow (p q : Path) : Prop := ∃ names, (∀ name ∈ names, IsEntryName name) ∧ q = p.descend names

theorem IsBelow.of_child {p q : Path} {name : Text} (hn : IsEntryName name) (h : IsBelow (p.child name) q) :
    IsBelow p q := by
  obtain ⟨names, hnames, rfl⟩ := h
  exact ⟨name :: names, by simpa using ⟨hn, hnames⟩, by simp [Path.descend, Path.child]⟩

theorem proper_child {p : Path} (h : p.Proper) {name : Text} (hn : IsEntryName name) : (p.child name).Proper :=
  @Path.Proper.descend p h [name] (by simpa using hn.1)

theorem proper_descend {p : Path} (h : p.Proper) {names : List Text} (hn : ∀ name ∈ names, IsEntryName name) :
    (p.descend names).Proper := h.descend fun name hm => (hn name hm).1

/-- **Writing a file** changes what its path leads to. -/
theorem write_wrote {p : Path} (hp : p.Proper) (bytes : Octets) :
    Action.Keeps (Disk.Wrote fun _ q => q = p) (write p bytes) := by
  intro d hs
  rw [write_eq]
  split
  · rename_i d' hd
    obtain ⟨place, hf, hfound⟩ := Disk.find_of_withFile hd
    obtain ⟨place', hf', hne, rfl⟩ := Disk.withFile_eq_ok hd
    cases hf.symm.trans hf'
    obtain ⟨_, hw⟩ := Disk.walks_of_find hf
    obtain ⟨hroot, hat⟩ := hw.entry_of_ne_directory hne
    refine Disk.grows_put hroot (fun hs => hs.entryNames_of_find hp hf) (by simp) (fun old ho => ?_)
      (.inl ⟨p, bytes, rfl, hfound⟩)
    cases old with
    | file => trivial
    | directory => exact absurd (hat ▸ ho) hne
    | link t => exact absurd (hat ▸ ho) (hw.entry_ne_link t)
  · exact .refl _ _

/-- **Where a file is copied to**: the target, or the entry of its name in the directory there. -/
def CopiedTo (source target : Path) (d : Disk) (q : Path) : Prop :=
  d.HasFile source ∧ (q = target ∨ q = target.child source.name)

/-- **Where the files of a tree are copied to.** -/
def CopiedBelow (source target : Path) (d : Disk) (q : Path) : Prop :=
  ∃ names, names ≠ [] ∧ (∀ name ∈ names, IsEntryName name) ∧
    CopiedTo (source.descend names) (target.descend names) d q

theorem stable_copiedTo (source target : Path) : Disk.Stable (CopiedTo source target) := fun _ _ _ _ hg h =>
  ⟨Disk.stable_hasFile hg h.1, h.2⟩

theorem stable_copiedBelow (source target : Path) : Disk.Stable (CopiedBelow source target) :=
  fun _ _ _ _ hg ⟨names, hne, hn, h⟩ => ⟨names, hne, hn, stable_copiedTo _ _ _ _ _ _ hg h⟩

theorem CopiedTo.below {source target q : Path} {d : Disk} (hn : IsEntryName source.name)
    (h : CopiedTo source target d q) : IsBelow target q := by
  rcases h.2 with rfl | rfl
  · exact ⟨[], by simp, (Path.descend_nil _).symm⟩
  · exact ⟨[source.name], by simpa using hn, rfl⟩

theorem CopiedBelow.below {source target q : Path} {d : Disk} (h : CopiedBelow source target d q) :
    IsBelow target q := by
  obtain ⟨names, hne, hnames, h⟩ := h
  obtain ⟨rest, hrest, rfl⟩ := h.below (source.name_descend hne ▸ hnames _ (List.getLast_mem hne))
  refine ⟨names ++ rest, fun name hn => ?_, by simp [Path.descend]⟩
  exact (List.mem_append.1 hn).elim (hnames name) (hrest name)

/-- **Copying a file** writes to the target, or to an entry of the directory there. -/
theorem copyFile_wrote {source target : Path} (hs : IsEntryName source.name) (ht : target.Proper) :
    Action.Keeps (Disk.Wrote (CopiedTo source target)) (copyFile source target) := by
  have htrans := Disk.Wrote.trans (stable_copiedTo source target)
  unfold copyFile
  refine Action.Keeps.bind htrans (Action.Keeps.get (.refl _)) fun d => ?_
  have hwrite : ∀ p, p.Proper → (p = target ∨ p = target.child source.name) →
      Action.Keeps (Disk.Wrote (CopiedTo source target)) (do write p (← check (·.read source))) := by
    intro p hp hcopied e
    refine Action.Keeps.bindAt (R := Disk.Wrote (CopiedTo source target)) htrans (.refl _ _)
      fun bytes f hread hsound => ?_
    obtain ⟨hread, rfl⟩ := check_eq_ok.1 hread
    obtain ⟨l, hf⟩ := Disk.hasFile_of_read hread
    have hg := write_wrote hp bytes f hsound
    refine hg.mono fun m ⟨q, b, hq, hm⟩ => ⟨q, b, ⟨Disk.stable_hasFile hg ⟨l, bytes, hf⟩, hq ▸ hcopied⟩, hm⟩
  have htarget : Path.Proper (if d.isDirectory target then target.child source.name else target) ∧
      ((if d.isDirectory target then target.child source.name else target) = target ∨
        (if d.isDirectory target then target.child source.name else target) = target.child source.name) := by
    split
    · exact ⟨proper_child ht hs, .inr rfl⟩
    · exact ⟨ht, .inl rfl⟩
  dsimp only
  split
  · split
    · exact Action.Keeps.bind htrans (Action.Keeps.throw (.refl _) _) fun _ => hwrite _ htarget.1 htarget.2
    · exact hwrite _ htarget.1 htarget.2
  · exact hwrite _ htarget.1 htarget.2

theorem fails_apply (c : Change Unit) (d : Disk) :
    fails c d = match c d with
      | (.ok _, e) => (.ok false, e)
      | (.error _, e) => (.ok true, e) := by
  unfold fails
  rw [Action.bind_apply]
  rcases h : c d with ⟨_ | _, e⟩ <;>
    simp [tryCatch, tryCatchThe, MonadExcept.tryCatch, bind, h, EarlyReturnT.return, EarlyReturn.runK, pure,
      MonadExceptOf.tryCatch] <;> rfl

theorem fails_keeps {R : Disk → Disk → Prop} {c : Change Unit} (h : Action.Keeps R c) : Action.Keeps R (fails c) := by
  intro d
  have hd := h d
  rw [fails_apply]
  rcases hc : c d with ⟨_ | _, e⟩ <;> rw [hc] at hd <;> exact hd

section Copy

variable {R : Disk → Disk → Prop} {source target : Path}

/-- **What the copy of a tree keeps**, of a disk in order: what is kept by the making of each directory, while there is
one in the source, and by the copy of each file. -/
theorem copyTreeWithin_keepsAt (refl : ∀ d, R d d) (trans : ∀ d e f, R d e → R e f → R d f)
    (sound : ∀ d d', (d.Sound → R d d') → R d d')
    (hdir : ∀ names, (∀ name ∈ names, IsEntryName name) → ∀ d l,
      d.find (source.descend names) = .ok ⟨l, some .directory⟩ → R d (ensureDirectory (target.descend names) d).2)
    (hfile : ∀ names, names ≠ [] → (∀ name ∈ names, IsEntryName name) →
      Action.Keeps R (copyFile (source.descend names) (target.descend names))) (depth : Nat) :
    Action.Keeps R (copyTreeWithin depth source target) := by
  have hwithin : ∀ (depth : Nat) (names : List Text), (∀ name ∈ names, IsEntryName name) →
      Action.Keeps R (copyTreeWithin depth (source.descend names) (target.descend names)) := by
    intro depth
    induction depth with
    | zero => exact fun _ _ => Action.Keeps.throw refl _
    | succ depth ih =>
      intro names hnames d
      refine sound _ _ fun hs => ?_
      unfold copyTreeWithin
      refine Action.Keeps.bindAt trans (check_keeps refl _ d) fun entries e he => ?_
      obtain ⟨hlist, rfl⟩ := check_eq_ok.1 he
      obtain ⟨l, hfound, rfl⟩ := Disk.list_eq_ok hlist
      -- The entries are those of a directory on a disk in order, so each of them has a name that an entry can have.
      have hentries : ∀ name ∈ e.namesAt l, ∀ n ∈ names ++ [name], IsEntryName n := fun name hn =>
        List.forall_mem_append.2 ⟨hnames, List.forall_mem_singleton.2 (hs.entryName hn)⟩
      refine Action.Keeps.bindAt trans (hdir names hnames e l hfound) fun _ f _ => ?_
      refine Action.Keeps.bind trans (Action.Keeps.mapM refl trans _ fun name hn => fails_keeps ?_) (fun failed => ?_) f
      · rw [Path.child_descend, Path.child_descend]
        refine Action.Keeps.bind trans (fun _ => refl _) fun isDir => ?_
        split
        · exact ih _ (hentries name hn)
        · exact hfile _ (by simp) (hentries name hn)
      · split
        · exact Action.Keeps.throw refl _
        · exact Action.Keeps.pure refl _
  have hroot := hwithin depth [] (by simp)
  rwa [Path.descend_nil, Path.descend_nil] at hroot

theorem copyTree_keepsAt (refl : ∀ d, R d d) (trans : ∀ d e f, R d e → R e f → R d f)
    (sound : ∀ d d', (d.Sound → R d d') → R d d')
    (hdir : ∀ names, (∀ name ∈ names, IsEntryName name) → ∀ d l,
      d.find (source.descend names) = .ok ⟨l, some .directory⟩ → R d (ensureDirectory (target.descend names) d).2)
    (hfile : ∀ names, names ≠ [] → (∀ name ∈ names, IsEntryName name) →
      Action.Keeps R (copyFile (source.descend names) (target.descend names))) :
    Action.Keeps R (copyTree source target) :=
  Action.Keeps.bind trans (Action.Keeps.get refl) fun _ => copyTreeWithin_keepsAt refl trans sound hdir hfile _

/-- **What the copy of a tree keeps**, if the making of each directory keeps it wherever that is done. -/
theorem copyTree_keeps (refl : ∀ d, R d d) (trans : ∀ d e f, R d e → R e f → R d f)
    (sound : ∀ d d', (d.Sound → R d d') → R d d')
    (hdir : ∀ names, (∀ name ∈ names, IsEntryName name) → Action.Keeps R (ensureDirectory (target.descend names)))
    (hfile : ∀ names, names ≠ [] → (∀ name ∈ names, IsEntryName name) →
      Action.Keeps R (copyFile (source.descend names) (target.descend names))) :
    Action.Keeps R (copyTree source target) :=
  copyTree_keepsAt refl trans sound (fun names hn d _ _ => hdir names hn d) hfile

end Copy

theorem copyTreeWithin_wrote {source target : Path} (ht : target.Proper) (depth : Nat) :
    Action.Keeps (Disk.Wrote (CopiedBelow source target)) (copyTreeWithin depth source target) := by
  refine copyTreeWithin_keepsAt (.refl _) (Disk.Wrote.trans (stable_copiedBelow source target))
    (fun _ _ h hs => h hs hs) (fun names hn d _ _ => (ensureDirectory_grows (proper_descend ht hn) d).wrote)
    (fun names hne hn d => ?_) depth
  exact (copyFile_wrote (source.name_descend hne ▸ hn _ (List.getLast_mem hne)) (proper_descend ht hn) d).mono
    fun q hq => ⟨names, hne, hn, hq⟩

/-- **Copying a tree** writes where its files are copied to. -/
theorem copyTree_wrote {source target : Path} (ht : target.Proper) :
    Action.Keeps (Disk.Wrote (CopiedBelow source target)) (copyTree source target) :=
  fun d => copyTreeWithin_wrote ht d.depthBound d

/-! ## Where paths below a directory lead -/

namespace Disk

variable {first : Disk}

/-- **A path that goes on below another is found through it.** -/
theorem find_descend {d : Disk} {p : Path} {names : List Text} {place : Place} (hn : names ≠ [])
    (h : d.find (p.descend names) = .ok place) :
    ∃ j l, Walks d maxLinks (d.start p) p.names ⟨l, some .directory⟩ ∧ Walks d j l names place := by
  obtain ⟨_, hw⟩ := walks_of_find h
  obtain ⟨j, l, _, ha, hb⟩ := hw.split hn
  exact ⟨j, l, ha, hb⟩

/-- **Below a place without links a path leads where its names say.** -/
theorem location_of_find_descend {d : Disk} (hs : d.Sound) (hl : first.SameLinks d) {p : Path}
    (hfree : first.LinkFree (first.settle p)) {names : List Text} (hup : Path.up ∉ names) {place : Place}
    (h : d.find (p.descend names) = .ok place) : place.location = first.settle p ++ names := by
  by_cases hn : names = []
  · subst hn
    rw [Path.descend_nil] at h
    simpa using (settle_of_find hl.symm hs.up_not_mem_here h).symm
  · obtain ⟨j, l, ha, hb⟩ := find_descend hn h
    have hsettle : first.settle p = l := settle_of_walks hl.symm hs.up_not_mem_here ha
    rw [hsettle] at hfree ⊢
    exact hb.location_of_linkFree (hl.linkFree hfree) hup

/-- **What is written below a place without links** is at or below that place. -/
theorem Wrote.below {d d' : Disk} {p : Path} (h : d.Wrote (fun _ => IsBelow p) d') (hs : d.Sound)
    (hl : first.SameLinks d) (hfree : first.LinkFree (first.settle p)) : d.Grows (.below (first.settle p)) d' := by
  have hg := h hs
  refine hg.mono fun l ⟨q, bytes, ⟨names, hnames, hq⟩, hf⟩ => ?_
  have hloc := location_of_find_descend (hg.sound hs) (hl.trans hg.links) hfree (not_mem_up hnames) (hq ▸ hf)
  exact ⟨names, hloc.symm⟩

end Disk
end DocFerry.Files
