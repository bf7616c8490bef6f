import DocFerry.Proofs.Files.Plain
/-!
# What a copy brings about

A copy of a file that succeeds has written the octets of its source (`copyFile_eq_ok`).  A copy of a tree that
succeeds has come to each of its files and copied it, and what it has copied afterwards are other files of the tree
(`copyTreeWithin_reaches`).
-/
namespace DocFerry.Files

open Text.Utf8 (Octets)

/-! ## Paths that go on -/

theorem encode_append (s t : Text) : Text.Utf8.encode (s ++ t) = Text.Utf8.encode s ++ Text.Utf8.encode t :=
  List.flatMap_append

theorem join_start (glue : Text) (more : List Text) : ∀ (pieces : List Text),
    Text.join glue pieces <+: Text.join glue (pieces ++ more)
  | [] => List.nil_prefix
  | [piece] => by
    cases more with
    | nil => exact List.prefix_refl _
    | cons next more => exact (List.prefix_append piece glue).trans (List.prefix_append _ _)
  | piece :: next :: pieces => by
    rw [List.cons_append, List.cons_append, Text.join_cons_cons, Text.join_cons_cons]
    exact List.prefix_append_right_inj _ |>.2 (join_start glue more (next :: pieces))

theorem text_start_descend {p : Path} (hp : p.names ≠ []) (names : List Text) : p.text <+: (p.descend names).text := by
  have hjoin := join_start ['/'] names p.names
  have hmore : p.names ++ names ≠ [] := fun h => hp (List.append_eq_nil_iff.1 h).1
  unfold Path.text Path.descend
  cases p.start with
  | here =>
    dsimp only
    rw [if_neg (by simpa using hp), if_neg (by simpa using hmore)]
    exact hjoin
  | root => exact List.cons_prefix_cons.2 ⟨rfl, hjoin⟩
  | doubledRoot => exact List.cons_prefix_cons.2 ⟨rfl, List.cons_prefix_cons.2 ⟨rfl, hjoin⟩⟩

theorem exceeds_of_start {limit : Nat} {s t : Text} (h : s <+: t) (ht : exceeds limit t = false) :
    exceeds limit s = false := by
  obtain ⟨more, rfl⟩ := h
  simp only [exceeds, encode_append, List.length_append, decide_eq_false_iff_not] at ht ⊢
  omega

/-- **What leads to a longer path** is not refused on the way. -/
theorem refusal?_of_descend {p : Path} {names : List Text} (h : refusal? (p.descend names) = none) :
    refusal? p = none := by
  have hnull : p.names.any (·.contains (Char.ofNat 0)) = false := by
    have hall := Disk.refusal?_eq_none h
    rw [Path.descend, List.any_append, Bool.or_eq_false_iff] at hall
    exact hall.1
  have hlong : exceeds longestPath p.text = false := by
    by_cases hp : p.names = []
    · rw [Path.text, hp]
      cases p.start <;> decide
    · refine exceeds_of_start (text_start_descend hp names) ?_
      unfold refusal? at h
      split at h
      · cases h
      · split at h
        · cases h
        · rename_i hlong
          simpa using hlong
  unfold refusal?
  rw [hnull, hlong]
  rfl

namespace Disk

/-- **A path on the way to what is found** leads to a directory. -/
theorem find_on_the_way {d : Disk} {p : Path} {names : List Text} (hn : names ≠ []) {place : Place}
    (h : d.find (p.descend names) = .ok place) :
    ∃ j l, d.find p = .ok ⟨l, some .directory⟩ ∧ Walks d j l names place := by
  obtain ⟨j, l, hp, hnames⟩ := find_descend hn h
  exact ⟨j, l, find_of_walks (refusal?_of_descend (walks_of_find h).1) (Nat.le_refl _) hp, hnames⟩

/-- **What is found is a file** if it is no directory. -/
theorem hasFile_iff_of_find {d : Disk} {p : Path} {l : Location} {e : Entry} (h : d.find p = .ok ⟨l, some e⟩) :
    d.HasFile p ↔ d.isDirectory p = false := by
  rw [isDirectory_of_find h]
  constructor
  · rintro ⟨_, _, hf⟩
    cases h.symm.trans hf
    rfl
  · intro hne
    cases e with
    | file bytes => exact ⟨l, bytes, h⟩
    | directory => cases hne
    | link target => exact absurd rfl ((walks_of_find h).2.entry_ne_link target)

/-- **A name on the way of a walk to something** is that of an entry. -/
theorem mem_namesAt_of_walks {d : Disk} {k : Nat} {l : Location} {name : Text} {rest : List Text} {m : Location} {e : Entry}
    (hup : name ≠ Path.up) (h : Walks d k l (name :: rest) ⟨m, some e⟩) : name ∈ d.namesAt l := by
  rw [mem_namesAt]
  cases h with
  | up => exact absurd rfl hup
  | into _ hd _ => exact ⟨_, hd⟩
  | follow _ ht _ => exact ⟨_, ht⟩
  | file _ hf => exact ⟨_, hf⟩

end Disk

/-! ## Files that are copied -/

/-- **A copy of a file that succeeds** has written what it has read. -/
theorem copyFile_eq_ok {source target : Path} {d d' : Disk} (h : copyFile source target d = (.ok (), d')) :
    ∃ l bytes, d.find source = .ok ⟨l, some (.file bytes)⟩ ∧
      d.withFile (if d.isDirectory target then target.child source.name else target) bytes = .ok d' := by
  unfold copyFile at h
  obtain ⟨e, _, hget, h⟩ := Action.bind_eq_ok_iff.1 h
  cases hget
  generalize (if d.isDirectory target then target.child source.name else target) = q at h ⊢
  have hwrite : (do write q (← check (·.read source)) : Change Unit) d = (.ok (), d') := by
    rcases hs : d.find source with problem | ⟨l, _ | e⟩
    · rwa [hs] at h
    · rwa [hs] at h
    · rcases ht : d.find q with problem | ⟨m, _ | e'⟩
      · rwa [hs, ht] at h
      · rwa [hs, ht] at h
      · rw [hs, ht] at h
        by_cases hlm : l = m
        · simp only [if_pos hlm] at h
          cases h
        · simpa only [if_neg hlm] using h
  obtain ⟨bytes, _, hread, hwritten⟩ := Action.bind_eq_ok_iff.1 hwrite
  obtain ⟨hread, rfl⟩ := check_eq_ok.1 hread
  obtain ⟨l, hf⟩ := Disk.hasFile_of_read hread
  rw [write_eq] at hwritten
  split at hwritten
  · rename_i hfile
    cases hwritten
    exact ⟨l, bytes, hf, hfile⟩
  · cases hwritten

/-- **A copy to no directory** leaves the octets of its source at its target. -/
theorem find_of_copyFile {source target : Path} {d d' : Disk} (h : copyFile source target d = (.ok (), d'))
    (hd : d.isDirectory target = false) : ∃ l m bytes,
      d.find source = .ok ⟨l, some (.file bytes)⟩ ∧ d'.find target = .ok ⟨m, some (.file bytes)⟩ := by
  obtain ⟨l, bytes, hf, hfile⟩ := copyFile_eq_ok h
  rw [hd] at hfile
  obtain ⟨place, _, hfound⟩ := Disk.find_of_withFile hfile
  exact ⟨l, place.location, bytes, hf, hfound⟩

/-! ## Trees that are copied -/

/-- **Where the files of a tree are copied to**, all but one. -/
def CopiedBut (source target : Path) (but : List Text) (d : Disk) (q : Path) : Prop :=
  ∃ names, names ≠ [] ∧ (∀ name ∈ names, IsEntryName name) ∧ names ≠ but ∧
    CopiedTo (source.descend names) (target.descend names) d q

theorem stable_copiedBut (source target : Path) (but : List Text) : Disk.Stable (CopiedBut source target but) :=
  fun _ _ _ _ hg ⟨names, hne, hn, hbut, h⟩ => ⟨names, hne, hn, hbut, stable_copiedTo _ _ _ _ _ _ hg h⟩

/-- **Where the files of one entry of a tree are copied to.** -/
def CopiedUnder (source target : Path) (name : Text) (d : Disk) (q : Path) : Prop :=
  ∃ more, (∀ n ∈ name :: more, IsEntryName n) ∧
    CopiedTo (source.descend (name :: more)) (target.descend (name :: more)) d q

section Tree

variable {source target q : Path} {name : Text} {rest : List Text} {d d' : Disk}

theorem descend_child (p : Path) (name : Text) (names : List Text) :
    (p.child name).descend names = p.descend (name :: names) := by
  simp [Path.descend, Path.child]

theorem CopiedBelow.of_child (hn : IsEntryName name) (h : CopiedBelow (source.child name) (target.child name) d q) :
    CopiedUnder source target name d q := by
  obtain ⟨names, _, hnames, h⟩ := h
  rw [descend_child, descend_child] at h
  exact ⟨names, List.forall_mem_cons.2 ⟨hn, hnames⟩, h⟩

theorem CopiedUnder.copiedBelow (h : CopiedUnder source target name d q) : CopiedBelow source target d q := by
  obtain ⟨more, hn, h⟩ := h
  exact ⟨name :: more, by simp, hn, h⟩

theorem CopiedUnder.copiedBut {other : Text} (hne : other ≠ name) (h : CopiedUnder source target other d q) :
    CopiedBut source target (name :: rest) d q := by
  obtain ⟨more, hn, h⟩ := h
  exact ⟨other :: more, by simp, hn, fun he => hne (List.cons.inj he).1, h⟩

theorem CopiedBut.of_child (hn : IsEntryName name)
    (h : CopiedBut (source.child name) (target.child name) rest d q) : CopiedBut source target (name :: rest) d q := by
  obtain ⟨names, _, hnames, hne, h⟩ := h
  rw [descend_child, descend_child] at h
  exact ⟨name :: names, by simp, List.forall_mem_cons.2 ⟨hn, hnames⟩, fun he => hne (List.cons.inj he).2, h⟩

/-- **One entry of a tree copied**: a directory with all that is in it, and anything else as a file. -/
def copyEntry (depth : Nat) (source target : Path) (name : Text) : Change Unit := do
  if ← look (·.isDirectory (source.child name)) then copyTreeWithin depth (source.child name) (target.child name)
  else copyFile (source.child name) (target.child name)

theorem copyEntry_apply (depth : Nat) (source target : Path) (name : Text) (d : Disk) :
    copyEntry depth source target name d =
      if d.isDirectory (source.child name) then copyTreeWithin depth (source.child name) (target.child name) d
      else copyFile (source.child name) (target.child name) d := by
  unfold copyEntry
  rw [Action.bind_apply, look]
  dsimp only
  split <;> rfl

theorem copyEntry_wrote (ht : target.Proper) (hn : IsEntryName name) (depth : Nat) :
    Action.Keeps (Disk.Wrote (CopiedUnder source target name)) (copyEntry depth source target name) := by
  intro d
  rw [copyEntry_apply]
  split
  · exact (copyTreeWithin_wrote (proper_child ht hn) depth d).mono fun q hq => hq.of_child hn
  · refine (copyFile_wrote (by rwa [Path.name_child]) (proper_child ht hn) d).mono fun q hq => ⟨[], by simpa using hn, ?_⟩
    rwa [← descend_child, ← descend_child, Path.descend_nil, Path.descend_nil]

theorem fails_eq_ok_false {c : Change Unit} (h : fails c d = (.ok false, d')) : c d = (.ok (), d') := by
  rw [fails_apply] at h
  split at h
  · rename_i hc
    cases h
    exact hc
  · cases h

/-- **A copy of a tree that succeeds, step by step**: it lists the directory, makes that which it copies to, and copies
every entry. -/
theorem copyTreeWithin_eq_ok {depth : Nat} (h : copyTreeWithin depth source target d = (.ok (), d')) :
    ∃ n l e failed, depth = n + 1 ∧ d.find source = .ok ⟨l, some .directory⟩ ∧
      ensureDirectory target d = (.ok (), e) ∧ failed.any id = false ∧
      (d.namesAt l).mapM (fun name => fails (copyEntry n source target name)) e = (.ok failed, d') := by
  cases depth with
  | zero => cases h
  | succ n =>
    unfold copyTreeWithin at h
    obtain ⟨entries, _, hlist, h⟩ := Action.bind_eq_ok_iff.1 h
    obtain ⟨hlist, rfl⟩ := check_eq_ok.1 hlist
    obtain ⟨l, hf, rfl⟩ := Disk.list_eq_ok hlist
    obtain ⟨_, e, hmade, h⟩ := Action.bind_eq_ok_iff.1 h
    obtain ⟨failed, f, hcopied, h⟩ := Action.bind_eq_ok_iff.1 h
    split at h
    · cases h
    · rename_i hnone
      obtain ⟨_, rfl⟩ := Action.pure_eq_ok_iff.1 h
      exact ⟨n, l, e, failed, rfl, hf, hmade, by simpa using hnone, hcopied⟩

/-- **What the copy of some entries of a tree writes.** -/
theorem copyEntries_wrote {P : Disk → Path → Prop} (hP : Disk.Stable P) (ht : target.Proper) (depth : Nat)
    {entries : List Text} (hentries : ∀ x ∈ entries, IsEntryName x)
    (himp : ∀ x ∈ entries, ∀ e q, CopiedUnder source target x e q → P e q) :
    Action.Keeps (Disk.Wrote P) (entries.mapM fun name => fails (copyEntry depth source target name)) :=
  Action.Keeps.mapM (.refl _) (Disk.Wrote.trans hP) _ fun x hx =>
    fails_keeps fun e => (copyEntry_wrote ht (hentries x hx) depth e).mono (himp x hx _)

/-- **Where the other entries of a tree are copied to.** -/
def CopiedBeside (source target : Path) (name : Text) (d : Disk) (q : Path) : Prop :=
  ∃ other, other ≠ name ∧ CopiedUnder source target other d q

theorem stable_copiedBeside (source target : Path) (name : Text) : Disk.Stable (CopiedBeside source target name) :=
  fun _ _ _ _ hg ⟨other, hne, more, hn, h⟩ => ⟨other, hne, more, hn, stable_copiedTo _ _ _ _ _ _ hg h⟩

/-- **A copy of a tree taken apart at one of its entries**: what has been copied before is somewhere in the tree, and
what is copied afterwards is in its other entries. -/
theorem copyTreeWithin_entry {depth : Nat} {l : Location} (ht : target.Proper) (hs : d.Sound)
    (h : copyTreeWithin depth source target d = (.ok (), d')) (hf : d.find source = .ok ⟨l, some .directory⟩)
    (hname : name ∈ d.namesAt l) : ∃ n u v, d.Wrote (CopiedBelow source target) u ∧
      copyEntry n source target name u = (.ok (), v) ∧ v.Wrote (CopiedBeside source target name) d' := by
  obtain ⟨n, l', f, failed, _, hf', hmade, hnone, hcopied⟩ := copyTreeWithin_eq_ok h
  cases hf.symm.trans hf'
  obtain ⟨before, after, hentries⟩ := List.append_of_mem hname
  have hnodup := Disk.nodup_namesAt hs.nodup l
  have hentry : ∀ x ∈ before ++ name :: after, IsEntryName x := fun x hx => hs.entryName (hentries ▸ hx)
  rw [hentries] at hcopied hnodup
  obtain ⟨u, v, b, hbefore, hstep, hafter, hb⟩ := Action.mapM_split hcopied
  obtain rfl : b = false := by simpa using List.any_eq_false.1 hnone b hb
  have hgrown := ensureDirectory_grows ht d
  rw [hmade] at hgrown
  refine ⟨n, u, v, ?_, fails_eq_ok_false hstep, ?_⟩
  · refine Disk.Wrote.trans (stable_copiedBelow source target) d f u hgrown.wrote ?_
    exact hbefore ▸ copyEntries_wrote (stable_copiedBelow source target) ht n (fun x hx => hentry x (by simp [hx]))
      (fun _ _ _ _ => CopiedUnder.copiedBelow) f
  · refine hafter ▸ copyEntries_wrote (stable_copiedBeside source target name) ht n
      (fun x hx => hentry x (by simp [hx])) (fun x hx _ _ hq => ⟨x, fun he => ?_, hq⟩) v
    exact (List.nodup_cons.1 (List.nodup_append.1 hnodup).2.1).1 (he ▸ hx)

end Tree

/-- **A copy of a tree comes to each of its files.**  What has been copied before is somewhere in the tree, and what is
copied afterwards is another file of it. -/
theorem copyTreeWithin_reaches : ∀ {rest : List Text} {depth : Nat} {source target : Path} {d d' : Disk},
    rest ≠ [] → (∀ n ∈ rest, IsEntryName n) → target.Proper → d.Sound →
    copyTreeWithin depth source target d = (.ok (), d') → d.HasFile (source.descend rest) →
    ∃ e e', d.Wrote (CopiedBelow source target) e ∧
      copyFile (source.descend rest) (target.descend rest) e = (.ok (), e') ∧
      e'.Wrote (CopiedBut source target rest) d'
  | [], _, _, _, _, _, hne, _, _, _, _, _ => absurd rfl hne
  | name :: rest, _, source, target, d, d', _, hnames, ht, hs, h, hfile => by
    obtain ⟨hname, hrest⟩ := List.forall_mem_cons.1 hnames
    obtain ⟨m, bytes, hfound⟩ := hfile
    obtain ⟨j, l, hf, hwalk⟩ := Disk.find_on_the_way (List.cons_ne_nil _ _) hfound
    obtain ⟨n, u, v, hu, hcopy, hbeside⟩ := copyTreeWithin_entry ht hs h hf (Disk.mem_namesAt_of_walks hname.2 hwalk)
    have hv : v.Wrote (CopiedBut source target (name :: rest)) d' :=
      hbeside.mono fun q ⟨other, hne, hq⟩ => hq.copiedBut hne
    have hfile : u.HasFile (source.descend (name :: rest)) := Disk.stable_hasFile (hu hs) ⟨m, bytes, hfound⟩
    rw [copyEntry_apply] at hcopy
    rw [← descend_child] at hfile ⊢
    rw [← descend_child]
    by_cases hr : rest = []
    · subst hr
      rw [Path.descend_nil] at hfile ⊢
      rw [Path.descend_nil]
      obtain ⟨_, _, hat⟩ := hfile
      rw [Disk.isDirectory_of_find hat, if_neg (by simp)] at hcopy
      exact ⟨u, v, hu, hcopy, hv⟩
    · obtain ⟨_, _, hat⟩ := hfile
      obtain ⟨_, _, hdir, _⟩ := Disk.find_on_the_way hr hat
      rw [Disk.isDirectory_of_find hdir, if_pos (by simp)] at hcopy
      obtain ⟨e, e', he, hcopied, he'⟩ :=
        copyTreeWithin_reaches hr hrest (proper_child ht hname) ((hu hs).sound hs) hcopy ⟨_, _, hat⟩
      have hbelow := he.mono fun q hq => (hq.of_child hname).copiedBelow
      have hbut := he'.mono fun q hq => hq.of_child hname
      exact ⟨e, e', Disk.Wrote.trans (stable_copiedBelow source target) _ _ _ hu hbelow, hcopied,
        Disk.Wrote.trans (stable_copiedBut source target _) _ _ _ hbut hv⟩

end DocFerry.Files
