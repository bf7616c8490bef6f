import DocFerry.Proofs.Files.Below
import DocFerry.Proofs.Files.Confined
import DocFerry.Proofs.Files.Copies
/-!
# Directories of a tree that is copied

A copy of a tree that succeeds has made each of its directories where it copies to (`copyTreeWithin_directory`), and
makes no others (`copyTree_makesOnly`): where no directory of the tree is copied to, none appears.  The tree stays as it
is meanwhile if it stands apart from the folder that is changed (`unaffected_sameBelow`).
-/
namespace DocFerry.Files

open Text.Utf8 (Octets)

/-! ## Every directory of the tree -/

/-- **A directory stays one** while the disk grows. -/
theorem Disk.Grows.find_directory {area : Area} {d d' : Disk} (h : d.Grows area d') {p : Path} {l : Location}
    (hf : d.find p = .ok ⟨l, some .directory⟩) : d'.find p = .ok ⟨l, some .directory⟩ := by
  obtain ⟨e, hf', he⟩ := h.find hf
  rwa [Entry.SameKind.directory_iff he |>.1 rfl] at hf'

/-- **A copy of a file leaves something at its target**, which stays there. -/
theorem find_target_of_copyFile {source target : Path} {P : Disk → Path → Prop} {d d' e : Disk}
    (hname : IsEntryName source.name) (ht : target.Proper) (hs : d.Sound) (h : copyFile source target d = (.ok (), d'))
    (hlater : d'.Wrote P e) : ∃ l x, e.find target = .ok ⟨l, some x⟩ := by
  have hwrote := copyFile_wrote hname ht d hs
  rw [h] at hwrote
  have hthere : ∃ l x, d'.find target = .ok ⟨l, some x⟩ := by
    cases hdir : d.isDirectory target with
    | true =>
      obtain ⟨l, hf⟩ := isDirectory_iff.1 hdir
      exact ⟨l, _, hwrote.find_directory hf⟩
    | false =>
      obtain ⟨_, l, bytes, _, hf⟩ := find_of_copyFile h hdir
      exact ⟨l, _, hf⟩
  obtain ⟨l, x, hf⟩ := hthere
  obtain ⟨y, hy, _⟩ := (hlater (hwrote.sound hs)).find hf
  exact ⟨l, y, hy⟩

/-- **What goes on to a directory** leads to one. -/
theorem Disk.find_above_directory {d : Disk} {p : Path} {names : List Text} {l : Location}
    (h : d.find (p.descend names) = .ok ⟨l, some .directory⟩) : ∃ m, d.find p = .ok ⟨m, some .directory⟩ := by
  by_cases hne : names = []
  · rw [hne, Path.descend_nil] at h
    exact ⟨l, h⟩
  · obtain ⟨_, m, hm, _⟩ := find_on_the_way hne h
    exact ⟨m, hm⟩

/-- **A copy of a tree makes each of its directories** where it copies to. -/
theorem copyTreeWithin_directory : ∀ {names : List Text} {depth : Nat} {source target : Path} {d d' : Disk}
    {l : Location}, (∀ n ∈ names, IsEntryName n) → target.Proper → d.Sound →
    copyTreeWithin depth source target d = (.ok (), d') → d.find (source.descend names) = .ok ⟨l, some .directory⟩ →
    ∃ m, d'.find (target.descend names) = .ok ⟨m, some .directory⟩
  | [], _, source, target, d, d', _, _, ht, hs, h, _ => by
    obtain ⟨n, l, e, failed, _, _, hmade, _, hcopied⟩ := copyTreeWithin_eq_ok h
    obtain ⟨m, hm⟩ := find_of_ensureDirectory ht hmade
    have hgrown := ensureDirectory_grows ht d
    rw [hmade] at hgrown
    have hnames : ∀ x ∈ d.namesAt l, IsEntryName x := fun x hx => hs.entryName hx
    have hentries := copyEntries_wrote (stable_copiedBelow source target) ht n hnames
      (fun _ _ _ _ => CopiedUnder.copiedBelow) e (hgrown.sound hs)
    rw [hcopied] at hentries
    exact ⟨m, by simpa only [Path.descend_nil] using hentries.find_directory hm⟩
  | name :: rest, _, source, target, d, d', l, hnames, ht, hs, h, hfound => by
    obtain ⟨hname, hrest⟩ := List.forall_mem_cons.1 hnames
    obtain ⟨j, k, hf, hwalk⟩ := Disk.find_on_the_way (List.cons_ne_nil _ _) hfound
    obtain ⟨n, u, v, hu, hcopy, hv⟩ := copyTreeWithin_entry ht hs h hf (Disk.mem_namesAt_of_walks hname.2 hwalk)
    have husound := (hu hs).sound hs
    have hthere := (hu hs).find_directory hfound
    rw [← descend_child] at hthere ⊢
    have hdir : u.isDirectory (source.child name) = true := by
      obtain ⟨_, hat⟩ := Disk.find_above_directory hthere
      rw [Disk.isDirectory_of_find hat, beq_self_eq_true]
    have hwrote := @copyEntry_wrote source target name ht hname n u husound
    rw [hcopy] at hwrote
    rw [copyEntry_apply, if_pos hdir] at hcopy
    obtain ⟨m, hm⟩ := copyTreeWithin_directory hrest (proper_child ht hname) husound hcopy hthere
    exact ⟨m, (hv (hwrote.sound husound)).find_directory hm⟩

/-! ## No other directory -/

/-- **A directory that must be there** is made, or else nothing is changed. -/
theorem ensureDirectory_disk (p : Path) (d : Disk) : (ensureDirectory p d).2 = (makeDirectory p d).2 := by
  unfold ensureDirectory
  rw [Action.tryCatch_apply]
  rcases hmade : makeDirectory p d with ⟨problem | _, e⟩
  · dsimp only
    rw [Action.bind_apply, check]
    rcases e.seekDirectory p with _ | found
    · rfl
    · by_cases hthrown : problem = .missing ∨ (!found) = true
      · simp only [if_pos hthrown]
        rfl
      · simp only [if_neg hthrown]
        rfl
  · rfl

section MakesOnly

variable {p : Path} {l : Location} {I : Disk → Prop} {P : Location → Prop} {d d' : Disk} {names : List Text}

/-- **What no change of a folder affects**: it stays true while only the folder is changed. -/
def Unaffected (p : Path) (l : Location) (I : Disk → Prop) : Prop :=
  ∀ d d', Stands p l d → Confined p l d d' → I d → I d'

/-- **A tree apart from a folder** stays as it was at first while only the folder is changed. -/
theorem unaffected_sameBelow {first : Disk} {q : Path} {k : Location} (hapart : ∀ m, k <+: m → ¬ l <+: m) :
    Unaffected p l (first.SameBelow q k) := fun _ _ hs hc h =>
  { sound := h.sound
    sound' := (hc hs).1.sound h.sound'
    found := h.found
    found' := (hc hs).1.find_directory h.found'
    free := h.free
    same := fun m hm => by
      rw [← h.same m hm, ← Disk.locate?_removeBelow_outside (hapart m hm), (hc hs).2,
        Disk.locate?_removeBelow_outside (hapart m hm)] }

/-- **A change of a folder that makes directories at some places only**, while something stays true. -/
def MakesOnly (p : Path) (l : Location) (I : Disk → Prop) (P : Location → Prop) (d d' : Disk) : Prop :=
  Stands p l d → I d → Stands p l d' ∧ I d' ∧
    ∀ m, d'.locate? m = some .directory → d.locate? m = some .directory ∨ P m

theorem MakesOnly.refl (p : Path) (l : Location) (I : Disk → Prop) (P : Location → Prop) (d : Disk) :
    MakesOnly p l I P d d := fun hs hi => ⟨hs, hi, fun _ => .inl⟩

theorem MakesOnly.trans (p : Path) (l : Location) (I : Disk → Prop) (P : Location → Prop) (d e f : Disk)
    (h : MakesOnly p l I P d e) (h' : MakesOnly p l I P e f) : MakesOnly p l I P d f := by
  intro hs hi
  obtain ⟨hes, hei, hdirs⟩ := h hs hi
  obtain ⟨hfs, hfi, hdirs'⟩ := h' hes hei
  exact ⟨hfs, hfi, fun m hm => (hdirs' m hm).elim (hdirs m) .inr⟩

theorem makesOnly_of_confined (hI : Unaffected p l I) (hc : Confined p l d d')
    (hdirs : Stands p l d → I d → ∀ m, d'.locate? m = some .directory → d.locate? m = some .directory ∨ P m) :
    MakesOnly p l I P d d' := fun hs hi => ⟨hs.grown (hc hs).1, hI d d' hs hc hi, hdirs hs hi⟩

/-- **A directory made below a folder** is at the place of its names. -/
theorem makeDirectory_makesOnly (hI : Unaffected p l I) (hp : p.Proper) (hn : ∀ name ∈ names, IsEntryName name)
    (hP : names ≠ [] → I d → P (l ++ names)) : MakesOnly p l I P d (makeDirectory (p.descend names) d).2 := by
  have hc : Confined p l d (makeDirectory (p.descend names) d).2 := makeDirectory_confined hp hn d
  refine makesOnly_of_confined hI hc fun hs hi m hm => ?_
  rcases hmade : makeDirectory (p.descend names) d with ⟨problem | _, e⟩
  · rw [hmade] at hm
    exact .inl ((makeDirectory_eq_error hmade).2 ▸ hm)
  · rw [hmade] at hm hc
    have hne : names ≠ [] := by
      rintro rfl
      rw [Path.descend_nil] at hmade
      exact (withDirectory_of_found hs.found).1 e (makeDirectory_eq_ok hmade)
    obtain ⟨new, hfound, _, rfl⟩ := find_of_makeDirectory (proper_descend hp hn) hmade
    obtain rfl : new = l ++ names := (hs.grown (hc hs).1).location hn hfound
    by_cases hnew : m = l ++ names
    · exact .inr (hnew ▸ hP hne hi)
    · rw [Disk.locate?_put_ne d _ hnew] at hm
      exact .inl hm

theorem makeDirectories_makesOnly (hI : Unaffected p l I) (hp : p.Proper) (reuse : Bool)
    (hn : ∀ name ∈ names, IsEntryName name) (hP : ∀ front, front <+: names → front ≠ [] → P (l ++ front)) :
    Action.Keeps (MakesOnly p l I P) (makeDirectories reuse (p.descend names)) :=
  makeParentsWithin_keepsBelow (.refl p l I P) (MakesOnly.trans p l I P) (fun _ _ h hs => h hs hs) _ reuse
    fun front hfront _ => makeDirectory_makesOnly hI hp (fun name hm => hn name (hfront.subset hm))
      fun hne _ => hP front hfront hne

/-- **The copy of a file makes no directory.** -/
theorem copyFile_makesOnly (hI : Unaffected p l I) (hp : p.Proper) (hn : ∀ name ∈ names, IsEntryName name)
    {source : Path} (hname : IsEntryName source.name) :
    Action.Keeps (MakesOnly p l I P) (copyFile source (p.descend names)) := by
  intro d
  refine makesOnly_of_confined hI (copyFile_confined hp hn hname d) fun _ _ m hm => .inl ?_
  refine copyFile_keeps (R := fun d d' => ∀ m, d'.locate? m = some .directory → d.locate? m = some .directory)
    (fun _ _ => id) (fun _ _ _ h h' m hm => h m (h' m hm)) (fun file bytes _ d m hm => ?_) d m hm
  rw [write_eq] at hm
  split at hm
  · rename_i d' hd
    obtain ⟨place, hf, hne, rfl⟩ := Disk.withFile_eq_ok hd
    obtain ⟨hroot, _⟩ := (Disk.walks_of_find hf).2.entry_of_ne_directory hne
    rw [Disk.locate?_put d hroot] at hm
    split at hm
    · cases hm
    · exact hm
  · exact hm

/-- **A copy of a tree makes no directories but those of the tree**, each where it is copied to. -/
theorem copyTree_makesOnly (hI : Unaffected p l I) (hp : p.Proper) {into : List Text}
    (hinto : ∀ name ∈ into, IsEntryName name) {source : Path}
    (hP : ∀ more, (∀ name ∈ more, IsEntryName name) → ∀ d, I d → d.isDirectory (source.descend more) = true →
      P (l ++ (into ++ more))) :
    Action.Keeps (MakesOnly p l I P) (copyTree source (p.descend into)) := by
  have hdescend : ∀ more : List Text, (p.descend into).descend more = p.descend (into ++ more) := fun more => by
    simp [Path.descend]
  have hall : ∀ more : List Text, (∀ name ∈ more, IsEntryName name) → ∀ name ∈ into ++ more, IsEntryName name :=
    fun more hm => List.forall_mem_append.2 ⟨hinto, hm⟩
  refine copyTree_keepsAt (.refl p l I P) (MakesOnly.trans p l I P) (fun _ _ h hs hi => h hs.sound hs hi)
    (fun more hm d m hfound => ?_) (fun more hne hm => ?_)
  · rw [hdescend, ensureDirectory_disk]
    refine makeDirectory_makesOnly hI hp (hall more hm) fun _ hi => hP more hm d hi ?_
    rw [Disk.isDirectory_of_find hfound, beq_self_eq_true]
  · rw [hdescend]
    exact copyFile_makesOnly hI hp (hall more hm) (source.name_descend hne ▸ hm _ (List.getLast_mem hne))

end MakesOnly
end DocFerry.Files
