import DocFerry.Proofs.Files.OneFolder
import DocFerry.Proofs.Site.Hollow
/-!
# Documents read along two paths

Two paths may lead to one folder of documents.  Its entries are then the same along both, but for the paths under which
they are seen (`siblings_unless`), unless one of the two is too long to be looked up.  So in two worlds that are the
same but for their logs (`Twins`) each page is written alike (`doSame_writePage`), each folder is walked alike
(`doSame_walkWithin`), and the whole site is assembled alike (`doSame_assemble`).
-/
namespace DocFerry.Site

open Files Nav
open DocFerry.Action (ResultsUnless)

/-- **A name or a path was too long** to be looked up. -/
def Failure.IsLong (failure : Failure) : Prop := failure = .disk .nameTooLong

/-- **An entry seen along another path** to its folder. -/
def Sibling.seenFrom (s : Sibling) (directory : Path) : Sibling := { s with path := directory.child s.name }

section Seen

variable (s : Sibling) (directory : Path)

@[simp] theorem Sibling.seenFrom_name : (s.seenFrom directory).name = s.name := rfl

@[simp] theorem Sibling.seenFrom_path : (s.seenFrom directory).path = directory.child s.name := rfl

@[simp] theorem Sibling.seenFrom_isDirectory : (s.seenFrom directory).isDirectory = s.isDirectory := rfl

@[simp] theorem Sibling.seenFrom_isPage : (s.seenFrom directory).isPage = s.isPage := rfl

end Seen

theorem Sibling.insert_map {f : Sibling → Sibling} (hf : ∀ s t, (f s).le (f t) = s.le t) (s : Sibling) :
    ∀ l : List Sibling, insert (f s) (l.map f) = (insert s l).map f
  | [] => rfl
  | t :: rest => by
    rw [List.map_cons, insert, insert, hf, insert_map hf s rest]
    split <;> rfl

/-- **Sorting looks at ranks and names only.** -/
theorem Sibling.sorted_map {f : Sibling → Sibling} (hf : ∀ s t, (f s).le (f t) = s.le t) :
    ∀ l : List Sibling, sorted (l.map f) = (sorted l).map f
  | [] => rfl
  | s :: rest => by
    show insert (f s) (sorted (rest.map f)) = (insert s (sorted rest)).map f
    rw [sorted_map hf rest, insert_map hf]

theorem mapError_unless {α : Type} {r r' : Except Problem α} (h : Disk.SameUnlessLong r r') :
    ResultsUnless Failure.IsLong Eq (r.mapError Failure.disk) (r'.mapError Failure.disk) := by
  cases h with
  | ok he => exact .ok he
  | error => exact .error
  | left he => exact .left (congrArg Failure.disk he)
  | right he => exact .right (congrArg Failure.disk he)

section Folder

variable {p q : Path} {l : Location} {d : Disk} {dirs names : List Text} (h : d.OneFolder p q l)
  (hup : Path.up ∉ names)

include h

theorem category_unless (hup : Path.up ∉ dirs) : ResultsUnless Failure.IsLong Eq
    (Category.read d (p.descend dirs)) (Category.read d (q.descend dirs)) := by
  have hnames : Path.up ∉ dirs ++ [categoryFile] := by simpa using ⟨hup, categoryFile_plain.2.symm⟩
  have hfile := h.seekFile hnames
  rw [← Path.child_descend, ← Path.child_descend] at hfile
  unfold Category.read
  generalize d.seekFile ((p.descend dirs).child categoryFile) = r,
    d.seekFile ((q.descend dirs).child categoryFile) = r' at hfile
  cases hfile with
  | ok he =>
    subst he
    exact .refl _ fun _ => rfl
  | error => exact .error
  | left he => exact .left (congrArg Failure.disk he)
  | right he => exact .right (congrArg Failure.disk he)

theorem groupLabel_unless (hup : Path.up ∉ dirs) (hne : dirs ≠ []) : ResultsUnless Failure.IsLong Eq
    (Category.groupLabel d (p.descend dirs)) (Category.groupLabel d (q.descend dirs)) := by
  unfold Category.groupLabel
  rw [Path.name_descend p hne, Path.name_descend q hne]
  refine (category_unless h hup).bind ?_
  rintro c _ rfl
  exact .ok rfl

theorem rankOf_unless {name : Text} (hup : Path.up ∉ dirs ++ [name])
    (hfind : d.find ((p.descend dirs).child name) = d.find ((q.descend dirs).child name)) (isDirectory : Bool) :
    ResultsUnless Failure.IsLong Eq (rankOf d ((p.descend dirs).child name) isDirectory)
      (rankOf d ((q.descend dirs).child name) isDirectory) := by
  have hread : documentRank d ((p.descend dirs).child name) = documentRank d ((q.descend dirs).child name) := by
    rw [documentRank, documentRank, readDocument, readDocument, Disk.read, Disk.read, hfind]
  unfold rankOf
  rw [Path.name_child, Path.name_child, hread]
  split
  · exact .ok rfl
  · split
    · rw [Path.child_descend, Path.child_descend]
      exact (category_unless h hup).map fun _ _ he => by rw [he]
    · exact .refl _ fun _ => rfl

/-- **An entry is ranked alike** along both paths. -/
theorem siblingAt_unless {name : Text} (hup : Path.up ∉ dirs ++ [name]) :
    ResultsUnless Failure.IsLong (fun s t => t = s.seenFrom (q.descend dirs))
      (siblingAt d ((p.descend dirs).child name)) (siblingAt d ((q.descend dirs).child name)) := by
  have hsame : d.find ((p.descend dirs).child name) = d.find ((q.descend dirs).child name) →
      ResultsUnless Failure.IsLong (fun s t => t = s.seenFrom (q.descend dirs))
        (siblingAt d ((p.descend dirs).child name)) (siblingAt d ((q.descend dirs).child name)) := by
    intro hfind
    have hseek : d.seekDirectory ((p.descend dirs).child name) = d.seekDirectory ((q.descend dirs).child name) := by
      rw [Disk.seekDirectory, Disk.seekDirectory, Disk.seek, Disk.seek, hfind]
    unfold siblingAt
    rw [hseek, Path.name_child, Path.name_child]
    refine ResultsUnless.bind (.refl _ fun _ => rfl) ?_
    rintro isDirectory _ rfl
    refine (rankOf_unless h hup hfind isDirectory).bind ?_
    rintro rank _ rfl
    exact .ok rfl
  -- A path that is too long stops the look at the entry before its rank is read, which would pass over that.
  have hlong : ∀ {x : Path} {problem : Problem}, d.find x = .error problem → problem = .nameTooLong →
      siblingAt d x = .error (.disk problem) := by
    rintro x _ hx rfl
    rw [siblingAt, Disk.seekDirectory, Disk.seek, hx]
    rfl
  have hfind := h.find hup
  rw [← Path.child_descend, ← Path.child_descend] at hfind
  generalize hp : d.find ((p.descend dirs).child name) = r, hq : d.find ((q.descend dirs).child name) = r' at hfind
  cases hfind with
  | ok he => exact hsame (hp.trans ((congrArg Except.ok he).trans hq.symm))
  | error => exact hsame (hp.trans hq.symm)
  | left he =>
    rw [hlong hp he]
    exact .left (congrArg Failure.disk he)
  | right he =>
    rw [hlong hq he]
    exact .right (congrArg Failure.disk he)

theorem rankAll_unless (hup : Path.up ∉ dirs) : ∀ {found : List Text}, (∀ name ∈ found, name ≠ Path.up) →
    ResultsUnless Failure.IsLong (fun s t => t = s.map (·.seenFrom (q.descend dirs)))
      (rankAll d (found.map (p.descend dirs).child)) (rankAll d (found.map (q.descend dirs).child))
  | [], _ => .ok rfl
  | name :: found, hfound => by
    refine (siblingAt_unless h (by simpa using ⟨hup, (hfound name List.mem_cons_self).symm⟩)).bind ?_
    rintro s _ rfl
    refine (rankAll_unless hup fun n hn => hfound n (List.mem_cons_of_mem name hn)).bind ?_
    rintro more _ rfl
    exact .ok rfl

/-- **A folder has the same entries** along both paths, in the same order. -/
theorem siblings_unless (hup : Path.up ∉ dirs) :
    ResultsUnless Failure.IsLong (fun s t => t = s.map (·.seenFrom (q.descend dirs)))
      (siblings d (p.descend dirs)) (siblings d (q.descend dirs)) := by
  have hlist := h.list hup
  unfold siblings
  generalize hp : d.list (p.descend dirs) = r, d.list (q.descend dirs) = r' at hlist
  cases hlist with
  | ok he =>
    subst he
    obtain ⟨m, _, rfl⟩ := Disk.list_eq_ok hp
    refine (rankAll_unless h hup fun name hn => (h.sound.entryName hn).2).map ?_
    rintro raw _ rfl
    exact Sibling.sorted_map (f := (·.seenFrom (q.descend dirs))) (fun _ _ => rfl) raw
  | error => exact .error
  | left he => exact .left (congrArg Failure.disk he)
  | right he => exact .right (congrArg Failure.disk he)

end Folder

/-! ## Jobs -/

/-- **Two worlds on the way of two runs** from one disk: they may differ in their logs. -/
structure Twins (d : Disk) (w w' : World) : Prop where
  disk : w'.disk = w.disk
  written : w'.written = w.written
  grows : ∃ area, d.Grows area w.disk

/-- **Two jobs that do the same** on the way from one disk, unless a path is too long for one of them. -/
abbrev DoSame {α : Type} (d : Disk) (Q : α → α → Prop) (job job' : Job α) : Prop :=
  Action.AgreesUnless Failure.IsLong (Twins d) Q job job'

section Jobs

variable {d : Disk} {α : Type}

theorem doSame_check {Q : α → α → Prop} {f g : Disk → Except Failure α}
    (h : ∀ area e, d.Grows area e → ResultsUnless Failure.IsLong Q (f e) (g e)) :
    DoSame d Q (Job.check f) (Job.check g) := by
  intro w w' hw
  obtain ⟨area, hg⟩ := hw.grows
  have hf := h area w.disk hg
  rw [Job.check, Job.check, hw.disk]
  generalize f w.disk = r, g w.disk = r' at hf
  cases hf with
  | ok hq => exact .alike (.ok hw hq)
  | error => exact .alike (.error hw rfl)
  | left he => exact .left he
  | right he => exact .right he

/-- **The same change** does the same, if all that it does is to write. -/
theorem doSame_onDisk (hs : d.Sound) {P : Disk → Path → Prop} {c : Change α} (hc : Action.Keeps (Disk.Wrote P) c) :
    DoSame d Eq (Job.onDisk c) (Job.onDisk c) := by
  intro w w' hw
  obtain ⟨area, hg⟩ := hw.grows
  have hgrows := Disk.exists_grows_trans ⟨area, hg⟩ ⟨_, hc w.disk (hg.sound hs)⟩
  rw [Job.onDisk, Job.onDisk, hw.disk]
  generalize c w.disk = r at hgrows
  obtain ⟨_ | a, e⟩ := r
  · exact .alike (.error ⟨rfl, hw.written, hgrows⟩ rfl)
  · exact .alike (.ok ⟨rfl, hw.written, hgrows⟩ rfl)

theorem doSame_tell {level : Level} {teller : String} {message message' : Text} :
    DoSame d Eq (Job.tell level teller message) (Job.tell level teller message') :=
  fun _ _ hw => .alike (.ok ⟨hw.disk, hw.written, hw.grows⟩ rfl)

theorem doSame_emit (e : Emission) : DoSame d Eq (Job.emit e) (Job.emit e) :=
  fun _ _ hw => .alike (.ok ⟨hw.disk, congrArg (· ++ [e]) hw.written, hw.grows⟩ rfl)

end Jobs

/-! ## Pages and folders -/

variable {p q output : Path} {l : Location} {d : Disk} {dirs : List Text} {convert : Converter}

section Walk

variable (h : d.OneFolder p q l)

include h

/-- **A page is written alike** from the document along both paths. -/
theorem doSame_writePage (hp : output.Proper) (hdirs : ∀ name ∈ dirs, IsEntryName name) {name : Text}
    (hname : IsEntryName name) (label : Option Text) :
    DoSame d Eq (writePage convert output ((p.descend dirs).child name) (Text.join ['/'] dirs) label)
      (writePage convert output ((q.descend dirs).child name) (Text.join ['/'] dirs) label) := by
  have hnames : ∀ n ∈ dirs ++ [name], IsEntryName n :=
    List.forall_mem_append.2 ⟨hdirs, List.forall_mem_singleton.2 hname⟩
  have htarget : (targetAt output (dirs ++ [name])).Proper := by
    refine proper_descend hp (Address.target_entryNames ?_ ?_)
    · rwa [Address.folders_append]
    · rw [Address.file_append]
      exact hname.1.2
  unfold writePage
  simp only [Path.name_child, targetPath_join output hdirs hname.1.2]
  refine Action.AgreesUnless.bind (Q := Eq) (doSame_check fun area e hg => ?_) ?_
  · rw [Path.child_descend, Path.child_descend]
    exact mapError_unless (((h.of_grows hg).read (not_mem_up hnames)).map fun _ _ he => congrArg documentText he)
  rintro raw _ rfl
  refine Action.AgreesUnless.bind (doSame_onDisk h.sound (P := fun _ _ => False) fun d => ?_) fun _ _ _ => ?_
  · exact (makeDirectories_grows true htarget.parent d).wrote
  refine Action.AgreesUnless.bind (doSame_onDisk h.sound (write_wrote htarget _)) fun _ _ _ => ?_
  exact (doSame_emit _).bind fun _ _ _ => doSame_tell.bind fun _ _ _ => .pure rfl

/-- **One entry of a folder**, seen along both paths. -/
structure SameEntry (p q : Path) (dirs : List Text) (s t : Sibling) : Prop where
  seen : t = s.seenFrom (q.descend dirs)
  path : s.path = (p.descend dirs).child s.name
  name : IsEntryName s.name

theorem doSame_siblings (hdirs : ∀ name ∈ dirs, IsEntryName name) :
    DoSame d (List.Forall₂ (SameEntry p q dirs)) (Job.check fun d => siblings d (p.descend dirs))
      (Job.check fun d => siblings d (q.descend dirs)) := by
  refine doSame_check fun area e hg => ?_
  have hd := h.of_grows hg
  have hsame := siblings_unless hd (not_mem_up hdirs)
  generalize hp : siblings e (p.descend dirs) = r, siblings e (q.descend dirs) = r' at hsame
  cases hsame with
  | ok he =>
    subst he
    refine .ok (List.forall₂_map_right_iff.2 (List.forall₂_same.2 fun s hs => ?_))
    obtain ⟨hpath, hname⟩ := path_of_siblings hd.sound hp hs
    exact ⟨rfl, hpath, hname⟩
  | error => exact .error
  | left he => exact .left he
  | right he => exact .right he

theorem doSame_addSibling (hp : output.Proper) (hdirs : ∀ name ∈ dirs, IsEntryName name) {s t : Sibling}
    (hs : SameEntry p q dirs s t) {below : Path → Text → Job Nav.Group}
    (hbelow : DoSame d Eq (below s.path (Text.join ['/'] (dirs ++ [s.name])))
      (below t.path (Text.join ['/'] (dirs ++ [s.name])))) (label : Text) (g : Nav.Group) :
    DoSame d Eq (addSibling convert output below (Text.join ['/'] dirs) label g s)
      (addSibling convert output below (Text.join ['/'] dirs) label g t) := by
  obtain ⟨rfl, hpath, hname⟩ := hs
  rw [hpath] at hbelow
  have hrelative : joinPaths (Text.join ['/'] dirs) s.name = Text.join ['/'] (dirs ++ [s.name]) :=
    joinPaths_join dirs (fun hc => hname.1.2 (List.mem_of_head? hc)) fun n hn => (hdirs n hn).1
  unfold addSibling
  rw [Sibling.seenFrom_isDirectory, Sibling.seenFrom_isPage, Sibling.seenFrom_path, Sibling.seenFrom_name, hpath,
    hrelative]
  split
  · refine hbelow.bind ?_
    rintro child _ rfl
    exact .pure rfl
  · split
    · refine (doSame_writePage h hp hdirs hname (some label)).bind ?_
      rintro slug _ rfl
      dsimp only
      split
      · exact doSame_tell.bind fun _ _ _ => .pure rfl
      · exact .pure rfl
    · exact .pure rfl

/-- **A folder is walked alike** along both paths. -/
theorem doSame_walkWithin (hp : output.Proper) : ∀ (depth : Nat) {dirs : List Text},
    (∀ name ∈ dirs, IsEntryName name) → dirs ≠ [] →
    DoSame d Eq (walkWithin convert output depth (p.descend dirs) (Text.join ['/'] dirs))
      (walkWithin convert output depth (q.descend dirs) (Text.join ['/'] dirs))
  | 0, _, _, _ => fun _ _ hw => .alike (.error hw rfl)
  | depth + 1, dirs, hdirs, hne => by
    unfold walkWithin
    refine Action.AgreesUnless.bind (Q := Eq)
      (doSame_check fun area e hg => groupLabel_unless (h.of_grows hg) (not_mem_up hdirs) hne) ?_
    rintro label _ rfl
    refine (doSame_siblings h hdirs).bind fun entries entries' hentries => ?_
    refine Action.AgreesUnless.foldlM (R := SameEntry p q dirs) (P := Eq) ?_ (fun s _ t g g' hs hg => ?_) rfl
    · refine List.rel_filter (fun s t hs => ?_) hentries
      rw [hs.seen]
      exact Iff.rfl
    · subst hg
      have hnames : ∀ n ∈ dirs ++ [s.name], IsEntryName n :=
        List.forall_mem_append.2 ⟨hdirs, List.forall_mem_singleton.2 hs.name⟩
      refine doSame_addSibling h hp hdirs hs ?_ label g
      rw [hs.path, hs.seen, Sibling.seenFrom_path, Path.child_descend, Path.child_descend]
      exact doSame_walkWithin hp depth hnames (by simp)

theorem doSame_walk (hp : output.Proper) (hdirs : ∀ name ∈ dirs, IsEntryName name) (hne : dirs ≠ []) :
    DoSame d Eq (walk convert output (p.descend dirs) (Text.join ['/'] dirs))
      (walk convert output (q.descend dirs) (Text.join ['/'] dirs)) := by
  unfold walk
  refine Action.AgreesUnless.bind (Q := Eq) (fun w w' hw => ?_) ?_
  · rw [Job.look, Job.look, hw.disk]
    exact .alike (.ok hw rfl)
  · rintro depth _ rfl
    exact doSame_walkWithin h hp depth hdirs hne

/-! ## The whole site -/

theorem doSame_addEntry (hp : output.Proper) (c : Classifier) {s t : Sibling} (hs : SameEntry p q [] s t)
    (b : Buckets) : DoSame d Eq (addEntry convert output c b s) (addEntry convert output c b t) := by
  obtain ⟨rfl, hpath, hname⟩ := hs
  have hskip : isSkipped (s.seenFrom (q.descend [])) = isSkipped s := rfl
  unfold addEntry
  rw [hskip]
  split
  · exact .pure rfl
  · rw [Sibling.seenFrom_isDirectory, Sibling.seenFrom_isPage, Sibling.seenFrom_path, hpath, Path.child_descend,
      Path.child_descend, Sibling.seenFrom_name]
    split
    · have hwalk : DoSame d Eq (walk convert output (p.descend [s.name]) s.name)
          (walk convert output (q.descend [s.name]) s.name) := doSame_walk h hp (by simpa using hname) (by simp)
      refine Action.AgreesUnless.bind (Q := Eq) hwalk ?_
      rintro g _ rfl
      exact .pure rfl
    · split
      · have hpage : DoSame d Eq (writePage convert output ((p.descend []).child s.name) [] _)
            (writePage convert output ((q.descend []).child s.name) [] _) :=
          doSame_writePage h hp (by simp) hname (some gettingStartedLabel)
        rw [Path.child_descend, Path.child_descend] at hpage
        refine hpage.bind ?_
        rintro slug _ rfl
        exact .pure rfl
      · exact .pure rfl

/-- **A site is assembled alike** along both paths. -/
theorem doSame_assemble (hp : output.Proper) (c : Classifier) :
    DoSame d Eq (assemble convert output c p) (assemble convert output c q) := by
  unfold assemble
  have hlist : DoSame d (List.Forall₂ (SameEntry p q [])) (Job.check fun d => siblings d (p.descend []))
      (Job.check fun d => siblings d (q.descend [])) := doSame_siblings h (by simp)
  rw [Path.descend_nil, Path.descend_nil] at hlist
  refine hlist.bind fun entries entries' hentries => ?_
  refine Action.AgreesUnless.foldlM hentries (fun s _ t b b' hs hb => ?_) rfl
  subst hb
  exact doSame_addEntry h hp c hs b

end Walk
end DocFerry.Site
