import DocFerry.Command.Reach
import DocFerry.Proofs.Site.CategoryFile
import DocFerry.Proofs.Site.Failing
import DocFerry.Proofs.Site.Rerun
/-!
# Runs that are rejected

Whatever a run builds never fails for want of documents or because the output folder would hold them
(`build_never_rejects`), so such a failure comes from the checks at the start, before anything is changed.  A run fails
for want of documents exactly if none of the places where they may be is a directory, and because of its output folder
exactly if the documents are found at or below the place to which the path of that folder resolves
(`run_rejected_iff`).  A path that is looked up and is too long for the file system stops the run before either is
known (`long_path_hides_rejection`).
-/
namespace DocFerry.Site

open Files Nav

variable {d : Disk}

/-! ## Failures of what is built -/

/-- **Failures for want of documents.** -/
def Failure.isNoDocs : Failure → Bool
  | .docsMissing _ | .docsNotFound => true
  | _ => false

/-- **Failures that reject a run** before it has changed anything. -/
def Failure.isRejection : Failure → Bool
  | .overlap _ => true
  | failure => failure.isNoDocs

/-- **Neither the file system nor a folder's metadata** rejects a run. -/
theorem admits_no_rejection (root : Path) : Admits root fun failure _ => failure.isRejection = false where
  disk _ _ := rfl
  category dirs w failure hread := by
    rcases Category.read_eq_error hread with ⟨bytes, _, hrefuses⟩ | ⟨problem, rfl, _⟩
    · cases hrefuses <;> rfl
    · rfl

/-- **What a run builds is never rejected.** -/
theorem build_never_rejects (s : Settings) (docs : Path) (static : Option Path) :
    Action.FailsIn (fun failure _ => failure.isRejection = false) (s.build docs static) :=
  (admits_no_rejection docs).build s static

/-! ## The folders of a run -/

/-- **The paths that a search for a directory looks up**: up to the first one that is a directory. -/
def lookedUp (d : Disk) : List Path → List Path
  | [] => []
  | p :: rest => if d.isDirectory p then [p] else p :: lookedUp d rest

/-- **Where the documents may be**: where the settings say, or else at the places where they are looked for. -/
def Settings.docsPlaces (s : Settings) : List Path := Command.candidates s.searchRoot s.docs "docs"

/-- **Where the assets may be.** -/
def Settings.staticPlaces (s : Settings) : List Path := Command.candidates s.searchRoot s.static "static"

/-- **The paths that a run looks up to find its folders**: it looks for assets only once it has found documents. -/
def Settings.lookups (s : Settings) (d : Disk) : List Path :=
  lookedUp d s.docsPlaces ++ if s.docsPlaces.any d.isDirectory then lookedUp d s.staticPlaces else []

/-- **How a run fails that finds no documents.** -/
def Settings.noDocs (s : Settings) : Failure := s.docs.elim .docsNotFound .docsMissing

theorem Settings.isNoDocs_noDocs (s : Settings) : s.noDocs.isNoDocs = true := by
  unfold Settings.noDocs
  cases s.docs <;> rfl

theorem seekDirectory_of_short {p : Path} (h : d.find p ≠ .error .nameTooLong) :
    d.seekDirectory p = .ok (d.isDirectory p) := by
  rw [Disk.seekDirectory, Disk.seek, Disk.isDirectory, Disk.at?]
  cases hf : d.find p with
  | ok place => rfl
  | error problem =>
    cases problem with
    | nameTooLong => exact absurd hf h
    | _ => rfl

theorem firstThat_of_short : ∀ {places : List Path}, (∀ p ∈ lookedUp d places, d.find p ≠ .error .nameTooLong) →
    Disk.firstThat d.seekDirectory places = .ok (places.find? d.isDirectory)
  | [], _ => rfl
  | p :: rest, h => by
    rw [lookedUp] at h
    rw [Disk.firstThat, List.find?_cons]
    by_cases hp : d.isDirectory p = true
    · rw [if_pos hp] at h
      rw [seekDirectory_of_short (h p List.mem_cons_self), hp]
      rfl
    · rw [if_neg hp] at h
      have hrest := firstThat_of_short fun q hq => h q (List.mem_cons_of_mem p hq)
      rw [seekDirectory_of_short (h p List.mem_cons_self), Bool.eq_false_iff.2 hp, ← hrest]
      rfl

theorem firstThat_of_long : ∀ {places : List Path}, (∃ p ∈ lookedUp d places, d.find p = .error .nameTooLong) →
    Disk.firstThat d.seekDirectory places = .error .nameTooLong
  | [], h => by
    obtain ⟨p, hp, _⟩ := h
    cases hp
  | p :: rest, h => by
    rw [Disk.firstThat]
    by_cases hlong : d.find p = .error .nameTooLong
    · rw [Disk.seekDirectory, Disk.seek, hlong]
      rfl
    · obtain ⟨q, hq, hqlong⟩ := h
      rw [seekDirectory_of_short hlong]
      rw [lookedUp] at hq
      split at hq
      · rw [List.mem_singleton.1 hq] at hqlong
        exact absurd hqlong hlong
      · rename_i hp
        have hrest := firstThat_of_long ⟨q, (List.mem_cons.1 hq).resolve_left fun hqp => hlong (hqp ▸ hqlong), hqlong⟩
        rw [Bool.eq_false_iff.2 hp, ← hrest]
        rfl

/-- **The documents are searched for** where they may be, given or not. -/
theorem docsFolder_eq (s : Settings) (d : Disk) : docsFolder d s.searchRoot s.docs =
    match Disk.firstThat d.seekDirectory s.docsPlaces with
      | .ok (some docs) => .ok docs
      | .ok none => .error s.noDocs
      | .error problem => .error (.disk problem) := by
  unfold docsFolder Settings.docsPlaces Command.candidates Settings.noDocs
  cases s.docs with
  | none =>
    dsimp only
    rw [findFolder]
    rcases Disk.firstThat d.seekDirectory _ with problem | _ | docs <;> rfl
  | some p =>
    dsimp only
    rw [Disk.firstThat]
    rcases d.seekDirectory p with problem | _ | _ <;> rfl

theorem staticFolder_eq (s : Settings) (d : Disk) :
    staticFolder d s.searchRoot s.static = Disk.firstThat d.seekDirectory s.staticPlaces := by
  unfold staticFolder Settings.staticPlaces Command.candidates
  cases s.static with
  | none => rfl
  | some p =>
    dsimp only
    rw [Disk.firstThat]
    rcases d.seekDirectory p with problem | _ | _ <;> rfl

/-- **A path that is looked up is too long** for the file system. -/
def Settings.TooLong (s : Settings) (d : Disk) : Prop := ∃ p ∈ s.lookups d, d.find p = .error .nameTooLong

/-- **The folders of a run** are the first directories among the places where they may be. -/
theorem folders_of_short {s : Settings} (h : ¬ s.TooLong d) :
    s.folders d = match s.docsPlaces.find? d.isDirectory with
      | some docs => .ok (docs, s.staticPlaces.find? d.isDirectory)
      | none => .error s.noDocs := by
  have hshort : ∀ p ∈ s.lookups d, d.find p ≠ .error .nameTooLong := fun p hp hlong => h ⟨p, hp, hlong⟩
  unfold Settings.lookups at hshort
  unfold Settings.folders
  rw [docsFolder_eq, firstThat_of_short fun p hp => hshort p (List.mem_append_left _ hp)]
  cases hfound : s.docsPlaces.find? d.isDirectory with
  | none => rfl
  | some docs =>
    have hany : s.docsPlaces.any d.isDirectory = true :=
      List.any_eq_true.2 ⟨docs, List.mem_of_find?_eq_some hfound, List.find?_some hfound⟩
    rw [if_pos hany] at hshort
    rw [staticFolder_eq, firstThat_of_short fun p hp => hshort p (List.mem_append_right _ hp)]
    rfl

theorem folders_of_long {s : Settings} (h : s.TooLong d) : s.folders d = .error (.disk .nameTooLong) := by
  unfold Settings.folders
  rw [docsFolder_eq]
  by_cases hdocs : ∃ p ∈ lookedUp d s.docsPlaces, d.find p = .error .nameTooLong
  · rw [firstThat_of_long hdocs]
    rfl
  · -- It is a place of the assets then, which are looked for only because there are documents.
    obtain ⟨p, hp, hlong⟩ := h
    unfold Settings.lookups at hp
    rcases List.mem_append.1 hp with hp | hp
    · exact absurd ⟨p, hp, hlong⟩ hdocs
    · split at hp
      · rename_i hany
        obtain ⟨docs, hmem, hdir⟩ := List.any_eq_true.1 hany
        rw [firstThat_of_short fun q hq hqlong => hdocs ⟨q, hq, hqlong⟩, staticFolder_eq,
          firstThat_of_long ⟨p, hp, hlong⟩]
        cases hfound : s.docsPlaces.find? d.isDirectory with
        | none => exact absurd hdir (List.find?_eq_none.1 hfound docs hmem)
        | some _ => rfl
      · cases hp

/-! ## Rejected runs -/

theorem directory_of_walks (htree : d.IsTree) {k : Nat} {base : Location} {names : List Text} {place : Place}
    (h : Walks d k base names place) (hbase : d.locate? base = some .directory) (he : place.entry = some .directory) :
    d.locate? place.location = some .directory := by
  induction h with
  | stay => exact hbase
  | @up _ base _ _ _ ih =>
    refine ih ?_ he
    rcases List.eq_nil_or_concat base with rfl | ⟨front, name, rfl⟩
    · exact hbase
    · rw [List.concat_eq_append] at hbase ⊢
      rw [List.dropLast_concat]
      exact htree.closed _ _ _ hbase
  | into _ hd _ ih => exact ih hd he
  | follow _ _ _ ih =>
    refine ih ?_ he
    unfold linkStart
    split
    · exact Disk.locate?_root d
    · exact hbase
  | file => cases he
  | absent => cases he

/-- **A directory that is found resolves to its place.** -/
theorem resolve_of_directory (htree : d.IsTree) {p : Path} {l : Location} (hf : d.find p = .ok ⟨l, some .directory⟩) :
    d.resolve p = .ok l := by
  have hsettle : d.settle p = l := Disk.settle_of_find (.refl d) htree.sound.up_not_mem_here hf
  obtain ⟨hr, hw⟩ := Disk.walks_of_find hf
  have hstart : d.locate? (d.start p) = some .directory := by
    unfold Disk.start
    split
    · exact Disk.locate?_root d
    · exact htree.here
  have hat := directory_of_walks htree hw hstart rfl
  have hloop : d.find (.rooted l) ≠ .error .linkLoop := by
    cases hlong : refusal? (.rooted l) with
    | some problem =>
      rw [Disk.find, hlong]
      rcases Disk.refusal?_eq_some hlong with rfl | rfl <;> simp
    | none =>
      have hwalk : d.walkLinks Disk.maxLinks [] l = .ok ⟨[] ++ l, some .directory⟩ := by
        rw [walkLinks_eq]
        refine Disk.walk_of_directories d _ [] l (not_mem_up (htree.sound.names _ _ hat)) fun k _ _ => ?_
        rw [List.nil_append]
        by_cases hk : l.drop k = []
        · rwa [← List.append_nil (l.take k), ← hk, List.take_append_drop]
        · exact htree.directory_above _ _ hk (by rw [List.take_append_drop]; exact hat)
      have hfind : d.find (.rooted l) = .ok ⟨[] ++ l, some .directory⟩ := by
        rw [Disk.find, hlong]
        exact hwalk
      simp [hfind]
  unfold Disk.resolve
  rw [hsettle, hr]
  dsimp only
  split
  · rename_i h
    cases h
  · rename_i hfind _
    exact absurd hfind hloop
  · rfl

/-- **No documents are there**: none of the places where they may be is a directory. -/
def Settings.LacksDocs (s : Settings) (d : Disk) : Prop := ∀ p ∈ s.docsPlaces, d.isDirectory p = false

/-- **The output folder would hold the documents**: the path of the folder resolves to a place at or above the first
directory where documents may be. -/
def Settings.HoldsDocs (s : Settings) (d : Disk) : Prop :=
  ∃ docs l outer, s.docsPlaces.find? d.isDirectory = some docs ∧ d.find docs = .ok ⟨l, some .directory⟩ ∧
    d.resolve s.output = .ok outer ∧ outer <+: l

theorem overlaps_eq_true_iff {docs output : Path} {l : Location} (hdocs : d.resolve docs = .ok l) :
    overlaps d docs output = .ok true ↔ ∃ outer, d.resolve output = .ok outer ∧ outer <+: l := by
  unfold overlaps
  rw [hdocs]
  cases d.resolve output with
  | error problem => simp [bind, Except.bind]
  | ok outer => simp [bind, Except.bind, pure, Except.pure, List.isPrefixOf_iff_prefix]

/-- **How a run that finds its folders fails with a rejection**: it would hold the documents. -/
theorem run_rejected {s : Settings} {docs : Path} {static : Option Path} {failure : Failure} {w w' : World}
    (hfolders : s.folders w.disk = .ok (docs, static)) (hrun : s.run w = (.error failure, w'))
    (hf : failure.isRejection = true) : overlaps w.disk docs s.output = .ok true ∧ failure = .overlap s.output := by
  rw [run_eq hfolders] at hrun
  split at hrun
  · cases hrun
    cases hf
  · rename_i hover
    cases hrun
    exact ⟨hover, rfl⟩
  · split at hrun
    · rw [build_never_rejects s docs static _ _ _ hrun] at hf
      cases hf
    · cases hrun
      cases hf

theorem Failure.isRejection_of_isNoDocs {failure : Failure} (h : failure.isNoDocs = true) :
    failure.isRejection = true := by
  cases failure <;> first | exact h | rfl

/-- **A run is rejected exactly when it should be, and then touches nothing.**  It fails for want of documents exactly
if no directory is where they may be, and because of its output folder exactly if that would hold them; and then the
disk is as it was.  Only where a path that is looked up is too long does it fail with that instead, and touches nothing
either. -/
theorem run_rejected_iff {s : Settings} {w : World} (htree : w.disk.IsTree) :
    (¬ s.TooLong w.disk →
      ((∃ failure, (s.run w).1 = .error failure ∧ failure.isNoDocs = true) ↔ s.LacksDocs w.disk) ∧
      ((∃ output, (s.run w).1 = .error (.overlap output)) ↔ s.HoldsDocs w.disk)) ∧
    (s.TooLong w.disk → s.run w = (.error (.disk .nameTooLong), w)) ∧
    ∀ failure, (s.run w).1 = .error failure → failure.isRejection = true →
      (failure = s.noDocs ∨ failure = .overlap s.output) ∧ (s.run w).2.disk = w.disk := by
  refine ⟨fun hshort => ?_, fun hlong => run_of_no_docs (folders_of_long hlong), fun failure hfails hf => ?_⟩
  · have hfolders := folders_of_short hshort
    cases hfound : s.docsPlaces.find? w.disk.isDirectory with
    | none =>
      rw [hfound] at hfolders
      have hlacks : s.LacksDocs w.disk := fun p hp => by simpa using List.find?_eq_none.1 hfound p hp
      have hrun := run_of_no_docs hfolders
      rw [hrun]
      refine ⟨⟨fun _ => hlacks, fun _ => ⟨_, rfl, s.isNoDocs_noDocs⟩⟩, ?_, ?_⟩
      · rintro ⟨output, h⟩
        have hno := s.isNoDocs_noDocs
        rw [Except.error.inj h] at hno
        cases hno
      · rintro ⟨docs, _, _, hsome, _⟩
        rw [hfound] at hsome
        cases hsome
    | some docs =>
      rw [hfound] at hfolders
      obtain ⟨l, hl⟩ := isDirectory_iff.1 (List.find?_some hfound)
      have hiff : overlaps w.disk docs s.output = .ok true ↔ s.HoldsDocs w.disk := by
        rw [overlaps_eq_true_iff (resolve_of_directory htree hl)]
        constructor
        · rintro ⟨outer, houter, hin⟩
          exact ⟨docs, l, outer, hfound, hl, houter, hin⟩
        · rintro ⟨docs', l', outer, hfound', hl', houter, hin⟩
          cases hfound.symm.trans hfound'
          cases hl.symm.trans hl'
          exact ⟨outer, houter, hin⟩
      refine ⟨⟨?_, fun hlacks => ?_⟩, ?_, fun hholds => ?_⟩
      · rintro ⟨failure, h, hno⟩
        have hf := Failure.isRejection_of_isNoDocs hno
        rw [(run_rejected hfolders (Prod.ext h rfl) hf).2] at hno
        cases hno
      · have hdir := hlacks docs (List.mem_of_find?_eq_some hfound)
        rw [isDirectory_iff.2 ⟨l, hl⟩] at hdir
        cases hdir
      · rintro ⟨output, h⟩
        exact hiff.1 (run_rejected hfolders (Prod.ext h rfl) rfl).1
      · exact ⟨s.output, by rw [run_eq hfolders, hiff.2 hholds]⟩
  · cases hfolders : s.folders w.disk with
    | error failure' =>
      rw [run_of_no_docs hfolders] at hfails ⊢
      cases hfails
      by_cases hlong : s.TooLong w.disk
      · rw [folders_of_long hlong] at hfolders
        cases hfolders
        cases hf
      · rw [folders_of_short hlong] at hfolders
        split at hfolders
        · cases hfolders
        · cases hfolders
          exact ⟨.inl rfl, rfl⟩
    | ok found =>
      obtain ⟨docs, static⟩ := found
      obtain ⟨htrue, rfl⟩ := run_rejected hfolders (Prod.ext hfails rfl) hf
      rw [run_eq hfolders, htrue]
      exact ⟨.inr rfl, rfl⟩

theorem run_rejected_iff_givenSite :
    (∃ output, ((givenSettings (.word "static/nope/../../../a/..")).run { disk := givenSite [] }).1 =
      .error (.overlap output)) ∧
    ((givenSettings (.word "static/nope/../../../a/..")).run { disk := givenSite [] }).2.disk = givenSite [] := by
  have hshort : ¬ (givenSettings (.word "static/nope/../../../a/..")).TooLong (givenSite []) := by
    unfold Settings.TooLong
    decide
  have hholds : (givenSettings (.word "static/nope/../../../a/..")).HoldsDocs (givenSite []) :=
    ⟨.word "docs", ["docs".toList], [], by decide, by decide, by decide, by decide⟩
  obtain ⟨hiff, _, hrejected⟩ := run_rejected_iff (s := givenSettings (.word "static/nope/../../../a/.."))
    (w := { disk := givenSite [] }) (givenSite_holds (.inl rfl)).plain.toIsTree
  obtain ⟨output, hfails⟩ := (hiff hshort).2.2 hholds
  exact ⟨⟨output, hfails⟩, (hrejected _ hfails rfl).2⟩

/-- **A name that is too long** for the file system. -/
def longName : Path := { names := [List.replicate 256 'a'] }

/-- **A path that is too long hides a rejection**: it is no directory of documents, but the run fails for its length;
and as the path of the assets it is looked up before the output folder is compared with the documents. -/
theorem long_path_hides_rejection :
    (givenSite []).IsTree ∧
      ((givenSite []).isDirectory longName = false ∧
        failure? (Settings.run { docs := some longName } { disk := givenSite [] }).1 = some (.disk .nameTooLong)) ∧
      Settings.HoldsDocs { output := .word ".", docs := some (.word "docs"), static := some longName }
        (givenSite []) ∧
      failure? (Settings.run { output := .word ".", docs := some (.word "docs"), static := some longName }
        { disk := givenSite [] }).1 = some (.disk .nameTooLong) := by
  refine ⟨(givenSite_holds (.inl rfl)).plain.toIsTree, ⟨by decide +kernel, by decide +kernel⟩, ?_, by decide +kernel⟩
  exact ⟨.word "docs", ["docs".toList], [], by decide, by decide, by decide, by decide⟩

end DocFerry.Site
