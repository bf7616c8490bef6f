import DocFerry.Proofs.Site.CategoryFile
import DocFerry.Proofs.Site.Failing
import DocFerry.Proofs.Site.Navigation
import DocFerry.Proofs.Site.Rerun
/-!
# What a folder's metadata file can do to a run

The content of a metadata file makes a listing, a walk or a run fail in three cases only, and then the file lies in a
folder at or below the one that is listed or walked (`metadata_refused_only`).  In these cases it does stop the run
(`huge_position_stops_run`).
-/
namespace DocFerry.Site

open Files Nav

/-- **Failures for the content of a folder's metadata file.** -/
def Failure.isOfMetadata : Failure → Bool
  | .whole (.longText _) | .deepData _ | .hugePosition => true
  | _ => false

/-- **A failure for metadata is that of a file** in a folder at or below a place, on the disk that is left. -/
def BlamesFile (root : Path) (failure : Failure) (w : World) : Prop :=
  failure.isOfMetadata = true → ∃ dirs, StopsAt w.disk (root.descend dirs) failure

theorem admits_blamesFile (root : Path) : Admits root (BlamesFile root) where
  disk _ _ h := by cases h
  category dirs w failure hread hmetadata := by
    rcases Category.read_eq_error hread with hstop | ⟨problem, rfl, _⟩
    · exact ⟨dirs, hstop⟩
    · cases hmetadata

/-- **A search for folders** does not fail for metadata. -/
theorem not_isOfMetadata_of_folders {s : Settings} {d : Disk} {failure : Failure} (h : s.folders d = .error failure) :
    failure.isOfMetadata = false := by
  have hdisk : ∀ {α : Type} {x : Except Problem α}, x.mapError .disk = .error failure →
      failure.isOfMetadata = false := by
    intro α x hx
    cases x <;> cases hx
    rfl
  rcases bind_eq_error h with h | ⟨docs, _, h⟩
  · unfold docsFolder at h
    split at h
    · rcases bind_eq_error h with h | ⟨found, _, h⟩
      · exact hdisk h
      · split at h <;> cases h
        rfl
    · rcases bind_eq_error h with h | ⟨found, _, h⟩
      · exact hdisk h
      · split at h <;> cases h
        rfl
  · rcases bind_eq_error h with h | ⟨static, _, h⟩
    · exact hdisk h
    · cases h

/-- **A run that fails for metadata** has found its documents, and a file at or below them is to blame. -/
theorem blamesFile_of_run {s : Settings} {failure : Failure} {w w' : World} (h : s.run w = (.error failure, w'))
    (hmetadata : failure.isOfMetadata = true) : ∃ docs static dirs, s.folders w.disk = .ok (docs, static) ∧
      StopsAt w'.disk (docs.descend dirs) failure := by
  cases hfolders : s.folders w.disk with
  | error failure' =>
    rw [run_of_no_docs hfolders] at h
    cases h
    rw [not_isOfMetadata_of_folders hfolders] at hmetadata
    cases hmetadata
  | ok found =>
    obtain ⟨docs, static⟩ := found
    have hbuild : BlamesFile docs failure w' := by
      rw [run_eq hfolders] at h
      split at h
      · cases h
        cases hmetadata
      · cases h
        cases hmetadata
      · split at h
        · exact (admits_blamesFile docs).build s static _ _ _ h
        · cases h
          cases hmetadata
    obtain ⟨dirs, hstop⟩ := hbuild hmetadata
    exact ⟨docs, static, dirs, rfl, hstop⟩

/-- **Folder metadata is soft but for three contents.**  The content of a metadata file is refused exactly for a whole
number of more than 4300 digits, for too many levels of brackets, and for a position beyond every binary number; of
every other content each field is taken exactly if it is as it should be, and none unless it is an object.  A folder's
metadata is read accordingly, whatever its file holds, unless the file system refuses the path itself.  And a listing,
a walk or a run that fails for metadata does so because of a file with such a content, in a folder at or below the one
that is listed or walked. -/
theorem metadata_refused_only (bytes : Text.Utf8.Octets) (directory : Path) (s : Settings) (w : World) :
    (∀ failure, Category.ofBytes bytes = .error failure ↔ Category.Refuses bytes failure) ∧
    (∀ digits, Category.Refuses bytes (.whole (.longText digits)) → ∃ text, strictText? bytes = some text ∧
      ∃ run, run <:+: text ∧ run.length = digits ∧ 4300 < digits ∧ ∀ c ∈ run, c.isDigit = true) ∧
    (∀ isObject, Category.Refuses bytes (.deepData isObject) → ∃ text, strictText? bytes = some text ∧
      Json.mostLevels < text.countP Json.isOpening) ∧
    (∀ c, Category.ofBytes bytes = .ok c → Category.Describes (Category.fieldsOf? bytes) c) ∧
    (∀ c, Category.read w.disk directory = .ok c →
      w.disk.seekFile (directory.child categoryFile) = .ok none ∧ c = {} ∨
        ∃ bytes, w.disk.read (directory.child categoryFile) = .ok bytes ∧
          Category.Describes (Category.fieldsOf? bytes) c) ∧
    (∀ failure, Category.read w.disk directory = .error failure → StopsAt w.disk directory failure ∨
      ∃ problem, failure = .disk problem ∧ w.disk.seekFile (directory.child categoryFile) = .error problem) ∧
    (∀ failure, siblings w.disk directory = .error failure → BlamesFile directory failure w) ∧
    (∀ convert output relative failure w', walk convert output directory relative w = (.error failure, w') →
      BlamesFile directory failure w') ∧
    (∀ failure w', s.run w = (.error failure, w') → failure.isOfMetadata = true →
      ∃ docs static dirs, s.folders w.disk = .ok (docs, static) ∧
        StopsAt w'.disk (docs.descend dirs) failure) := by
  refine ⟨fun failure => Category.ofBytes_eq_error_iff, ?_, ?_, fun c => Category.describes_of_ofBytes,
    fun c => Category.read_eq_ok, fun failure => Category.read_eq_error, (admits_blamesFile directory).siblings w, ?_,
    fun failure w' => blamesFile_of_run⟩
  · intro digits hrefuses
    cases hrefuses with
    | longInteger htext hrefused =>
      obtain ⟨hlong, run, hin, hlength, hdigits⟩ := Json.parse_eq_error hrefused
      exact ⟨_, htext, run, hin, hlength, hlong, hdigits⟩
  · intro isObject hrefuses
    cases hrefuses with
    | tooDeep htext hrefused => exact ⟨_, htext, Json.parse_eq_error hrefused⟩
  · intro convert output relative failure w' hwalk
    have h := (admits_blamesFile directory).walk convert output [] relative
    rw [Path.descend_nil] at h
    exact h w failure w' hwalk

/-- **A metadata file with a position of five hundred digits.** -/
def hugePosition : Text.Utf8.Octets :=
  Text.Utf8.encode ("\x7b\"position\": 1".toList ++ List.replicate 499 '0' ++ ['\x7d'])

/-- **A site with such a file** in a folder of its documents. -/
def hugeSite : Disk where
  entries := [(["docs"], .directory), (["docs", "g"], .directory), (["docs", "g", "_category_.json"],
    .file hugePosition), (["docs", "g", "a.md"], .file [0x61])].map fun e => (e.1.map String.toList, e.2)

theorem metadata_refused_only_hugeSite : ∃ failure w', plainSettings.run { disk := hugeSite } = (.error failure, w') ∧
    failure.isOfMetadata = true ∧ ∃ docs static dirs, plainSettings.folders hugeSite = .ok (docs, static) ∧
      StopsAt w'.disk (docs.descend dirs) failure := by
  obtain ⟨_, _, _, _, _, _, _, _, hblames⟩ :=
    metadata_refused_only hugePosition (.word "docs") plainSettings { disk := hugeSite }
  have hfails : (failure? (plainSettings.run { disk := hugeSite }).1).any Failure.isOfMetadata = true := by
    decide +kernel
  rcases hrun : plainSettings.run { disk := hugeSite } with ⟨failure | o, w'⟩ <;> rw [hrun] at hfails
  · exact ⟨failure, w', rfl, hfails, hblames failure w' hrun hfails⟩
  · cases hfails

/-- **A position can be too large to be passed over**: a file that says nothing else makes the reading of its folder's
metadata, the list of the folder above, the walk and the run fail. -/
theorem huge_position_stops_run :
    Category.ofBytes hugePosition = .error .hugePosition ∧
      Category.read hugeSite (.word "docs/g") = .error .hugePosition ∧
      siblings hugeSite (.word "docs") = .error .hugePosition ∧
      failure? (walk .standard (.word "out") (.word "docs/g") "g".toList { disk := hugeSite }).1 =
        some .hugePosition ∧
      failure? (plainSettings.run { disk := hugeSite }).1 = some .hugePosition := by
  refine ⟨?_, ?_, ?_, ?_, ?_⟩
  all_goals decide +kernel

end DocFerry.Site
