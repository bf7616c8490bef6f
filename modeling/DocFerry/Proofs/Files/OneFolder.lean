import DocFerry.Proofs.Agree
import DocFerry.Proofs.Files.Below
import DocFerry.Proofs.Files.Directories
/-!
# Two paths to one folder

Two paths may lead to one folder.  Whatever is looked for below the folder is then found alike from both, unless one of
the two paths, continued that far, is too long to be looked up (`OneFolder.find`).  A way to a directory leads there
also on another disk, if the directories on it are kept there (`walks_kept`).
-/
namespace DocFerry.Files.Disk

open DocFerry.Action (ResultsUnless)

/-- **Two paths that lead to one folder**, which holds no link. -/
structure OneFolder (p q : Path) (l : Location) (d : Disk) : Prop where
  sound : d.Sound
  left : d.find p = .ok ⟨l, some .directory⟩
  right : d.find q = .ok ⟨l, some .directory⟩
  free : d.LinkFree l

/-- **Two results that are the same**, unless a name was too long for one of them. -/
abbrev SameUnlessLong {α : Type} (r r' : Except Problem α) : Prop := ResultsUnless (· = .nameTooLong) Eq r r'

namespace OneFolder

variable {p q : Path} {l : Location} {d d' : Disk} {names : List Text}

theorem of_grows {area : Area} (h : OneFolder p q l d) (hg : d.Grows area d') : OneFolder p q l d' :=
  ⟨hg.sound h.sound, hg.find_directory h.left, hg.find_directory h.right, hg.links.linkFree h.free⟩

theorem refusal?_descend {problem : Problem} (hr : refusal? p = none) (h : refusal? (p.descend names) = some problem) :
    problem = .nullInPath ∧ names.any (·.contains (Char.ofNat 0)) = true ∨
      problem = .nameTooLong ∧ names.any (·.contains (Char.ofNat 0)) = false := by
  have hnull := refusal?_eq_none hr
  have hnames : (p.descend names).names.any (·.contains (Char.ofNat 0)) = names.any (·.contains (Char.ofNat 0)) := by
    rw [Path.descend, List.any_append, hnull, Bool.false_or]
  unfold refusal? at h
  rw [hnames] at h
  split at h
  · rename_i hany
    exact .inl ⟨(Option.some.inj h).symm, hany⟩
  · rename_i hany
    split at h
    · exact .inr ⟨(Option.some.inj h).symm, by simpa using hany⟩
    · cases h

theorem walk_descend (hf : d.find p = .ok ⟨l, some .directory⟩) (hfree : d.LinkFree l) (hup : Path.up ∉ names)
    (hr : refusal? (p.descend names) = none) : d.find (p.descend names) = d.walkLinks 0 l names := by
  obtain ⟨j, hj⟩ := walkLinks_append (walks_of_find hf).2
  rw [Disk.find, hr]
  show d.walkLinks maxLinks (d.start p) (p.names ++ names) = _
  rw [hj, walkLinks_eq, walkLinks_eq]
  exact walk_congr _ _ hfree (fun _ _ => rfl) hup

theorem find_of_refused {problem : Problem} (hr : refusal? p = some problem) : d.find p = .error problem := by
  rw [Disk.find, hr]

theorem refusal?_of_null (h : names.any (·.contains (Char.ofNat 0)) = true) :
    refusal? (p.descend names) = some .nullInPath := by
  have hany : (p.descend names).names.any (·.contains (Char.ofNat 0)) = true := by
    rw [Path.descend, List.any_append, h, Bool.or_true]
  rw [refusal?, if_pos hany]

variable (h : OneFolder p q l d) (hup : Path.up ∉ names)

include h hup

/-- **What is looked for below the folder is found alike** from both paths, unless one is too long. -/
theorem find : SameUnlessLong (d.find (p.descend names)) (d.find (q.descend names)) := by
  have hp := (walks_of_find h.left).1
  have hq := (walks_of_find h.right).1
  cases hrp : refusal? (p.descend names) with
  | some problem =>
    rw [find_of_refused hrp]
    rcases refusal?_descend hp hrp with ⟨rfl, hnull⟩ | ⟨rfl, _⟩
    · rw [find_of_refused (refusal?_of_null hnull)]
      exact .error
    · exact .left rfl
  | none =>
    cases hrq : refusal? (q.descend names) with
    | some problem =>
      rw [find_of_refused hrq]
      rcases refusal?_descend hq hrq with ⟨rfl, hnull⟩ | ⟨rfl, _⟩
      · rw [find_of_refused (refusal?_of_null hnull)]
        exact .error
      · exact .right rfl
    | none =>
      rw [walk_descend h.left h.free hup hrp, walk_descend h.right h.free hup hrq]
      exact .refl _ fun _ => rfl

/-- **What depends on nothing but what is found** is alike too. -/
theorem of_find {α : Type} {f : Path → Except Problem α} (hf : ∀ a b, d.find a = d.find b → f a = f b)
    (hlong : ∀ a, d.find a = .error .nameTooLong → f a = .error .nameTooLong) :
    SameUnlessLong (f (p.descend names)) (f (q.descend names)) := by
  have hfind := h.find hup
  generalize hp : d.find (p.descend names) = r, hq : d.find (q.descend names) = r' at hfind
  cases hfind with
  | ok he =>
    rw [hf _ _ (hp.trans ((congrArg Except.ok he).trans hq.symm))]
    exact .refl _ fun _ => rfl
  | error =>
    rw [hf _ _ (hp.trans hq.symm)]
    exact .refl _ fun _ => rfl
  | left he =>
    rw [hlong _ (hp.trans (congrArg Except.error he))]
    exact .left rfl
  | right he =>
    rw [hlong (q.descend names) (hq.trans (congrArg Except.error he))]
    exact .right rfl

theorem seek : SameUnlessLong (d.seek (p.descend names)) (d.seek (q.descend names)) :=
  h.of_find hup (fun a b he => by rw [Disk.seek, Disk.seek, he]) fun a he => by rw [Disk.seek, he]

theorem seekFile : SameUnlessLong (d.seekFile (p.descend names)) (d.seekFile (q.descend names)) :=
  (h.seek hup).map fun _ _ he => by rw [he]

theorem read : SameUnlessLong (d.read (p.descend names)) (d.read (q.descend names)) :=
  h.of_find hup (fun a b he => by rw [Disk.read, Disk.read, he]) fun a he => by rw [Disk.read, he]

theorem list : SameUnlessLong (d.list (p.descend names)) (d.list (q.descend names)) :=
  h.of_find hup (fun a b he => by rw [Disk.list, Disk.list, he]) fun a he => by rw [Disk.list, he]

end OneFolder

/-! ## Directories that are kept -/

/-- **A way to a directory is kept** where the directories on it are. -/
theorem walks_kept {d e : Disk} (hlink : d.NoLinks) {k : Nat} {base : Location} {names : List Text} {place : Place}
    (h : Walks d k base names place) (hdir : place.entry = some .directory)
    (hkept : ∀ front, front <+: names → d.locate? (locationAlong base front) = some .directory →
      e.locate? (locationAlong base front) = some .directory) : Walks e k base names place := by
  induction h with
  | stay => exact .stay
  | up _ ih =>
    refine .up (ih hdir fun front hfront => ?_)
    simpa [locationAlong_cons] using hkept (Path.up :: front) (List.cons_prefix_cons.2 ⟨rfl, hfront⟩)
  | @into _ base name _ _ hup hat _ ih =>
    have hstep : ∀ front, locationAlong base (name :: front) = locationAlong (base ++ [name]) front := fun front => by
      rw [locationAlong_cons, if_neg hup]
    refine .into hup ?_ (ih hdir fun front hfront => ?_)
    · have hname := hkept [name] (List.cons_prefix_cons.2 ⟨rfl, List.nil_prefix⟩)
      rw [hstep] at hname
      exact hname hat
    · have hname := hkept (name :: front) (List.cons_prefix_cons.2 ⟨rfl, hfront⟩)
      rwa [hstep] at hname
  | follow _ ht => exact absurd ht (hlink _ _)
  | file => cases hdir
  | absent => cases hdir

end DocFerry.Files.Disk
