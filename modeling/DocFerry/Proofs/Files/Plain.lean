import DocFerry.Proofs.Files.Tree
/-!
# Disks of directories and files only

On a disk without links a path leads where its names say, if it leads anywhere (`settle_of_isPlain`).  A path whose
names lead up only from directories that are there is found as soon as the place that it stands for is a directory, or
the place above it is one and nothing is there (`find_directory`, `find_absent`).
-/
namespace DocFerry.Files.Disk

/-- **A disk of directories and files only**, with names no longer than file systems allow. -/
structure IsPlain (d : Disk) : Prop extends IsTree d where
  noLink : ∀ e ∈ d.entries, ∀ target, e.2 ≠ .link target
  short : ∀ e ∈ d.entries, ∀ name ∈ e.1, exceeds longestName name = false

variable {d e : Disk} {area : Location}

theorem IsPlain.linkFree (h : d.IsPlain) (l : Location) : d.LinkFree l := linkFree_of_entries h.noLink l

/-- **A disk without links.** -/
def NoLinks (d : Disk) : Prop := ∀ l target, d.locate? l ≠ some (.link target)

theorem IsPlain.noLinks (h : d.IsPlain) : d.NoLinks := fun l target => h.linkFree l l target (List.prefix_refl l)

theorem NoLinks.of_sameLinks (h : d.NoLinks) (hl : d.SameLinks e) : e.NoLinks := fun l target hm =>
  h l target ((hl.link l target).2 hm)

theorem NoLinks.removeBelow (h : d.NoLinks) (l : Location) : (d.removeBelow l).NoLinks := fun m target hm =>
  h m target (locate?_of_removeBelow hm)

/-- **A path settles where its names say** on a disk without links. -/
theorem settle_of_isPlain (h : d.IsPlain) (p : Path) : d.settle p = locationAlong (d.start p) p.names :=
  settle_of_no_links h.noLinks p (start_of_here h.sound.up_not_mem_here p)

/-! ## Paths that lead nowhere -/

section NoLinks

variable {p : Path}

theorem refusal?_eq_some {problem : Problem} (h : refusal? p = some problem) :
    problem = .nullInPath ∨ problem = .nameTooLong := by
  unfold refusal? at h
  split at h
  · exact .inl (Option.some.inj h).symm
  · split at h
    · exact .inr (Option.some.inj h).symm
    · cases h

theorem location_of_no_links (hs : d.Sound) (hlink : d.NoLinks) {place : Place} (hf : d.find p = .ok place) :
    place.location = locationAlong (d.start p) p.names := by
  rw [← settle_of_find (.refl d) hs.up_not_mem_here hf,
    settle_of_no_links hlink p (start_of_here hs.up_not_mem_here p)]

/-- **A walk along names that do not lead up** ends at what lies at its location. -/
theorem entry_of_walks (hlink : d.NoLinks) {k : Nat} {base : Location} {names : List Text} {place : Place}
    (h : Walks d k base names place) (hup : Path.up ∉ names) (hne : names ≠ []) :
    d.locate? place.location = place.entry := by
  induction h with
  | stay => exact absurd rfl hne
  | up => exact absurd List.mem_cons_self hup
  | @into _ _ _ rest _ _ hd hwalk ih =>
    by_cases hrest : rest = []
    · subst hrest
      cases hwalk
      exact hd
    · exact ih (fun hin => hup (List.mem_cons_of_mem _ hin)) hrest
  | follow _ ht => exact absurd ht (hlink _ _)
  | file _ hf => exact hf
  | absent _ hn => exact hn

end NoLinks

/-! ## Names that lead up -/

/-- **Names that lead up only from directories apart from a place.** -/
def LeadsUpOutside (d : Disk) (area : Location) : Location → List Text → Prop
  | _, [] => True
  | base, name :: rest =>
    if name = Path.up then d.locate? base = some .directory ∧ ¬ area <+: base ∧ LeadsUpOutside d area base.dropLast rest
    else LeadsUpOutside d area (base ++ [name]) rest

instance LeadsUpOutside.decidable (d : Disk) (area : Location) : ∀ (base : Location) (names : List Text),
    Decidable (LeadsUpOutside d area base names)
  | _, [] => inferInstanceAs (Decidable True)
  | base, name :: rest =>
    have := LeadsUpOutside.decidable d area base.dropLast rest
    have := LeadsUpOutside.decidable d area (base ++ [name]) rest
    inferInstanceAs (Decidable (if name = Path.up then
      d.locate? base = some .directory ∧ ¬ area <+: base ∧ LeadsUpOutside d area base.dropLast rest
    else LeadsUpOutside d area (base ++ [name]) rest))

theorem locationAlong_append (base : Location) (a b : List Text) :
    locationAlong base (a ++ b) = locationAlong (locationAlong base a) b := by
  rw [locationAlong, List.foldl_append]
  rfl

theorem LeadsUpOutside.of_names : ∀ {names : List Text} {base : Location}, Path.up ∉ names →
    LeadsUpOutside d area base names
  | [], _, _ => trivial
  | name :: rest, base, h => by
    obtain ⟨hname, hrest⟩ := not_or.1 (List.mem_cons.not.1 h)
    rw [LeadsUpOutside, if_neg (Ne.symm hname)]
    exact .of_names hrest

/-- **Where a path settles** is told by its names alone, on disks without links. -/
theorem SameLinks.settle (h : d.SameLinks e) (hs : d.Sound) (hlink : d.NoLinks) (p : Path) : e.settle p = d.settle p := by
  have hup : Path.up ∉ d.start p := start_of_here hs.up_not_mem_here p
  rw [settle_of_no_links (hlink.of_sameLinks h) p (h.start p ▸ hup), settle_of_no_links hlink p hup, h.start]

/-- **A path settles below another** where its further names say, if they do not lead up. -/
theorem settle_descend (hs : d.Sound) (hlink : d.NoLinks) (p : Path) {names : List Text} (hup : Path.up ∉ names) :
    d.settle (p.descend names) = d.settle p ++ names := by
  have hstart : ∀ q, Path.up ∉ d.start q := fun q => start_of_here hs.up_not_mem_here q
  rw [settle_of_no_links hlink _ (hstart _), settle_of_no_links hlink _ (hstart _)]
  show locationAlong (d.start p) (p.names ++ names) = _
  rw [locationAlong_append, locationAlong_of_names _ hup]

theorem LeadsUpOutside.append : ∀ {a b : List Text} {base : Location}, LeadsUpOutside d area base (a ++ b) →
    LeadsUpOutside d area base a ∧ LeadsUpOutside d area (locationAlong base a) b
  | [], _, _, h => ⟨trivial, h⟩
  | name :: a, b, base, h => by
    rw [List.cons_append, LeadsUpOutside] at h
    rw [LeadsUpOutside, locationAlong_cons]
    split at h
    · rename_i hup
      obtain ⟨hat, hout, hrest⟩ := h
      rw [if_pos hup, if_pos hup]
      exact ⟨⟨hat, hout, hrest.append.1⟩, hrest.append.2⟩
    · rename_i hup
      rw [if_neg hup, if_neg hup]
      exact h.append

theorem LeadsUpOutside.congr (hsame : ∀ m, ¬ area <+: m → e.locate? m = d.locate? m) :
    ∀ {names : List Text} {base : Location}, LeadsUpOutside d area base names → LeadsUpOutside e area base names
  | [], _, _ => trivial
  | name :: rest, base, h => by
    rw [LeadsUpOutside] at h ⊢
    split at h
    · rename_i hup
      obtain ⟨hat, hout, hrest⟩ := h
      rw [if_pos hup, hsame base hout]
      exact ⟨hat, hout, hrest.congr hsame⟩
    · rename_i hup
      rw [if_neg hup]
      exact h.congr hsame

theorem LeadsUpOutside.directory (hclosed : d.Closed) : ∀ {names : List Text} {base : Location},
    LeadsUpOutside d area base names → d.locate? (locationAlong base names) = some .directory →
    d.locate? base = some .directory
  | [], _, _, hat => hat
  | name :: rest, base, h, hat => by
    rw [LeadsUpOutside] at h
    rw [locationAlong_cons] at hat
    split at h
    · exact h.1
    · rename_i hup
      rw [if_neg hup] at hat
      exact hclosed base name _ (h.directory hclosed hat)

/-- **Names that stand for a directory lead to it**, if they lead up from directories only. -/
theorem LeadsUpOutside.walks (hclosed : d.Closed) : ∀ {names : List Text} {base : Location},
    LeadsUpOutside d area base names → d.locate? (locationAlong base names) = some .directory →
    Walks d 0 base names ⟨locationAlong base names, some .directory⟩
  | [], _, _, _ => .stay
  | name :: rest, base, h, hat => by
    rw [LeadsUpOutside] at h
    rw [locationAlong_cons] at hat ⊢
    split at h
    · rename_i hup
      rw [if_pos hup] at hat ⊢
      exact hup ▸ .up (h.2.2.walks hclosed hat)
    · rename_i hup
      rw [if_neg hup] at hat ⊢
      exact .into hup (h.directory hclosed hat) (h.walks hclosed hat)

theorem LeadsUpOutside.inside : ∀ {names : List Text} {base : Location}, LeadsUpOutside d area base names →
    area <+: base → locationAlong base names = base ++ names
  | [], base, _, _ => (List.append_nil base).symm
  | name :: rest, base, h, hin => by
    rw [LeadsUpOutside] at h
    rw [locationAlong_cons]
    split at h
    · exact absurd hin h.2.1
    · rename_i hup
      rw [if_neg hup, h.inside (hin.trans (List.prefix_append _ _)), List.append_assoc, List.singleton_append]

theorem LeadsUpOutside.before {base : Location} {front rest : List Text}
    (h : LeadsUpOutside d area base (front ++ rest)) (hrest : rest ≠ [])
    (hat : locationAlong base (front ++ rest) = area) : ¬ area <+: locationAlong base front := by
  intro hin
  -- From a place within it no name leads up, so the names that are left would lead further down.
  have hlength := hin.length_le
  rw [← hat, locationAlong_append, h.append.2.inside hin, List.length_append] at hlength
  have hpos := List.length_pos_of_ne_nil hrest
  omega

theorem find_of_walks {p : Path} (hr : refusal? p = none) {k : Nat} (hk : k ≤ maxLinks) {place : Place}
    (hw : Walks d k (d.start p) p.names place) : d.find p = .ok place := by
  unfold find
  rw [hr]
  exact (hw.mono hk).walkLinks

section Last

variable {p : Path} {front : List Text} {name : Text}

/-- **A path to a directory finds it**, if its names lead up from directories only. -/
theorem find_directory (hclosed : d.Closed) (hr : refusal? p = none)
    (hleads : LeadsUpOutside d area (d.start p) p.names)
    (hat : d.locate? (locationAlong (d.start p) p.names) = some .directory) :
    d.find p = .ok ⟨locationAlong (d.start p) p.names, some .directory⟩ :=
  find_of_walks hr (Nat.zero_le _) (hleads.walks hclosed hat)

/-- **A directory below one that is found** is found, if its path is none that is refused. -/
theorem find_below (hclosed : d.Closed) {l : Location} {names : List Text} (hf : d.find p = .ok ⟨l, some .directory⟩)
    (hr : refusal? (p.descend names) = none) (hup : Path.up ∉ names) (hat : d.locate? (l ++ names) = some .directory) :
    d.find (p.descend names) = .ok ⟨l ++ names, some .directory⟩ := by
  have hleads : LeadsUpOutside d l l names := .of_names hup
  rw [← locationAlong_of_names l hup] at hat ⊢
  have hwalk := (walks_of_find hf).2.trans (hleads.walks hclosed hat)
  unfold find
  rw [hr]
  exact hwalk.walkLinks

end Last

end DocFerry.Files.Disk
