import DocFerry.Proofs.Files.Directories
/-!
# Trees laid over folders

A copy of a tree into a folder that stands apart from it lays the tree over the folder: each entry of the tree is put
at its place there, and where the tree has none everything stays as it was (`Disk.Laid`).  Without links, and if no file
of the one stands where the other has a directory, such a copy comes to its end (`copyTree_lays`).  Layers that are laid
one after the other are one layer, in which the later of two entries covers the earlier (`Laid.trans`).

A folder that is there, or whose path leads from a directory along names of which the first is that of nothing
(`CanStand`), is there once it has been made; the directories above it have been made with it, and nothing else has
changed (`CanStand.makeDirectories`).
-/
namespace DocFerry.Files

open Text.Utf8 (Octets)

namespace Disk

/-! ## Layers -/

/-- **What is laid over a folder**: an entry, or none, for each path below it. -/
abbrev Layer := List Text → Option Entry

/-- **A layer of one entry**, in the place of the folder itself. -/
def Layer.alone (e : Entry) : Layer := fun names => if names = [] then some e else none

/-- **What lies at and below a location**, as a layer. -/
def treeAt (d : Disk) (l : Location) : Layer := fun names => d.locate? (l ++ names)

/-- **The part of a layer** that lies in one entry of the folder, as a layer over that. -/
def Layer.under (layer : Layer) (name : Text) : Layer := fun rest => layer (name :: rest)

/-- **The part of a layer** that lies in some entries of the folder. -/
def Layer.among (entries : List Text) (layer : Layer) : Layer
  | [] => none
  | name :: rest => if name ∈ entries then layer (name :: rest) else none

/-- **A layer laid over what is at or below a location**, and nothing else changed. -/
structure Laid (layer : Layer) (l : Location) (d d' : Disk) : Prop where
  grows : d.Grows (fun _ => True) d'
  closed : d.Closed → d'.Closed
  inside : ∀ names, d'.locate? (l ++ names) = (layer names).or (d.locate? (l ++ names))
  outside : ∀ m, ¬ l <+: m → d'.locate? m = d.locate? m

variable {d d' e f : Disk} {l m : Location} {name : Text} {layer lower upper : Layer} {p q : Path}

theorem Laid.nothing (l : Location) (d : Disk) : Laid (fun _ => none) l d d :=
  ⟨.refl _ d, id, fun _ => rfl, fun _ _ => rfl⟩

/-- **Of two layers the later covers the earlier.** -/
theorem Laid.trans (h : Laid lower l d e) (k : Laid upper l e f) :
    Laid (fun names => (upper names).or (lower names)) l d f where
  grows := h.grows.trans k.grows
  closed hc := k.closed (h.closed hc)
  inside names := by rw [k.inside, h.inside, Option.or_assoc]
  outside m hm := (k.outside m hm).trans (h.outside m hm)

/-- **What is laid over an entry of a folder** is laid over the folder. -/
theorem Laid.below (h : Laid (layer.under name) (l ++ [name]) d d') : Laid (.among [name] layer) l d d' where
  grows := h.grows
  closed := h.closed
  inside names := by
    cases names with
    | nil => exact h.outside _ fun hp => absurd hp.length_le (by simp)
    | cons first rest =>
      by_cases hfirst : first = name
      · have hinside := h.inside rest
        rw [List.append_assoc, List.singleton_append] at hinside
        rw [Layer.among, hfirst, if_pos List.mem_cons_self, hinside, Layer.under]
      · rw [Layer.among, if_neg (by simpa using hfirst), Option.none_or]
        refine h.outside _ fun hp => hfirst ?_
        rw [List.prefix_append_right_inj] at hp
        exact (List.cons_prefix_cons.1 hp).1.symm
  outside m hm := h.outside m fun hp => hm ((List.prefix_append l [name]).trans hp)

theorem Layer.among_or (layer : Layer) (entries : List Text) (name : Text) :
    (fun names => (among entries layer names).or (among [name] layer names)) = among (name :: entries) layer := by
  funext names
  cases names with
  | nil => rfl
  | cons first rest =>
    simp only [among, List.mem_cons, List.not_mem_nil, or_false]
    by_cases hfirst : first = name
    · subst hfirst
      by_cases hin : first ∈ entries <;> simp [hin]
    · simp [hfirst]

theorem Layer.of_among {entries names : List Text} {x : Entry} (h : among entries layer names = some x) :
    layer names = some x := by
  cases names with
  | nil => cases h
  | cons first rest =>
    rw [among] at h
    split at h
    · exact h
    · cases h

theorem treeAt_under (d : Disk) (l : Location) (name : Text) : (d.treeAt l).under name = d.treeAt (l ++ [name]) := by
  funext rest
  rw [Layer.under, treeAt, treeAt, List.append_cons]

/-- **A tree is its directory and what is in its entries.** -/
theorem treeAt_eq_or (hc : d.Closed) (hl : d.locate? l = some .directory) :
    (fun names => (Layer.among (d.namesAt l) (d.treeAt l) names).or (Layer.alone .directory names)) = d.treeAt l := by
  funext names
  cases names with
  | nil => simp [Layer.among, Layer.alone, treeAt, hl]
  | cons name rest =>
    by_cases hname : name ∈ d.namesAt l
    · simp [Layer.among, Layer.alone, hname]
    · have hnone : d.locate? (l ++ name :: rest) = none := by
        refine Option.eq_none_iff_forall_ne_some.2 fun e he => hname (mem_namesAt.2 ?_)
        by_cases hrest : rest = []
        · exact ⟨e, hrest ▸ he⟩
        · rw [List.append_cons] at he
          exact ⟨_, hc.directory_above _ rest hrest he⟩
      simp [Layer.among, Layer.alone, treeAt, hname, hnone]

/-! ## Entries that are put -/

theorem Closed.put {new : Entry} (hc : d.Closed) (hl : d.locate? l = some .directory)
    (hold : ∀ old, d.locate? (l ++ [name]) = some old → old.SameKind new) : (d.put (l ++ [name]) new).Closed := by
  intro m n x hx
  rw [locate?_put d (by simp)] at hx ⊢
  by_cases hm : m = l ++ [name]
  · -- What stands in the place that is put was in a directory before.
    rw [if_neg (fun h => by simpa [hm] using congrArg List.length h)] at hx
    have hkind := hold _ (hm ▸ hc m n x hx)
    rw [if_pos hm, Entry.SameKind.directory_iff hkind |>.1 rfl]
  · rw [if_neg hm]
    by_cases hat : m ++ [n] = l ++ [name]
    · rw [(List.append_inj' hat rfl).1, hl]
    · rw [if_neg hat] at hx
      exact hc m n x hx

/-- **An entry put in a directory**, where nothing was or over one of its kind. -/
theorem laid_put {new : Entry} (hl : d.locate? l = some .directory) (hname : IsEntryName name)
    (hlink : ∀ target, new ≠ .link target)
    (hold : ∀ old, d.locate? (l ++ [name]) = some old → old.SameKind new) :
    Laid (.alone new) (l ++ [name]) d (d.put (l ++ [name]) new) where
  grows := by
    refine grows_put (by simp) (fun hs n hn => ?_) hlink hold (.inl trivial)
    rcases List.mem_append.1 hn with hn | hn
    · exact hs.names l _ hl n hn
    · exact List.mem_singleton.1 hn ▸ hname
  closed hc := hc.put hl hold
  inside names := by
    rw [locate?_put d (by simp), Layer.alone]
    by_cases hn : names = []
    · simp [hn]
    · simp [hn]
  outside m hm := locate?_put_ne d new fun h => hm (h ▸ List.prefix_rfl)

theorem find_entry (hf : d.find p = .ok ⟨l, some .directory⟩) (hr : refusal? (p.child name) = none)
    (hup : name ≠ Path.up) (hshort : exceeds longestName name = false)
    (hlink : ∀ target, d.locate? (l ++ [name]) ≠ some (.link target)) :
    d.find (p.child name) = .ok ⟨l ++ [name], d.locate? (l ++ [name])⟩ := by
  cases he : d.locate? (l ++ [name]) with
  | some entry => exact find_child hf hr hup he fun target ht => hlink target (ht ▸ he)
  | none =>
    have hlast : Walks d 0 l [name] ⟨l ++ [name], none⟩ := .absent hup he hshort
    have hwalk := (walks_of_find hf).2.trans hlast
    unfold find
    rw [hr]
    exact hwalk.walkLinks

/-- **A path that leads to a directory.** -/
structure DirectoryAt (d : Disk) (p : Path) (l : Location) : Prop where
  found : d.find p = .ok ⟨l, some .directory⟩
  directory : d.locate? l = some .directory

theorem DirectoryAt.grown {area : Area} (h : DirectoryAt d p l) (hg : d.Grows area d') : DirectoryAt d' p l where
  found := hg.find_directory h.found
  directory := by
    obtain ⟨entry, hentry, hkind⟩ := hg.kept l _ h.directory
    rw [hentry, Entry.SameKind.directory_iff hkind |>.1 rfl]

/-- **A place in a directory where nothing is**, but where an entry can be. -/
structure Vacant (d : Disk) (p : Path) (l : Location) (name : Text) : Prop where
  above : d.DirectoryAt p l
  vacant : d.locate? (l ++ [name]) = none
  entry : IsEntryName name
  short : exceeds longestName name = false
  looked : refusal? (p.child name) = none

theorem Vacant.makeDirectory (h : Vacant d p l name) :
    makeDirectory (p.child name) d = (.ok (), d.put (l ++ [name]) .directory) := by
  have hlast : (p.child name).names.getLast? = some name := by simp [Path.child]
  rw [makeDirectory_eq, withDirectory, h.looked, hlast]
  dsimp only
  rw [if_neg h.entry.2, Path.parent_child, h.above.found]
  dsimp only
  rw [h.vacant, h.short]
  rfl

theorem Vacant.laid (h : Vacant d p l name) :
    Laid (.alone .directory) (l ++ [name]) d (d.put (l ++ [name]) .directory) :=
  laid_put h.above.directory h.entry (by simp) (by simp [h.vacant])

theorem Vacant.directoryAt (h : Vacant d p l name) :
    (d.put (l ++ [name]) .directory).DirectoryAt (p.child name) (l ++ [name]) where
  found := find_child (h.above.grown h.laid.grows).found h.looked h.entry.2 (locate?_put_self d _ (by simp)) (by simp)
  directory := locate?_put_self d _ (by simp)

end Disk

/-! ## Directories that are there or can be made -/

/-- **A directory that is there, or that can be made** in one that is. -/
inductive Ready (d : Disk) : Path → Location → Prop
  | there {p : Path} {l : Location} : d.DirectoryAt p l → Ready d p l
  | vacant {p : Path} {l : Location} {name : Text} : d.Vacant p l name → Ready d (p.child name) (l ++ [name])

variable {d d' e : Disk} {l m : Location} {name : Text} {more : List Text} {source target p : Path}

theorem ensureDirectory_of_found (h : d.find p = .ok ⟨l, some .directory⟩) : ensureDirectory p d = (.ok (), d) := by
  obtain ⟨hnone, hmissing⟩ := withDirectory_of_found h
  have hthere : d.seekDirectory p = .ok true := by
    rw [Disk.seekDirectory, Disk.seek, h]
    rfl
  unfold ensureDirectory
  rw [Action.tryCatch_apply, makeDirectory_eq]
  cases hmade : d.withDirectory p with
  | ok e => exact absurd hmade (hnone e)
  | error problem =>
    have hother : problem ≠ .missing := fun hp => hmissing (hp ▸ hmade)
    dsimp only
    rw [Action.bind_apply, check, hthere]
    dsimp only
    rw [if_neg (by simpa using hother)]
    rfl

/-- **A directory that is ready** is there once it is asked for, and nothing else has changed. -/
theorem Ready.ensureDirectory (h : Ready d p l) : ∃ d', ensureDirectory p d = (.ok (), d') ∧
    d'.DirectoryAt p l ∧ d.Laid (.alone .directory) l d' := by
  cases h with
  | there h =>
    refine ⟨d, ensureDirectory_of_found h.found, h, .refl _ d, id, fun names => ?_, fun _ _ => rfl⟩
    by_cases hn : names = []
    · simp [hn, Disk.Layer.alone, h.directory]
    · simp [hn, Disk.Layer.alone]
  | vacant h =>
    refine ⟨_, ?_, h.directoryAt, h.laid⟩
    unfold Files.ensureDirectory
    rw [Action.tryCatch_apply, h.makeDirectory]

/-! ## Folders made with the directories above them -/

/-- **A folder that is there, or can be made** with the directories above it that are missing. -/
inductive CanStand (d : Disk) : Path → Location → Prop
  | there {p : Path} {l : Location} : d.DirectoryAt p l → CanStand d p l
  | missing {p : Path} {l : Location} {name : Text} {more : List Text} : d.Vacant p l name →
      (∀ n ∈ more, IsEntryName n ∧ exceeds longestName n = false) → refusal? ((p.child name).descend more) = none →
      CanStand d ((p.child name).descend more) (l ++ [name] ++ more)

/-- **A folder made with all the directories above it**, and nothing else changed. -/
structure Made (l : Location) (d d' : Disk) : Prop where
  grows : d.Grows (fun _ => True) d'
  closed : d'.Closed
  above : ∀ m, m <+: l → d'.locate? m = some .directory
  rest : ∀ m, ¬ m <+: l → d'.locate? m = d.locate? m

theorem Disk.Closed.prefix (hc : d.Closed) (hl : d.locate? l = some .directory) {m : Location} (hm : m <+: l) :
    d.locate? m = some .directory := by
  obtain ⟨rest, rfl⟩ := hm
  by_cases hrest : rest = []
  · rwa [hrest, List.append_nil] at hl
  · exact hc.directory_above m rest hrest hl

/-- **Nothing is found beyond a place where nothing is.** -/
theorem Disk.Vacant.find_beyond (h : d.Vacant p l name) (hr : refusal? ((p.child name).descend more) = none) :
    d.find ((p.child name).descend more) = if more = [] then .ok ⟨l ++ [name], none⟩ else .error .missing := by
  obtain ⟨j, hj⟩ := Disk.walkLinks_append (Disk.walks_of_find h.above.found).2
  unfold Disk.find
  rw [hr]
  show d.walkLinks Disk.maxLinks (d.start p) (p.names ++ [name] ++ more) = _
  rw [List.append_assoc, hj, walkLinks_eq, List.singleton_append, Disk.walk, if_neg h.entry.2, h.vacant]
  dsimp only
  rw [h.short]
  cases more <;> rfl

/-- **No directory is made beyond a place where nothing is**, because the one above it is missing. -/
theorem Disk.Vacant.makeDirectory_beyond {last : Text} (h : d.Vacant p l name) (hup : last ≠ Path.up)
    (habove : refusal? ((p.child name).descend more) = none)
    (hr : refusal? (((p.child name).descend more).child last) = none) :
    Files.makeDirectory (((p.child name).descend more).child last) d = (.error .missing, d) := by
  have hlast : (((p.child name).descend more).child last).names.getLast? = some last := by simp [Path.child]
  rw [makeDirectory_eq, Disk.withDirectory, hr, hlast]
  dsimp only
  rw [if_neg hup, Path.parent_child, h.find_beyond habove]
  cases more <;> rfl

theorem Disk.Vacant.made (h : d.Vacant p l name) (hc : d.Closed) :
    Made (l ++ [name]) d (d.put (l ++ [name]) .directory) where
  grows := h.laid.grows
  closed := h.laid.closed hc
  above m hm := by
    rw [Disk.locate?_put d (by simp)]
    rcases List.prefix_concat_iff.1 hm with heq | hbelow
    · rw [if_pos heq]
    · split
      · rfl
      · exact hc.prefix h.above.directory hbelow
  rest m hm := Disk.locate?_put_ne d _ fun heq => hm (heq ▸ List.prefix_rfl)

theorem Made.trans {above : Location} {e : Disk} (h : Made above d e) (h' : Made l e d') (hl : above <+: l) :
    Made l d d' where
  grows := h.grows.trans h'.grows
  closed := h'.closed
  above := h'.above
  rest m hm := by rw [h'.rest m hm, h.rest m fun ha => hm (ha.trans hl)]

/-- **A folder below a place where nothing is** is made with the directories above it. -/
theorem Disk.Vacant.makeParentsWithin (hc : d.Closed) (h : d.Vacant p l name) : ∀ {more : List Text} {parents : Nat},
    more.length ≤ parents → (∀ n ∈ more, IsEntryName n ∧ exceeds longestName n = false) →
    refusal? ((p.child name).descend more) = none →
    ∃ d', makeParentsWithin parents true ((p.child name).descend more) d = (.ok (), d') ∧
      d'.DirectoryAt ((p.child name).descend more) (l ++ [name] ++ more) ∧ Made (l ++ [name] ++ more) d d' := by
  intro more
  -- The induction takes the last name off, as the directory above is made before the folder itself.
  induction more using List.reverseRecOn with
  | nil =>
    intro parents _ _ _
    rw [Path.descend_nil, List.append_nil]
    refine ⟨_, ?_, h.directoryAt, h.made hc⟩
    unfold Files.makeParentsWithin
    rw [Action.tryCatch_apply, h.makeDirectory]
  | append_singleton front last ih =>
    intro parents hparents hnames hr
    obtain ⟨parents, rfl⟩ : ∃ k, parents = k + 1 := ⟨parents - 1, by simp at hparents; omega⟩
    obtain ⟨hfront, hlast⟩ := List.forall_mem_append.1 hnames
    obtain ⟨hentry, hshort⟩ := hlast last (by simp)
    rw [← Path.child_descend] at hr ⊢
    have hparent : refusal? ((p.child name).descend front) = none := @refusal?_of_descend _ [last] hr
    obtain ⟨e, hmade, he, hway⟩ := @ih parents (by simp at hparents; omega) hfront hparent
    have hnone : e.locate? (l ++ [name] ++ front ++ [last]) = none := by
      have hlong : ¬ l ++ [name] ++ front ++ [last] <+: l ++ [name] ++ front := fun hp =>
        absurd hp.length_le (by simp)
      rw [hway.rest _ hlong]
      refine Option.eq_none_iff_forall_ne_some.2 fun x hx => ?_
      rw [List.append_assoc] at hx
      have habove := hc.directory_above _ _ (by simp) hx
      rw [h.vacant] at habove
      cases habove
    have hvacant : e.Vacant ((p.child name).descend front) (l ++ [name] ++ front) last :=
      ⟨he, hnone, hentry, hshort, hr⟩
    have hensured : ensureDirectory (((p.child name).descend front).child last) e =
        (.ok (), e.put (l ++ [name] ++ front ++ [last]) .directory) := by
      unfold ensureDirectory
      rw [Action.tryCatch_apply, hvacant.makeDirectory]
    rw [← List.append_assoc]
    refine ⟨_, ?_, hvacant.directoryAt, hway.trans (hvacant.made hway.closed) (List.prefix_append _ _)⟩
    unfold Files.makeParentsWithin
    rw [Action.tryCatch_apply, h.makeDirectory_beyond hentry.2 hparent hr]
    dsimp only
    rw [if_pos rfl, Path.parent_child, Action.bind_apply, hmade]
    exact hensured

theorem CanStand.makeDirectories (hc : d.Closed) (h : CanStand d p l) :
    ∃ d', makeDirectories true p d = (.ok (), d') ∧ d'.DirectoryAt p l ∧ Made l d d' := by
  cases h with
  | there h =>
    exact ⟨d, makeDirectories_of_found h.found, h, .refl _ d, hc, fun m hm => hc.prefix h.directory hm, fun _ _ => rfl⟩
  | @missing q k name more hvacant hnames hr =>
    have hparents : more.length ≤ ((q.child name).descend more).names.length := by simp [Path.descend]
    exact hvacant.makeParentsWithin hc hparents hnames hr

/-! ## Trees -/

theorem not_below (h : ¬ l <+: m ∧ ¬ m <+: l) (names : List Text) : ¬ m <+: l ++ names := fun hp =>
  (List.prefix_or_prefix_of_prefix hp (List.prefix_append l names)).elim h.2 h.1

/-- **A file is copied** to what is no directory, and is another place. -/
theorem copyFile_of_found {bytes : Octets} {old : Option Entry} (hs : d.find source = .ok ⟨l, some (.file bytes)⟩)
    (ht : d.find target = .ok ⟨m, old⟩) (hold : old ≠ some .directory) (hne : l ≠ m) :
    copyFile source target d = (.ok (), d.put m (.file bytes)) := by
  have hdir : d.isDirectory target = false := by
    rw [Disk.isDirectory, Disk.at?, ht]
    simpa using hold
  have hread : d.read source = .ok bytes := by rw [Disk.read, hs]
  have hwrite : d.withFile target bytes = .ok (d.put m (.file bytes)) := by
    rw [Disk.withFile, ht]
    rcases old with _ | _ | _ | _
    · rfl
    · rfl
    · exact absurd rfl hold
    · rfl
  have hlast : (do write target (← check (·.read source)) : Change Unit) d = (.ok (), d.put m (.file bytes)) := by
    rw [Action.bind_apply, check, hread]
    dsimp only
    rw [write_eq, hwrite]
  unfold copyFile
  rw [Action.bind_apply, Action.get_apply]
  dsimp only
  rw [hdir, if_neg (by simp), hs, ht]
  rcases old with _ | entry
  · exact hlast
  · dsimp only
    rw [if_neg hne]
    exact hlast

/-- **A file that is copied under a name of a directory** is laid there, where nothing was or a file. -/
theorem copyFile_lays {bytes : Octets} (hs : d.find source = .ok ⟨l, some (.file bytes)⟩) (hm : d.DirectoryAt target m)
    (hr : refusal? (target.child name) = none) (hname : IsEntryName name) (hshort : exceeds longestName name = false)
    (hfree : d.LinkFree m) (hkind : ∀ old, d.locate? (m ++ [name]) = some old → old.SameKind (.file bytes))
    (hne : l ≠ m ++ [name]) :
    ∃ d', copyFile source (target.child name) d = (.ok (), d') ∧ d.Laid (.alone (.file bytes)) (m ++ [name]) d' := by
  have hthere := Disk.find_entry hm.found hr hname.2 hshort fun target => hfree _ target (List.prefix_append _ _)
  have hcopied := copyFile_of_found hs hthere (fun hdir => (hkind _ hdir).elim) hne
  exact ⟨_, hcopied, Disk.laid_put hm.directory hname (by simp) hkind⟩

/-- **A tree that fits over a folder**: the two stand apart and hold no links, no path of the copy is one that is not
looked up, and no file of the one stands where the other has a directory. -/
structure FitsOver (source target : Path) (l m : Location) (d : Disk) : Prop where
  sound : d.Sound
  closed : d.Closed
  tree : d.DirectoryAt source l
  folder : Ready d target m
  treeFree : d.LinkFree l
  folderFree : d.LinkFree m
  apart : ¬ l <+: m ∧ ¬ m <+: l
  short : ∀ names e, d.locate? (l ++ names) = some e → ∀ name ∈ names, exceeds longestName name = false
  looked : ∀ names e, d.locate? (l ++ names) = some e →
    refusal? (source.descend names) = none ∧ refusal? (target.descend names) = none
  alike : ∀ names e old, d.locate? (l ++ names) = some e → d.locate? (m ++ names) = some old → old.SameKind e

namespace FitsOver

theorem tree_stays {layer : Disk.Layer} (h : FitsOver source target l m d) (hlaid : d.Laid layer m d')
    (names : List Text) : d'.locate? (l ++ names) = d.locate? (l ++ names) := hlaid.outside _ (not_below h.apart names)

theorem after {layer : Disk.Layer} (h : FitsOver source target l m d) (hlaid : d.Laid layer m d')
    (hm : d'.DirectoryAt target m) (hlayer : ∀ names e, layer names = some e → d.locate? (l ++ names) = some e) :
    FitsOver source target l m d' where
  sound := hlaid.grows.sound h.sound
  closed := hlaid.closed h.closed
  tree := h.tree.grown hlaid.grows
  folder := .there hm
  treeFree := hlaid.grows.links.linkFree h.treeFree
  folderFree := hlaid.grows.links.linkFree h.folderFree
  apart := h.apart
  short names e he := h.short names e (h.tree_stays hlaid names ▸ he)
  looked names e he := h.looked names e (h.tree_stays hlaid names ▸ he)
  alike names e old he hold := by
    rw [h.tree_stays hlaid names] at he
    rw [hlaid.inside names] at hold
    rcases Option.or_eq_some_iff.1 hold with hnew | ⟨_, hold⟩
    · cases he.symm.trans (hlayer names old hnew)
      exact .refl e
    · exact h.alike names e old he hold

theorem alone_root {names : List Text} {x : Entry} (h : FitsOver source target l m d)
    (hx : Disk.Layer.alone .directory names = some x) : d.locate? (l ++ names) = some x := by
  obtain ⟨rfl, rfl⟩ : names = [] ∧ .directory = x := by simpa [Disk.Layer.alone] using hx
  rw [List.append_nil]
  exact h.tree.directory

theorem looked_child {x : Entry} (h : FitsOver source target l m d) (he : d.locate? (l ++ [name]) = some x) :
    refusal? (source.child name) = none ∧ refusal? (target.child name) = none := h.looked [name] x he

theorem child (h : FitsOver source target l m d) (hm : d.DirectoryAt target m) (hname : IsEntryName name)
    (hdir : d.locate? (l ++ [name]) = some .directory) :
    FitsOver (source.child name) (target.child name) (l ++ [name]) (m ++ [name]) d := by
  obtain ⟨hsource, htarget⟩ := h.looked_child hdir
  have hcons : ∀ (k : Location) names, k ++ [name] ++ names = k ++ name :: names := by simp
  refine
    { h with
      tree := ⟨Disk.find_child h.tree.found hsource hname.2 hdir (by simp), hdir⟩
      folder := ?_
      treeFree := h.treeFree.below (List.prefix_append _ _)
      folderFree := h.folderFree.below (List.prefix_append _ _)
      apart := ⟨fun hp => ?_, fun hp => ?_⟩
      short := fun names e he n hn => h.short (name :: names) e (hcons l names ▸ he) n (List.mem_cons_of_mem _ hn)
      looked := fun names e he => ?_
      alike := fun names e old he hold => h.alike (name :: names) e old (hcons l names ▸ he) (hcons m names ▸ hold) }
  · cases hold : d.locate? (m ++ [name]) with
    | none =>
      exact .vacant ⟨hm, hold, hname, h.short [name] _ hdir name List.mem_cons_self, htarget⟩
    | some old =>
      obtain rfl := Entry.SameKind.directory_iff (h.alike [name] _ _ hdir hold) |>.2 rfl
      exact .there ⟨Disk.find_child hm.found htarget hname.2 hold (by simp), hold⟩
  · rcases List.prefix_concat_iff.1 ((List.prefix_append l [name]).trans hp) with heq | hbelow
    · exact h.apart.2 (heq ▸ List.prefix_append m [name])
    · exact h.apart.1 hbelow
  · rcases List.prefix_concat_iff.1 ((List.prefix_append m [name]).trans hp) with heq | hbelow
    · exact h.apart.1 (heq ▸ List.prefix_append l [name])
    · exact h.apart.2 hbelow
  · rw [descend_child, descend_child]
    exact h.looked (name :: names) e (hcons l names ▸ he)

/-- **A file of a tree** is laid over its place in the folder. -/
theorem copyFile {bytes : Octets} (h : FitsOver source target l m d) (hm : d.DirectoryAt target m)
    (hname : IsEntryName name) (hfile : d.locate? (l ++ [name]) = some (.file bytes)) :
    ∃ d', copyFile (source.child name) (target.child name) d = (.ok (), d') ∧
      d.Laid (d.treeAt (l ++ [name])) (m ++ [name]) d' := by
  obtain ⟨hsource, htarget⟩ := h.looked_child hfile
  have hne : l ++ [name] ≠ m ++ [name] := fun heq => h.apart.1 ((List.append_inj' heq rfl).1 ▸ List.prefix_rfl)
  have hfound := Disk.find_child h.tree.found hsource hname.2 hfile (by simp)
  obtain ⟨d', hcopied, hlaid⟩ := copyFile_lays hfound hm htarget hname
    (h.short [name] _ hfile name List.mem_cons_self) h.folderFree (h.alike [name] _ · hfile) hne
  -- A file has nothing below it, so it is all of the tree that is laid over its place.
  have hlayer : Disk.Layer.alone (.file bytes) = d.treeAt (l ++ [name]) := by
    funext rest
    rw [Disk.Layer.alone, Disk.treeAt]
    by_cases hrest : rest = []
    · rw [if_pos hrest, hrest, List.append_nil, hfile]
    · rw [if_neg hrest]
      refine (Option.eq_none_iff_forall_ne_some.2 fun e he => ?_).symm
      cases hfile.symm.trans (h.closed.directory_above _ rest hrest he)
  exact ⟨d', hcopied, hlayer ▸ hlaid⟩

/-- **An entry of a tree is laid over its place in the folder**, if that is so for a directory. -/
theorem copyEntry {depth : Nat} {x : Entry} (h : FitsOver source target l m d) (hm : d.DirectoryAt target m)
    (hname : IsEntryName name) (hx : d.locate? (l ++ [name]) = some x)
    (hdir : FitsOver (source.child name) (target.child name) (l ++ [name]) (m ++ [name]) d →
      ∃ d', copyTreeWithin depth (source.child name) (target.child name) d = (.ok (), d') ∧
        d.Laid (d.treeAt (l ++ [name])) (m ++ [name]) d') :
    ∃ d', copyEntry depth source target name d = (.ok (), d') ∧ d.Laid (d.treeAt (l ++ [name])) (m ++ [name]) d' := by
  have hlink : ∀ target, x ≠ .link target := fun target ht => h.treeFree _ target (List.prefix_append _ _) (ht ▸ hx)
  rw [copyEntry_apply, Disk.isDirectory_of_find (Disk.find_child h.tree.found (h.looked_child hx).1 hname.2 hx hlink)]
  cases x with
  | file bytes => exact h.copyFile hm hname hx
  | link target => exact absurd rfl (hlink target)
  | directory => exact hdir (h.child hm hname hx)

end FitsOver

/-- **A tree on its way over a folder**: it still fits, and is the same as at first. -/
structure Underway (source target : Path) (l m : Location) (first d : Disk) : Prop where
  fits : FitsOver source target l m d
  folder : d.DirectoryAt target m
  same : ∀ names, d.locate? (l ++ names) = first.locate? (l ++ names)

theorem Underway.step {first : Disk} (h : Underway source target l m first d)
    (hlaid : d.Laid (.among [name] (first.treeAt l)) m d') : Underway source target l m first d' where
  fits := h.fits.after hlaid (h.folder.grown hlaid.grows) fun names x hx => by
    have hin : first.treeAt l names = some x := Disk.Layer.of_among hx
    rw [h.same]
    exact hin
  folder := h.folder.grown hlaid.grows
  same names := by rw [h.fits.tree_stays hlaid, h.same]

/-- **Entries that are copied one after the other** lay their parts of a layer over a folder, if each of them does. -/
theorem mapM_lays {step : Text → Change Unit} {layer : Disk.Layer} {P : Disk → Prop} : ∀ {entries : List Text},
    (∀ name ∈ entries, ∀ e, P e → ∃ e', step name e = (.ok (), e') ∧
      e.Laid (layer.under name) (m ++ [name]) e' ∧ P e') →
    ∀ {d : Disk}, P d → ∃ d', entries.mapM (fun name => fails (step name)) d = (.ok (entries.map fun _ => false), d') ∧
      d.Laid (.among entries layer) m d' ∧ P d'
  | [], _, d, hd => by
    refine ⟨d, rfl, ?_, hd⟩
    have hnone : Disk.Layer.among [] layer = fun _ => none := by
      funext names
      cases names <;> rfl
    exact hnone ▸ .nothing m d
  | name :: entries, hstep, d, hd => by
    obtain ⟨e, hcopied, hlaid, he⟩ := hstep name List.mem_cons_self d hd
    obtain ⟨d', hrest, hlaid', hd'⟩ := mapM_lays (fun n hn => hstep n (List.mem_cons_of_mem _ hn)) he
    refine ⟨d', ?_, Disk.Layer.among_or layer entries name ▸ hlaid.below.trans hlaid', hd'⟩
    rw [List.mapM_cons, Action.bind_apply, fails_apply, hcopied]
    dsimp only
    rw [Action.bind_apply, hrest]
    rfl

/-- **A tree that fits over a folder is laid over it** when it is copied to a depth that it does not reach. -/
theorem copyTreeWithin_lays : ∀ {depth : Nat} {source target : Path} {l m : Location} {d : Disk},
    FitsOver source target l m d → (∀ names, d.locate? (l ++ names) = some .directory → names.length < depth) →
    ∃ d', copyTreeWithin depth source target d = (.ok (), d') ∧ d.Laid (d.treeAt l) m d'
  | 0, _, _, l, _, d, h, hdepth => absurd (hdepth [] (by simpa using h.tree.directory)) (by simp)
  | depth + 1, source, target, l, m, d, h, hdepth => by
    obtain ⟨e, hmade, hm, hroot⟩ := h.folder.ensureDirectory
    have hunderway : Underway source target l m d e :=
      ⟨h.after hroot hm fun names x hx => h.alone_root hx, hm, h.tree_stays hroot⟩
    have hstep : ∀ name ∈ d.namesAt l, ∀ e, Underway source target l m d e →
        ∃ e', copyEntry depth source target name e = (.ok (), e') ∧
          e.Laid ((d.treeAt l).under name) (m ++ [name]) e' ∧ Underway source target l m d e' := by
      intro name hname e he
      obtain ⟨x, hx⟩ := Disk.mem_namesAt.1 hname
      obtain ⟨e', hcopied, hlaid⟩ := he.fits.copyEntry he.folder (h.sound.entryName hname) ((he.same _).trans hx)
        fun hfits => copyTreeWithin_lays hfits fun names hdir => by
          rw [List.append_assoc, he.same] at hdir
          simpa using hdepth (name :: names) hdir
      have hsame : e.treeAt l = d.treeAt l := funext he.same
      rw [← Disk.treeAt_under, hsame] at hlaid
      exact ⟨e', hcopied, hlaid, he.step hlaid.below⟩
    obtain ⟨d', hcopied, hlaid, _⟩ := mapM_lays hstep hunderway
    refine ⟨d', ?_, Disk.treeAt_eq_or h.closed h.tree.directory ▸ hroot.trans hlaid⟩
    have hlist : d.list source = .ok (d.namesAt l) := by rw [Disk.list, h.tree.found]
    unfold copyTreeWithin
    refine Action.bind_eq_ok_iff.2 ⟨_, d, check_eq_ok.2 ⟨hlist, rfl⟩, Action.bind_eq_ok_iff.2 ⟨(), e, hmade, ?_⟩⟩
    refine Action.bind_eq_ok_iff.2 ⟨_, d', hcopied, ?_⟩
    rw [if_neg (by simp)]
    rfl

/-- **No entry is nested deeper than there are entries**, because each one above it is another. -/
theorem Disk.Closed.length_le {names : List Text} {x : Entry} (hc : d.Closed) (hx : d.locate? (l ++ names) = some x) :
    names.length ≤ d.entries.length := by
  -- The prefixes of the path with one name or more are all different, and each is that of an entry.
  let above := (List.range names.length).map fun k => l ++ names.take (k + 1)
  have hnodup : above.Nodup := by
    refine List.pairwise_map.2 (List.nodup_range.imp_of_mem fun hi hj hne heq => hne ?_)
    rw [List.mem_range] at hi hj
    have hlength := congrArg List.length heq
    simp only [List.length_append, List.length_take] at hlength
    omega
  have hsub : above ⊆ Table.keys d.entries := by
    intro m hm
    obtain ⟨k, hk, rfl⟩ := List.mem_map.1 hm
    rw [List.mem_range] at hk
    have hthere : ∃ y, d.locate? (l ++ names.take (k + 1)) = some y := by
      by_cases hrest : names.drop (k + 1) = []
      · exact ⟨x, by rwa [← List.append_nil (names.take _), ← hrest, List.take_append_drop]⟩
      · refine ⟨_, hc.directory_above _ _ hrest (e := x) ?_⟩
        rwa [List.append_assoc, List.take_append_drop]
    obtain ⟨y, hy⟩ := hthere
    have hne : l ++ names.take (k + 1) ≠ [] := List.ne_nil_of_length_pos (by simp; omega)
    exact List.mem_map.2 ⟨_, mem_entries_of_locate? hne hy, rfl⟩
  have hlength := hnodup.length_le_of_subset hsub
  simpa [above, Table.keys] using hlength

/-- **A tree that fits over a folder is laid over it** when it is copied. -/
theorem copyTree_lays (h : FitsOver source target l m d) :
    ∃ d', copyTree source target d = (.ok (), d') ∧ d.Laid (d.treeAt l) m d' := by
  have hdepth : ∀ names, d.locate? (l ++ names) = some .directory → names.length < d.depthBound := by
    intro names hdir
    have hlength := h.closed.length_le hdir
    have hpasses : 1 ≤ d.passes := by
      unfold Disk.passes
      split <;> omega
    have hbound := Nat.le_mul_of_pos_left (d.entries.length + 2) hpasses
    unfold Disk.depthBound
    omega
  exact copyTreeWithin_lays h hdepth

end DocFerry.Files
