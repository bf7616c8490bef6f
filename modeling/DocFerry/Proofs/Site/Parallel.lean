import DocFerry.Proofs.Site.Edited
import DocFerry.Proofs.Site.Preservation
/-!
# Two assemblies side by side

Assemblies of two sites that are the same but for edited documents go on side by side: each page, each folder and the
whole keep the two worlds alike but for the pages made from what has changed (`writePage_agrees`, `walkWithin_agrees`,
`assemble_agrees`).  So editing a document moves no other page and changes none (`assemble_edited`).
-/
namespace DocFerry.Site

open Files Nav
open DocFerry.Action (ResultsAlike)
open Text.Utf8 (Octets)

variable {d d' : Disk} {docs output : Path} {w w' : World} {dirs : List Text} {convert : Converter} {α : Type}

/-- **Two jobs that agree** while two sites are assembled side by side. -/
abbrev SideBySide (d d' : Disk) (docs output : Path) (Q : α → α → Prop) (job job' : Job α) : Prop :=
  Action.Agrees (Beside d d' docs output) (fun _ _ => True) Q job job'

theorem check_alike (hb : Beside d d' docs output w w') {Q : α → α → Prop} {f : Disk → Except Failure α}
    (h : ResultsAlike Q (f w.disk) (f w'.disk)) :
    Action.Alike (Beside d d' docs output) (fun _ _ => True) Q (Job.check f w) (Job.check f w') := by
  rw [Job.check, Job.check]
  generalize f w.disk = r, f w'.disk = r' at h
  cases h with
  | ok hq => exact .ok hb hq
  | error => exact .error hb trivial

theorem check_alike_of_eq (hb : Beside d d' docs output w w') {f : Disk → Except Failure α}
    (h : f w.disk = f w'.disk) :
    Action.Alike (Beside d d' docs output) (fun _ _ => True) Eq (Job.check f w) (Job.check f w') := by
  refine check_alike hb ?_
  rw [h]
  exact .refl _ fun _ => rfl

theorem onDisk_alike (hb : Beside d d' docs output w w') {c c' : Change α}
    (hc : Action.Alike (Disk.AlikeBut (Edits d d' docs output)) Eq Eq (c w.disk) (c' w'.disk))
    (hg : w.disk.Grows (.below (d.settle output)) (c w.disk).2) :
    Action.Alike (Beside d d' docs output) (fun _ _ => True) Eq (Job.onDisk c w) (Job.onDisk c' w') := by
  rw [Job.onDisk, Job.onDisk]
  generalize c w.disk = r, c' w'.disk = r' at hc hg
  cases hc with
  | ok ha he => exact .ok ⟨ha, hb.grows.trans hg, hb.targets⟩ he
  | error ha => exact .error ⟨ha, hb.grows.trans hg, hb.targets⟩ trivial

/-! ## Pages -/

section Page

variable {s : Sibling}

/-- **A page is read alike** in both worlds, or it is a source document that has changed. -/
theorem readDocument_alike (h : Apart d docs output) (hb : Beside d d' docs output w w')
    (hs : Shown d docs output dirs s) (hshared : ∀ name ∈ dirs.head?, Text.lower name ≠ partialsFolder) :
    Action.Alike (Beside d d' docs output) (fun _ _ => True)
      (fun raw raw' => raw' = raw ∨ Changed d d' (d.settle docs) (dirs ++ [s.name]))
      (Job.check (fun d => (readDocument d s.path).mapError .disk) w)
      (Job.check (fun d => (readDocument d s.path).mapError .disk) w') := by
  have hup : Path.up ∉ dirs ++ [s.name] := not_mem_up fun name hn => (hs.names h name hn).1
  refine check_alike hb ?_
  rw [hs.path]
  rcases hb.document_alike h hup with he | ⟨b, b', hedited, hr, hr'⟩
  · rw [← he]
    exact .refl _ fun _ => .inl rfl
  · rw [hr, hr']
    refine .ok ?_
    by_cases hbytes : b' = b
    · exact .inl (by rw [hbytes])
    · refine .inr ⟨⟨⟨⟨b, hedited.before⟩, fun name hn => (hs.names h name hn).2, hedited.page⟩, ?_⟩, ?_⟩
      · rw [Address.folders_append]
        exact hshared
      · rw [hedited.before, hedited.after]
        simpa using hbytes

/-- **A page that is written** leaves the worlds alike but for what is made from a document that has changed. -/
theorem writePage_agrees (h : Apart d docs output) (hs : Shown d docs output dirs s)
    (hshared : ∀ name ∈ dirs.head?, Text.lower name ≠ partialsFolder) (label : Option Text) :
    SideBySide d d' docs output Eq (writePage convert output s.path (Text.join ['/'] dirs) label)
      (writePage convert output s.path (Text.join ['/'] dirs) label) := by
  intro w w' hb
  have hnames := hs.names h
  have hdirs : ∀ name ∈ dirs, IsEntryName name := fun name hn => (hs.above name hn).1
  have hslash : '/' ∉ s.name := (hnames s.name (by simp)).1.1.2
  have hname : s.path.name = s.name := by rw [hs.path, ← Path.child_descend, Path.name_child]
  have hentries : ∀ name ∈ Address.target (dirs ++ [s.name]), IsEntryName name := by
    refine Address.target_entryNames ?_ (by rwa [Address.file_append])
    rwa [Address.folders_append]
  have hproper : (targetAt output (dirs ++ [s.name])).Proper := proper_descend h.proper hentries
  unfold writePage
  simp only [hname, targetPath_join output hdirs hslash]
  refine (readDocument_alike h hb hs hshared).bind fun raw raw' hraw => ?_
  refine Action.Agrees.bind (Q := Eq) (fun u u' hu => ?_) fun _ _ _ => ?_
  · exact onDisk_alike hu (makeDirectories_agrees _ _ _ _ _ hu.alike) (makeDirectories_grows true hproper.parent _).wide
  -- The one step where the worlds may come apart: the texts that were read may differ, and so may their conversions.
  refine Action.Agrees.bind (Q := Eq) (fun u u' hu => onDisk_alike hu ?_ ?_) fun _ _ _ => ?_
  · refine write_alike hu.alike fun place hf => ?_
    have hsound := hu.grows.sound h.sound
    have hl := Disk.location_of_find_descend hsound hu.grows.links h.output_free (not_mem_up hentries) hf
    rcases hraw with rfl | hchanged
    · exact .inl rfl
    · exact .inr (.inr ⟨_, hchanged, hl⟩)
  · have hsound := hu.grows.sound h.sound
    refine ((write_wrote hproper _ u.disk).mono fun q hq => ?_).below hsound hu.grows.links h.output_free
    exact ⟨_, hentries, hq⟩
  refine Action.Agrees.bind (Q := Eq) (fun u u' hu => ?_) fun _ _ _ => ?_
  · exact .ok ⟨hu.alike, hu.grows, by simp [hu.targets]⟩ rfl
  refine Action.Agrees.bind (Q := Eq) (fun u u' hu => ?_) fun _ _ _ => ?_
  · exact .ok ⟨hu.alike, hu.grows, hu.targets⟩ rfl
  exact Action.Agrees.pure rfl

end Page

/-! ## Folders -/

/-- **Entries that are listed alike.** -/
def ListedAlike (d : Disk) (docs output : Path) (dirs : List Text) (entries entries' : List Sibling) : Prop :=
  List.Forall₂ (fun s t => t.face = s.face) entries entries' ∧
    ∀ s ∈ entries, isHidden s.name = false → Shown d docs output dirs s

theorem forall₂_faces {entries entries' : List Sibling} (h : entries'.map Sibling.face = entries.map Sibling.face) :
    List.Forall₂ (fun s t => t.face = s.face) entries entries' := by
  have heq : List.Forall₂ Eq (entries'.map Sibling.face) (entries.map Sibling.face) := by
    rw [List.forall₂_eq_eq_eq]
    exact h
  exact (List.forall₂_map_left_iff.1 (List.forall₂_map_right_iff.1 heq)).flip

theorem isIgnored_of_face {s t : Sibling} (h : t.face = s.face) : t.isIgnored = s.isIgnored := by
  have hname : t.name = s.name := congrArg Prod.fst h
  rw [Sibling.isIgnored, Sibling.isIgnored, hname]

theorem ListedAlike.shown {entries entries' : List Sibling} (h : ListedAlike d docs output dirs entries entries') :
    ListedAlike d docs output dirs (entries.filter fun s => !s.isIgnored) (entries'.filter fun s => !s.isIgnored) := by
  obtain ⟨hfaces, hshown⟩ := h
  refine ⟨?_, fun s hs => hshown s (List.mem_filter.1 hs).1⟩
  clear hshown
  induction hfaces with
  | nil => exact .nil
  | @cons s t entries entries' hface _ ih =>
    by_cases hs : s.isIgnored = true
    · rw [List.filter_cons_of_neg (by simp [hs]), List.filter_cons_of_neg (by simp [isIgnored_of_face hface, hs])]
      exact ih
    · rw [List.filter_cons_of_pos (by simp [hs]), List.filter_cons_of_pos (by simp [isIgnored_of_face hface, hs])]
      exact .cons hface ih

theorem addSibling_of_face {below : Path → Text → Job Nav.Group} {relative label : Text} {g : Nav.Group} {s t : Sibling}
    (h : t.face = s.face) :
    addSibling convert output below relative label g t = addSibling convert output below relative label g s := by
  obtain ⟨name, path, isDirectory, rank⟩ := s
  obtain ⟨name', path', isDirectory', rank'⟩ := t
  simp only [Sibling.face, Prod.mk.injEq] at h
  obtain ⟨rfl, rfl, rfl, _⟩ := h
  rfl

theorem addEntry_of_face {c : Classifier} {b : Buckets} {s t : Sibling} (h : t.face = s.face) :
    addEntry convert output c b t = addEntry convert output c b s := by
  obtain ⟨name, path, isDirectory, rank⟩ := s
  obtain ⟨name', path', isDirectory', rank'⟩ := t
  simp only [Sibling.face, Prod.mk.injEq] at h
  obtain ⟨rfl, rfl, rfl, _⟩ := h
  rfl

theorem siblings_agrees (h : Apart d docs output) (hd : ∀ name ∈ dirs, IsEntryName name ∧ isHidden name = false) :
    SideBySide d d' docs output (ListedAlike d docs output dirs)
      (Job.check fun e => siblings e (docs.descend dirs)) (Job.check fun e => siblings e (docs.descend dirs)) := by
  intro w w' hb
  have hup : Path.up ∉ dirs := not_mem_up fun name hn => (hd name hn).1
  refine check_alike hb ?_
  have hlisted := hb.siblings_alike h hup
  generalize he : siblings w.disk (docs.descend dirs) = r, siblings w'.disk (docs.descend dirs) = r' at hlisted
  cases hlisted with
  | error => exact .error
  | ok hfaces =>
    refine .ok ⟨forall₂_faces hfaces, fun s hs hshown => ?_⟩
    exact ⟨hd, ⟨w.disk, _, hb.grows, hs, h.lists hb.grows hup he⟩, hshown⟩

theorem addSibling_agrees (h : Apart d docs output) {s : Sibling} (hs : Shown d docs output dirs s)
    (hshared : ∀ name ∈ dirs.head?, Text.lower name ≠ partialsFolder) {below : Path → Text → Job Nav.Group}
    (hbelow : SideBySide d d' docs output Eq (below s.path (Text.join ['/'] (dirs ++ [s.name])))
      (below s.path (Text.join ['/'] (dirs ++ [s.name])))) (label : Text) (g : Nav.Group) :
    SideBySide d d' docs output Eq (addSibling convert output below (Text.join ['/'] dirs) label g s)
      (addSibling convert output below (Text.join ['/'] dirs) label g s) := by
  unfold addSibling
  rw [hs.relative h]
  split
  · refine hbelow.bind ?_
    rintro child _ rfl
    exact Action.Agrees.pure rfl
  · split
    · refine (writePage_agrees h hs hshared (some label)).bind ?_
      rintro slug _ rfl
      dsimp only
      split
      · refine Action.Agrees.bind (Q := Eq) (fun u u' hu => ?_) fun _ _ _ => Action.Agrees.pure rfl
        exact .ok ⟨hu.alike, hu.grows, hu.targets⟩ rfl
      · exact Action.Agrees.pure rfl
    · exact Action.Agrees.pure rfl

/-- **A folder that is walked** yields the same group in both worlds. -/
theorem walkWithin_agrees (h : Apart d docs output) : ∀ (depth : Nat) {dirs : List Text},
    (∀ name ∈ dirs, IsEntryName name ∧ isHidden name = false) → dirs ≠ [] →
    (∀ name ∈ dirs.head?, Text.lower name ≠ partialsFolder) →
    SideBySide d d' docs output Eq (walkWithin convert output depth (docs.descend dirs) (Text.join ['/'] dirs))
      (walkWithin convert output depth (docs.descend dirs) (Text.join ['/'] dirs))
  | 0, _, _, _, _ => Action.Agrees.throw trivial
  | depth + 1, dirs, hd, hne, hshared => by
    have hup : Path.up ∉ dirs := not_mem_up fun name hn => (hd name hn).1
    unfold walkWithin
    refine Action.Agrees.bind (Q := Eq) (fun u u' hu => check_alike_of_eq hu (hu.groupLabel_alike h hup)) ?_
    rintro label _ rfl
    refine (siblings_agrees h hd).bind fun entries entries' hlisted => ?_
    obtain ⟨hfaces, hshown⟩ := hlisted.shown
    refine Action.Agrees.foldlM hfaces (fun s hs t g g' hface hg => ?_) rfl
    subst hg
    have hs := hshown s hs (by simpa [isIgnored_eq_isHidden] using (List.mem_filter.1 hs).2)
    rw [addSibling_of_face hface]
    refine addSibling_agrees h hs hshared ?_ label g
    rw [hs.path]
    refine walkWithin_agrees h depth (hs.names h) (by simp) ?_
    rwa [List.head?_append_of_ne_nil _ hne]

theorem walk_agrees (h : Apart d docs output) (hd : ∀ name ∈ dirs, IsEntryName name ∧ isHidden name = false)
    (hne : dirs ≠ []) (hshared : ∀ name ∈ dirs.head?, Text.lower name ≠ partialsFolder) :
    SideBySide d d' docs output Eq (walk convert output (docs.descend dirs) (Text.join ['/'] dirs))
      (walk convert output (docs.descend dirs) (Text.join ['/'] dirs)) := by
  unfold walk
  refine Action.Agrees.bind (Q := Eq) (fun u u' hu => .ok hu hu.alike.depthBound) ?_
  rintro depth _ rfl
  exact walkWithin_agrees h depth hd hne hshared

/-! ## The whole site -/

theorem addEntry_agrees (h : Apart d docs output) (c : Classifier) {s : Sibling} (hs : Shown d docs output [] s)
    (b : Buckets) :
    SideBySide d d' docs output Eq (addEntry convert output c b s) (addEntry convert output c b s) := by
  unfold addEntry
  split
  · exact Action.Agrees.pure rfl
  · rename_i hskip
    have hshared : Text.lower s.name ≠ partialsFolder := by
      intro hpartials
      exact hskip (by simp [isSkipped, hpartials])
    split
    · have hwalk : SideBySide d d' docs output Eq (walk convert output s.path s.name)
          (walk convert output s.path s.name) := by
        rw [hs.path]
        exact walk_agrees h (hs.names h) (by simp) (by simpa using hshared)
      refine hwalk.bind ?_
      rintro g _ rfl
      exact Action.Agrees.pure rfl
    · split
      · refine (writePage_agrees h hs (by simp) (some gettingStartedLabel)).bind ?_
        rintro slug _ rfl
        exact Action.Agrees.pure rfl
      · exact Action.Agrees.pure rfl

/-- **Two assemblies side by side** yield the same buckets. -/
theorem assemble_agrees (h : Apart d docs output) (c : Classifier) :
    SideBySide d d' docs output Eq (assemble convert output c docs) (assemble convert output c docs) := by
  unfold assemble
  have hlist : SideBySide d d' docs output (ListedAlike d docs output [])
      (Job.check fun e => siblings e (docs.descend [])) _ := siblings_agrees h (by simp)
  rw [Path.descend_nil] at hlist
  refine hlist.bind fun entries entries' hlisted => ?_
  refine Action.Agrees.foldlM hlisted.1 (fun s hs t b b' hface hb => ?_) rfl
  subst hb
  rw [addEntry_of_face hface]
  by_cases hhidden : isHidden s.name = true
  · rw [addEntry_skipped (by simp [isSkipped, isIgnored_eq_isHidden, hhidden])]
    exact Action.Agrees.pure rfl
  · exact addEntry_agrees h c (hlisted.2 s hs (by simpa using hhidden)) b

/-- **Two sites that are the same but for edited documents** are what two runs begin with. -/
theorem beside_start (h : w.disk.IsTree) (h' : w'.disk.IsTree)
    (hedited : SameButEdited (w.disk.settle docs) w.disk w'.disk)
    (hwritten : w'.written.map Emission.target = w.written.map Emission.target) :
    Beside w.disk w'.disk docs output w w' where
  alike := by
    refine ⟨hedited.here, h.nodup, h'.nodup, fun l => ?_⟩
    rcases hedited.same l with he | ⟨a, b, b', rfl, he⟩
    · exact .inl he
    · have hb := he.before
      have hb' := he.after
      rw [Disk.locate?, if_neg (append_ne_nil_of_isPageName he.page)] at hb hb'
      exact .inr ⟨b, b', hb, hb', .inl ⟨a, rfl, he⟩⟩
  grows := .refl _ _
  targets := hwritten

/-- **Editing documents moves no page and changes no other.**  Let two sites be the same but for the text of documents
that keep their ranks.  Then one can be assembled exactly if the other can, both have the same buckets and are written
to the same places in the same order, and the two disks differ only among the documents and where the pages of those
that have changed are written. -/
theorem assemble_edited {c : Classifier} (htree : w.disk.IsTree) (htree' : w'.disk.IsTree) (hproper : output.Proper)
    (hdocs : w.disk.LinkFree (w.disk.settle docs)) (houtput : w.disk.LinkFree (w.disk.settle output))
    (hinside : ¬ w.disk.settle docs <+: w.disk.settle output)
    (haround : ¬ w.disk.settle output <+: w.disk.settle docs)
    (hedited : SameButEdited (w.disk.settle docs) w.disk w'.disk)
    (hwritten : w'.written.map Emission.target = w.written.map Emission.target) :
    (assemble convert output c docs w).1.isOk = (assemble convert output c docs w').1.isOk ∧
      ∀ b u b' u', assemble convert output c docs w = (.ok b, u) → assemble convert output c docs w' = (.ok b', u') →
        b' = b ∧ u'.written.map Emission.target = u.written.map Emission.target ∧
          ∀ l, ¬ w.disk.settle docs <+: l →
            (∀ a, Changed w.disk w'.disk (w.disk.settle docs) a → l ≠ w.disk.settle output ++ a.target) →
            u'.disk.locate? l = u.disk.locate? l := by
  have h := apart_of_isTree htree hproper hdocs houtput hinside haround
  have hends : Action.Alike _ _ _ (assemble convert output c docs w) (assemble convert output c docs w') :=
    assemble_agrees h c w w' (beside_start htree htree' hedited hwritten)
  refine ⟨hends.isOk_eq, fun b u b' u' hrun hrun' => ?_⟩
  rw [hrun, hrun'] at hends
  obtain ⟨hbeside, hbuckets⟩ := hends.of_ok
  refine ⟨hbuckets.symm, hbeside.targets, fun l hl hunchanged => ?_⟩
  rcases hbeside.alike.locate? l with he | ⟨_, _, _, _, ⟨a, hla, _⟩ | ⟨a, hchanged, hla⟩⟩
  · exact he
  · exact absurd (hla ▸ List.prefix_append _ _) hl
  · exact absurd hla (hunchanged a hchanged)

/-- **The small site, with the document of its folder edited.** -/
def editedSite : Disk :=
  smallSite.put ["docs".toList, "guide".toList, "start.md".toList] (.file [0x7a])

theorem editedSite_sameButEdited : SameButEdited ["docs".toList] smallSite editedSite :=
  SameButEdited.put (a := ["guide".toList, "start.md".toList]) (b := [0x63]) (by decide) (by decide) (by decide)

theorem assemble_edited_editedSite : ∃ b u u',
    assemble (·.raw) (.word "out") .standard (.word "docs") { disk := smallSite } = (.ok b, u) ∧
      assemble (·.raw) (.word "out") .standard (.word "docs") { disk := editedSite } = (.ok b, u') ∧
      u'.written.map Emission.target = u.written.map Emission.target ∧
      u'.disk.locate? ["out".toList, "a.mdx".toList] = u.disk.locate? ["out".toList, "a.mdx".toList] := by
  obtain ⟨b, u, hrun⟩ := Action.exists_eq_ok (show (assemble (·.raw) (.word "out") .standard (.word "docs")
    { disk := smallSite }).1.isOk = true by decide +kernel)
  obtain ⟨hok, hsame⟩ := @assemble_edited (.word "docs") (.word "out") { disk := smallSite } { disk := editedSite }
    (·.raw) .standard smallSite_isTree ⟨by decide, by decide, by decide, by decide⟩ (Path.ofText_proper _)
    (smallSite_linkFree _) (smallSite_linkFree _) (by decide) (by decide) editedSite_sameButEdited rfl
  rw [hrun] at hok
  obtain ⟨b', u', hrun'⟩ := Action.exists_eq_ok hok.symm
  obtain ⟨rfl, htargets, hfiles⟩ := hsame b u b' u' hrun hrun'
  refine ⟨b', u, u', hrun, hrun', htargets, hfiles _ (by decide) fun a hchanged hl => ?_⟩
  have ha : ["docs".toList] ++ a = ["docs".toList, "guide".toList, "start.md".toList] :=
    by_contra fun hne => hchanged.2 (Disk.locate?_put_ne smallSite _ hne)
  obtain rfl : a = ["guide".toList, "start.md".toList] := List.append_cancel_left ha
  exact absurd hl (by decide)

end DocFerry.Site
