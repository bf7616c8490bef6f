import DocFerry.Proofs.Site.Listing
/-!
# Documents apart from what is written

While a run writes below an output folder that is apart from the documents, every document and every folder's
metadata stays as it was; all that may appear among the documents are folders without documents
(`Apart.locate?_docs`, `Apart.isDocument_iff`).  So what is listed later is, for every entry that leads to a document,
what was there at first (`Apart.isDirectory_of_document`, `Apart.rank_eq`).
-/
namespace DocFerry.Site

open Files Nav

/-- **Documents apart from the output folder**, on a disk without links at either. -/
structure Apart (d : Disk) (docs output : Path) : Prop where
  sound : d.Sound
  proper : output.Proper
  docs_free : d.LinkFree (d.settle docs)
  output_free : d.LinkFree (d.settle output)
  not_inside : ¬ d.settle docs <+: d.settle output
  not_around : ¬ d.settle output <+: d.settle docs
  above : ∀ a b bytes, b ≠ [] → d.locate? (d.settle docs ++ a ++ b) = some (.file bytes) →
    d.locate? (d.settle docs ++ a) = some .directory
  names : ∀ a bytes, d.locate? (d.settle docs ++ a) = some (.file bytes) → ∀ name ∈ a, isFileName name = true

theorem apart_of_isTree {d : Disk} {docs output : Path} (h : d.IsTree) (hp : output.Proper)
    (hd : d.LinkFree (d.settle docs)) (ho : d.LinkFree (d.settle output))
    (hi : ¬ d.settle docs <+: d.settle output) (ha : ¬ d.settle output <+: d.settle docs) : Apart d docs output where
  sound := h.sound
  proper := hp
  docs_free := hd
  output_free := ho
  not_inside := hi
  not_around := ha
  above _ b _ hb hf := h.directory_above _ b hb hf
  names _ _ hf name hn := h.fileNames hf name (List.mem_append_right _ hn)

namespace Apart

variable {d d' : Disk} {docs output : Path} (h : Apart d docs output) (hg : d.Grows (.below (d.settle output)) d')

include h

/-- **The area that is written to holds no document.** -/
theorem not_below {m : Location} (hm : d.settle docs <+: m) : ¬ Area.below (d.settle output) m := fun ho =>
  (List.prefix_or_prefix_of_prefix hm ho).elim h.not_inside h.not_around

/-- **No document is below another.** -/
theorem document_alone {a b : Address} (ha : IsDocument d (d.settle docs) a) (hb : IsDocument d (d.settle docs) b)
    (hab : a <+: b) : b = a := by
  obtain ⟨rest, rfl⟩ := hab
  by_cases hr : rest = []
  · rw [hr, List.append_nil]
  · obtain ⟨bytes, hf⟩ := ha.file
    obtain ⟨other, hother⟩ := hb.file
    rw [← List.append_assoc] at hother
    rw [h.above _ _ _ hr hother] at hf
    cases hf

theorem entry_of_document {dirs : List Text} {name : Text} {a : Address} (hd : IsDocument d (d.settle docs) a)
    (hp : dirs ++ [name] <+: a) : ∃ e, d.locate? (d.settle docs ++ dirs ++ [name]) = some e := by
  obtain ⟨rest, rfl⟩ := hp
  obtain ⟨bytes, hf⟩ := hd.file
  by_cases hr : rest = []
  · subst hr
    exact ⟨_, by simpa using hf⟩
  · rw [← List.append_assoc] at hf
    exact ⟨_, by simpa using h.above _ _ _ hr hf⟩

include hg

/-- **Among the documents nothing changes** but that folders may appear. -/
theorem locate?_docs {m : Location} (hm : d.settle docs <+: m) :
    d'.locate? m = d.locate? m ∨ d.locate? m = none ∧ d'.locate? m = some .directory :=
  hg.outside m (h.not_below hm)

theorem file_iff {m : Location} (hm : d.settle docs <+: m) {bytes : Text.Utf8.Octets} :
    d'.locate? m = some (.file bytes) ↔ d.locate? m = some (.file bytes) := by
  rcases h.locate?_docs hg hm with he | ⟨hn, he⟩
  · rw [he]
  · simp [hn, he]

theorem isDocument_iff {a : Address} : IsDocument d' (d.settle docs) a ↔ IsDocument d (d.settle docs) a := by
  constructor <;> rintro ⟨⟨bytes, hf⟩, hs, hp⟩
  · exact ⟨⟨bytes, (h.file_iff hg (List.prefix_append _ _)).1 hf⟩, hs, hp⟩
  · exact ⟨⟨bytes, (h.file_iff hg (List.prefix_append _ _)).2 hf⟩, hs, hp⟩

theorem categoryAt_eq {m : Location} (hm : d.settle docs <+: m) : categoryAt d' m = categoryAt d m := by
  unfold categoryAt
  rcases h.locate?_docs hg (hm.trans (List.prefix_append m [categoryFile])) with he | ⟨hn, he⟩
  · rw [he]
  · rw [hn, he]

/-- **The rank of an entry stays the same.** -/
theorem rankAt_eq {m : Location} (hm : d.settle docs <+: m) {name : Text} (hn : d.locate? (m ++ [name]) ≠ none) :
    rankAt d' m name = rankAt d m name := by
  have hchild := hm.trans (List.prefix_append m [name])
  unfold rankAt
  rw [h.categoryAt_eq hg hchild]
  rcases h.locate?_docs hg hchild with he | ⟨hnone, _⟩
  · rw [he]
  · exact absurd hnone hn

/-! ## What is listed later -/

variable {dirs : List Text} {entries : List Sibling}

/-- **A list of a folder's entries made later** is as the disk then has them. -/
theorem lists (hup : Path.up ∉ dirs) (hs : siblings d' (docs.descend dirs) = .ok entries) :
    Lists d' (docs.descend dirs) (d.settle docs ++ dirs) entries := by
  have hsound := hg.sound h.sound
  refine siblings_eq_ok hsound (fun m hm => ?_) ?_ hs
  · exact Disk.location_of_find_descend hsound hg.links h.docs_free hup hm
  · exact (hg.links.linkFree h.docs_free).below (List.prefix_append _ _)

/-- **An entry that leads to a document** is a folder, unless it is the document itself. -/
theorem isDirectory_of_document (hl : Lists d' (docs.descend dirs) (d.settle docs ++ dirs) entries) {s : Sibling}
    (hs : s ∈ entries) {a : Address} (hd : IsDocument d (d.settle docs) a) (hp : dirs ++ [s.name] <+: a) :
    s.isDirectory = true ↔ a ≠ dirs ++ [s.name] := by
  obtain ⟨rest, rfl⟩ := hp
  obtain ⟨bytes, hf⟩ := hd.file
  have hloc : d.settle docs ++ dirs ++ [s.name] = d.settle docs ++ (dirs ++ [s.name]) := by simp
  constructor
  · intro hdir he
    rw [he, ← h.file_iff hg (List.prefix_append _ _), ← hloc, (hl.fits s hs).folder hdir] at hf
    cases hf
  · intro hne
    have hr : rest ≠ [] := fun hr => hne (by simp [hr])
    cases hdir : s.isDirectory with
    | true => rfl
    | false =>
      have hname : isFileName s.name = true := h.names _ _ hf _ (by simp)
      refine absurd ?_ ((hl.fits s hs).plain hdir (isFileName_not_null hname))
      rw [← List.append_assoc] at hf
      have habove := h.above _ _ _ hr hf
      rcases h.locate?_docs hg (List.prefix_append (d.settle docs) (dirs ++ [s.name])) with he | ⟨_, he⟩
      · rw [hloc, he, habove]
      · rw [hloc, he]

/-- **Every document in a folder** is led to by an entry of the list. -/
theorem entry_listed (hl : Lists d' (docs.descend dirs) (d.settle docs ++ dirs) entries) {a : Address}
    (hd : IsDocument d (d.settle docs) a) (hp : dirs <+: a) (hne : a ≠ dirs) :
    ∃ s ∈ entries, dirs ++ [s.name] <+: a := by
  obtain ⟨rest, rfl⟩ := hp
  obtain ⟨name, rest, rfl⟩ := List.exists_cons_of_ne_nil fun hr : rest = [] => hne (by simp [hr])
  have hp : dirs ++ [name] <+: dirs ++ name :: rest := ⟨rest, by simp⟩
  obtain ⟨e, he⟩ := h.entry_of_document hd hp
  obtain ⟨e', he', _⟩ := hg.kept _ _ he
  obtain ⟨s, hs, rfl⟩ := (hl.names name).2 ⟨e', he'⟩
  exact ⟨s, hs, hp⟩

/-- **An entry that leads to a document** has the rank that the disk gave at first. -/
theorem rank_eq (hl : Lists d' (docs.descend dirs) (d.settle docs ++ dirs) entries) {s : Sibling} (hs : s ∈ entries)
    (hr : refusal? s.path = none) {a : Address} (hd : IsDocument d (d.settle docs) a) (hp : dirs ++ [s.name] <+: a) :
    s.rank = rankAt d (d.settle docs ++ dirs) s.name := by
  obtain ⟨e, he⟩ := h.entry_of_document hd hp
  rw [(hl.fits s hs).rank hr, h.rankAt_eq hg (List.prefix_append _ _) (by rw [he]; simp)]

end Apart
end DocFerry.Site
