import DocFerry.Proofs.Site.Sources
/-!
# What the list of a folder's entries says

Where the list of a folder's entries is made, it holds each name in the folder once, tells which of them are
folders, and is in the order of the ranks that the disk gives (`siblings_eq_ok`).  The metadata of a folder is what
its file says (`read_category`).
-/
namespace DocFerry.Site

open Files Nav

theorem categoryFile_plain : categoryFile.contains (Char.ofNat 0) = false ∧ categoryFile ≠ Path.up := by decide

/-- **The metadata of a folder** is what its file says. -/
theorem read_category {d : Disk} {p : Path} {l : Location} {c : Category} (hf : d.find p = .ok ⟨l, some .directory⟩)
    (hl : d.LinkFree l) (h : Category.read d p = .ok c) : categoryAt d l = c := by
  unfold Category.read Disk.seekFile at h
  cases hs : d.seek (p.child categoryFile) with
  | error problem =>
    rw [hs] at h
    cases h
  | ok found =>
    have he := Disk.seek_child hf categoryFile_plain.1 categoryFile_plain.2
      (fun t => hl _ t (List.prefix_append _ _)) hs
    rw [hs] at h
    unfold categoryAt
    rw [← he]
    rcases found with _ | ⟨bytes | _ | _⟩
    · exact Except.ok.inj h
    · change Category.ofBytes bytes = .ok c at h
      simp only [h]
      rfl
    · exact Except.ok.inj h
    · exact Except.ok.inj h

/-- **An entry of a list**, as the disk has it. -/
structure Fits (d : Disk) (p : Path) (l : Location) (s : Sibling) : Prop where
  path : s.path = p.child s.name
  folder : s.isDirectory = true → d.locate? (l ++ [s.name]) = some .directory
  plain : s.isDirectory = false → s.name.contains (Char.ofNat 0) = false →
    d.locate? (l ++ [s.name]) ≠ some .directory
  rank : refusal? s.path = none → s.rank = rankAt d l s.name

/-- **The list of a folder's entries**, as the disk has them. -/
structure Lists (d : Disk) (p : Path) (l : Location) (entries : List Sibling) : Prop where
  found : d.find p = .ok ⟨l, some .directory⟩
  names : ∀ name, (∃ s ∈ entries, s.name = name) ↔ ∃ e, d.locate? (l ++ [name]) = some e
  order : entries.Pairwise fun s t => s.le t = true ∧ s.name ≠ t.name
  fits : ∀ s ∈ entries, Fits d p l s

theorem Lists.entryName {d : Disk} {p : Path} {l : Location} {entries : List Sibling} (h : Lists d p l entries)
    (hs : d.Sound) {s : Sibling} (hm : s ∈ entries) : IsEntryName s.name := by
  obtain ⟨e, he⟩ := (h.names s.name).1 ⟨s, hm, rfl⟩
  exact hs.names _ _ he _ (by simp)

/-- **The rank of an entry** that its path leads to. -/
theorem rankOf_eq_ok {d : Disk} {p : Path} {l : Location} {name : Text} {e : Entry} {rank : Binary64}
    (hl : d.LinkFree l) (he : d.locate? (l ++ [name]) = some e)
    (hf : d.find (p.child name) = .ok ⟨l ++ [name], some e⟩)
    (h : rankOf d (p.child name) (some e == some .directory) = .ok rank) : rank = rankAt d l name := by
  unfold rankOf at h
  unfold rankAt
  rw [Path.name_child] at h
  split at h
  · rename_i hindex
    rw [if_pos hindex]
    exact (Except.ok.inj h).symm
  · rename_i hindex
    rw [if_neg hindex, he]
    cases e with
    | directory =>
      simp only [beq_self_eq_true, if_true] at h
      obtain ⟨c, hc, rfl⟩ := map_eq_ok h
      rw [read_category hf (hl.below (List.prefix_append _ _)) hc]
    | link target => exact absurd he (hl _ _ (List.prefix_append _ _))
    | file bytes =>
      rw [if_neg (by simp)] at h
      have hread : readDocument d (p.child name) = .ok (documentText bytes) := by
        rw [readDocument, Disk.read, hf]
        rfl
      dsimp only
      split at h
      · rename_i hpage
        rw [documentRank, hread] at h
        rw [if_pos hpage]
        exact (Except.ok.inj h).symm
      · rename_i hpage
        rw [if_neg hpage]
        exact (Except.ok.inj h).symm

/-- **One entry is ranked** as the disk has it. -/
theorem siblingAt_eq_ok {d : Disk} {p : Path} {l : Location} {name : Text} {s : Sibling}
    (hf : d.find p = .ok ⟨l, some .directory⟩) (hl : d.LinkFree l) (hup : name ≠ Path.up)
    (he : ∃ e, d.locate? (l ++ [name]) = some e) (h : siblingAt d (p.child name) = .ok s) :
    s.name = name ∧ Fits d p l s := by
  obtain ⟨e, he⟩ := he
  have hlink : ∀ t, d.locate? (l ++ [name]) ≠ some (.link t) := fun t => hl _ t (List.prefix_append _ _)
  unfold siblingAt at h
  obtain ⟨isDirectory, hd, h⟩ := bind_eq_ok h
  obtain ⟨rank, hr, h⟩ := bind_eq_ok h
  cases h
  obtain ⟨found, hs, rfl⟩ := map_eq_ok (mapError_eq_ok.1 hd)
  rw [Path.name_child]
  refine ⟨rfl, rfl, fun hdir => ?_, fun hdir hnull hat => ?_, fun hrefused => ?_⟩
  · obtain ⟨place, hp, hentry⟩ := Disk.find_of_seek (beq_iff_eq.1 hdir ▸ hs)
    rw [Disk.place_of_find_child hf hup hlink hp] at hentry
    exact hentry
  · rw [Disk.seek_child hf hnull hup hlink hs, hat] at hdir
    cases hdir
  · have hfind := Disk.find_child hf hrefused hup he fun t ht => hlink t (ht ▸ he)
    rw [Disk.seek, hfind] at hs
    cases hs
    exact rankOf_eq_ok hl he hfind hr

theorem rankAll_eq_ok {d : Disk} {p : Path} {l : Location} (hf : d.find p = .ok ⟨l, some .directory⟩)
    (hl : d.LinkFree l) : ∀ {names : List Text} {entries : List Sibling},
    (∀ name ∈ names, name ≠ Path.up ∧ ∃ e, d.locate? (l ++ [name]) = some e) →
    rankAll d (names.map p.child) = .ok entries → entries.map Sibling.name = names ∧ ∀ s ∈ entries, Fits d p l s
  | [], entries, _, h => by
    cases h
    simp
  | name :: names, entries, hn, h => by
    obtain ⟨s, hs, h⟩ := bind_eq_ok h
    obtain ⟨more, hm, h⟩ := bind_eq_ok h
    cases h
    obtain ⟨hup, he⟩ := hn name List.mem_cons_self
    obtain ⟨hname, hfits⟩ := siblingAt_eq_ok hf hl hup he hs
    obtain ⟨hnames, hmore⟩ := rankAll_eq_ok hf hl (fun n h => hn n (List.mem_cons_of_mem _ h)) hm
    refine ⟨by rw [List.map_cons, hname, hnames], fun t ht => ?_⟩
    rcases List.mem_cons.1 ht with rfl | ht
    · exact hfits
    · exact hmore t ht

/-- **Where the entries of a folder are listed, the list is as the disk has them.** -/
theorem siblings_eq_ok {d : Disk} {p : Path} {l : Location} {entries : List Sibling} (hs : d.Sound)
    (hfound : ∀ m, d.find p = .ok ⟨m, some .directory⟩ → m = l) (hl : d.LinkFree l)
    (h : siblings d p = .ok entries) : Lists d p l entries := by
  unfold siblings at h
  split at h
  · rename_i names hlist
    obtain ⟨m, hf, rfl⟩ := Disk.list_eq_ok hlist
    cases hfound m hf
    obtain ⟨raw, hraw, rfl⟩ := map_eq_ok h
    obtain ⟨hnames, hfits⟩ := rankAll_eq_ok hf hl
      (fun name hn => ⟨(hs.entryName hn).2, Disk.mem_namesAt.1 hn⟩) hraw
    have hperm := Sibling.sorted_perm raw
    have hdistinct : (Sibling.sorted raw).Pairwise fun s t => s.name ≠ t.name := by
      refine List.pairwise_map.1 ((hperm.map Sibling.name).nodup_iff.2 ?_)
      rw [hnames]
      exact Disk.nodup_namesAt hs.nodup l
    refine ⟨hf, fun name => ?_, (Sibling.sorted_pairwise raw).and hdistinct,
      fun s hm => hfits s (hperm.mem_iff.1 hm)⟩
    rw [← Disk.mem_namesAt, ← hnames, List.mem_map]
    simp only [hperm.mem_iff]
  · cases h

end DocFerry.Site
