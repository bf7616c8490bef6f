import DocFerry.Proofs.Number.Order
import DocFerry.Proofs.Site.Edited
/-!
# Entries in their order

Entries that are ranked come each with a number, by which they are shown, and those of one rank by name.
Ranks are read from the metadata of pages, where infinities and every spelling of the value that is no number
may stand, and from that of folders.  No rank is ever that value, so the order is strict, and the way in which
the file system has enumerated the entries does not show.

Main statement: entries of different names are ranked strictly, by the numbers that their ranks stand for and
then by name, and alike whichever order they are given in (`ranked_strictly`).
-/
namespace DocFerry.Site

open Files

/-! ## No rank is the value that is not a number -/

theorem isNaN_rankInText (s : Text) : (rankInText s).isNaN = false := by
  rw [rankInText]
  cases h : (Table.get? "sidebar_position".toList (Page.split s).1).bind Page.rank? with
  | none => exact Binary64.isNaN_ofDecimal _ _ _
  | some x =>
    obtain ⟨text, _, hx⟩ := Option.bind_eq_some_iff.1 h
    exact Page.isNaN_of_rank? hx

theorem isNaN_of_documentRank {d : Disk} {p : Path} {x : Binary64} (h : documentRank d p = .ok x) : x.isNaN = false := by
  unfold documentRank at h
  split at h <;> cases h
  · exact isNaN_rankInText _
  · exact Binary64.isNaN_ofDecimal _ _ _

/-- **A folder's position is a number**: whole numbers too large are refused, and infinities passed over. -/
theorem Category.isNaN_of_positionOf {field : Option Json} {x : Binary64} (h : positionOf field = .ok (some x)) :
    x.isNaN = false := by
  unfold positionOf at h
  split at h
  · split at h
    · rename_i y hy
      cases h
      rw [Binary64.ofInt?] at hy
      split at hy <;> cases hy
      exact Binary64.isNaN_ofDecimal _ _ _
    · cases h
  · split at h
    · rename_i y hfinite
      cases h
      simp only [Binary64.isFinite, decide_eq_true_eq] at hfinite
      exact decide_eq_false (Nat.not_lt_of_lt hfinite)
    · cases h
  · cases h

theorem Category.isNaN_of_read {d : Disk} {p : Path} {c : Category} {x : Binary64} (h : Category.read d p = .ok c)
    (hx : c.position = some x) : x.isNaN = false := by
  have hjson : ∀ {j : Json}, Category.ofJson j = .ok c → x.isNaN = false := by
    intro j hj
    unfold ofJson at hj
    split at hj
    · obtain ⟨position, hposition, hc⟩ := bind_eq_ok hj
      cases hc
      cases hx
      exact isNaN_of_positionOf hposition
    · cases hj
      cases hx
  have hnone : Category.ofJson .null = .ok {} := rfl
  rw [Category.read] at h
  split at h
  · rw [ofBytes] at h
    split at h
    · exact hjson (hnone.trans h)
    · split at h
      · exact hjson h
      · exact hjson (hnone.trans h)
      all_goals cases h
  · exact hjson (hnone.trans h)
  · cases h

theorem isNaN_of_rankOf {d : Disk} {p : Path} {isDirectory : Bool} {x : Binary64} (h : rankOf d p isDirectory = .ok x) :
    x.isNaN = false := by
  rw [rankOf] at h
  split at h
  · cases h
    exact Binary64.isNaN_ofDecimal _ _ _
  · split at h
    · obtain ⟨c, hc, rfl⟩ := map_eq_ok h
      cases hposition : c.position with
      | none => exact Binary64.isNaN_ofDecimal _ _ _
      | some x => exact Category.isNaN_of_read hc hposition
    · split at h
      · exact isNaN_of_documentRank (mapError_eq_ok.1 h)
      · cases h
        exact Binary64.isNaN_ofDecimal _ _ _

/-- **An entry as it is ranked**: named as its path is, and with a number. -/
theorem siblingAt_spec {d : Disk} {p : Path} {s : Sibling} (h : siblingAt d p = .ok s) :
    s.name = p.name ∧ s.path = p ∧ s.rank.isNaN = false := by
  obtain ⟨isDirectory, _, h⟩ := bind_eq_ok h
  obtain ⟨rank, hrank, h⟩ := bind_eq_ok h
  cases h
  exact ⟨rfl, rfl, isNaN_of_rankOf hrank⟩

/-! ## The order -/

theorem lt_of_textLe : ∀ {s t : Text}, Sibling.textLe s t = true → s ≠ t → s < t
  | [], [], _, hne => absurd rfl hne
  | [], _ :: _, _, _ => List.nil_lt_cons _ _
  | _ :: _, [], h, _ => by cases h
  | a :: s, b :: t, h, hne => by
    simp only [Sibling.textLe, Bool.or_eq_true, Bool.and_eq_true, decide_eq_true_eq, beq_iff_eq] at h
    rw [List.cons_lt_cons_iff]
    rcases h with hlt | ⟨rfl, h⟩
    · exact .inl hlt
    · exact .inr ⟨rfl, lt_of_textLe h fun he => hne (he ▸ rfl)⟩

/-- **Strictly before**: of a smaller rank, or of the same and an earlier name. -/
def Sibling.Before (s t : Sibling) : Prop :=
  s.rank.value < t.rank.value ∨ s.rank.value = t.rank.value ∧ s.name < t.name

theorem Sibling.before_of_le {s t : Sibling} (hs : s.rank.isNaN = false) (ht : t.rank.isNaN = false)
    (hle : s.le t = true) (hne : s.name ≠ t.name) : s.Before t := by
  simp only [le, Binary64.lt, Binary64.le, Bool.or_eq_true, Bool.and_eq_true, decide_eq_true_eq] at hle
  rcases hle with hlt | ⟨hle, hname⟩
  · exact .inl ((Binary64.key_lt_key_iff hs ht).1 hlt)
  · rcases hle.lt_or_eq with hlt | heq
    · exact .inl ((Binary64.key_lt_key_iff hs ht).1 hlt)
    · exact .inr ⟨(Binary64.key_eq_key_iff hs ht).1 heq, lt_of_textLe hname hne⟩

theorem ranked_eq_ok {d : Disk} {paths : List Path} {entries : List Sibling} (h : ranked d paths = .ok entries) :
    ∃ raw, rankAll d paths = .ok raw ∧ entries = Sibling.sorted raw := by
  obtain ⟨raw, hraw, he⟩ := map_eq_ok h
  exact ⟨raw, hraw, he.symm⟩

/-- **The entries ranked are those of the paths**, each as it is. -/
theorem paths_of_rankAll {d : Disk} : ∀ {paths : List Path} {raw : List Sibling}, rankAll d paths = .ok raw →
    raw.map Sibling.path = paths ∧ raw.map Sibling.name = paths.map Path.name ∧ ∀ s ∈ raw, siblingAt d s.path = .ok s
  | [], raw, h => by
    cases h
    exact ⟨rfl, rfl, fun s hs => absurd hs List.not_mem_nil⟩
  | p :: paths, raw, h => by
    obtain ⟨s, hs, h⟩ := bind_eq_ok h
    obtain ⟨more, hmore, h⟩ := bind_eq_ok h
    cases h
    obtain ⟨hpaths, hnames, hall⟩ := paths_of_rankAll hmore
    obtain ⟨hname, hpath, _⟩ := siblingAt_spec hs
    refine ⟨by rw [List.map_cons, hpath, hpaths], by rw [List.map_cons, List.map_cons, hname, hnames], ?_⟩
    rintro t (_ | ⟨_, ht⟩)
    · rw [hpath]
      exact hs
    · exact hall t ht

/-- **Sorting entries of different names leads to one list**, whichever order they had. -/
theorem sorted_eq_of_perm {raw raw' : List Sibling} (hn : (raw.map Sibling.name).Nodup) (hp : raw'.Perm raw) :
    Sibling.sorted raw' = Sibling.sorted raw := by
  have hraw' := (Sibling.sorted_perm raw').trans hp
  refine List.Perm.eq_of_pairwise (fun s t hs ht hst hts => ?_) (Sibling.sorted_pairwise raw')
    (Sibling.sorted_pairwise raw) (hraw'.trans (Sibling.sorted_perm raw).symm)
  exact List.inj_on_of_nodup_map hn (hraw'.mem_iff.1 hs) ((Sibling.sorted_perm raw).mem_iff.1 ht)
    (Sibling.name_eq_of_le hst hts)

/-- **Entries of different names are ranked strictly.**  Each path gives one entry, no rank is the value that is no
number, every entry stands strictly before those after it, by the numbers that the ranks stand for and then by name,
and the order in which the paths are given does not matter. -/
theorem ranked_strictly {d : Disk} {paths : List Path} {entries : List Sibling} (hn : (paths.map Path.name).Nodup)
    (h : ranked d paths = .ok entries) :
    (entries.map Sibling.path).Perm paths ∧ (∀ s ∈ entries, siblingAt d s.path = .ok s) ∧
      entries.Pairwise Sibling.Before ∧ (∀ s ∈ entries, s.rank.isNaN = false) ∧
      ∀ paths', paths'.Perm paths → ranked d paths' = .ok entries := by
  obtain ⟨raw, hraw, rfl⟩ := ranked_eq_ok h
  obtain ⟨hpaths, hnames, hall⟩ := paths_of_rankAll hraw
  rw [← hnames] at hn
  have hperm := Sibling.sorted_perm raw
  have hentries : ∀ s ∈ Sibling.sorted raw, siblingAt d s.path = .ok s := fun s hs => hall s (hperm.mem_iff.1 hs)
  have hnumbers : ∀ s ∈ Sibling.sorted raw, s.rank.isNaN = false := fun s hs => (siblingAt_spec (hentries s hs)).2.2
  have hdistinct : (Sibling.sorted raw).Pairwise fun s t => s.name ≠ t.name :=
    List.pairwise_map.1 ((hperm.map Sibling.name).nodup_iff.2 hn)
  refine ⟨hpaths ▸ hperm.map Sibling.path, hentries, ?_, hnumbers, fun paths' hp => ?_⟩
  · exact ((Sibling.sorted_pairwise raw).and hdistinct).imp_of_mem fun hs ht h =>
      Sibling.before_of_le (hnumbers _ hs) (hnumbers _ ht) h.1 h.2
  · have hranked := rankAll_perm (e := d) hp.symm
    rw [hraw] at hranked
    rw [ranked]
    generalize rankAll d paths' = result at hranked
    cases hranked with
    | ok hraw' => exact congrArg Except.ok (sorted_eq_of_perm hn hraw')

/-- **Entries with ranks of every kind**: the two zeros, an infinity, the value that is no number, and a folder whose
position is the rank of entries without one. -/
def mixedSite : Disk where
  entries := [(["b.md"], file "---\nsidebar_position: -0\n---\n"), (["a.md"], file "---\nsidebar_position: 0\n---\n"),
    (["c.md"], file "---\nsidebar_position: -Infinity\n---\n"), (["d.md"], file "---\nsidebar_position: nan\n---\n"),
    (["e"], .directory), (["e", "_category_.json"], file "\x7b\"position\": 9999\x7d")].map fun e =>
      (e.1.map String.toList, e.2)
where
  file (s : String) : Entry := .file (Text.Utf8.encode s.toList)

def mixedPaths : List Path := ["e", "d.md", "c.md", "b.md", "a.md"].map Path.word

theorem ranked_strictly_mixedSite : ∃ entries, ranked mixedSite mixedPaths = .ok entries ∧
    entries.Pairwise Sibling.Before ∧ (∀ paths', paths'.Perm mixedPaths → ranked mixedSite paths' = .ok entries) ∧
      entries.map Sibling.name = ["c.md", "a.md", "b.md", "d.md", "e"].map String.toList := by
  have hnames : (ranked mixedSite mixedPaths).toOption.map (List.map Sibling.name) =
    some (["c.md", "a.md", "b.md", "d.md", "e"].map String.toList) := by decide +kernel
  cases h : ranked mixedSite mixedPaths with
  | error failure =>
    rw [h] at hnames
    cases hnames
  | ok entries =>
    rw [h] at hnames
    obtain ⟨_, _, hstrict, _, hsame⟩ := ranked_strictly (by decide) h
    exact ⟨entries, rfl, hstrict, hsame, Option.some.inj hnames⟩

end DocFerry.Site
