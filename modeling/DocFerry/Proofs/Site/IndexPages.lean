import DocFerry.Proofs.Site.Pages
import DocFerry.Proofs.Site.Ranking
/-!
# Index pages

A page is an index page by its name, and two tables say so.  The entries of a folder are ordered by one that ranks
four names at minus one: they stand in front of all others exactly if no other entry declares a smaller number, or
minus one with an earlier name (`indexesFirst_iff`, `index_behind`).  The conversion of a page is told by the other,
which takes two names in any case and with either extension: every page ranked as an index page is converted as one,
but not every page converted as one is ranked so (`rankedByName_iff`, `readme_unranked`).
-/
namespace DocFerry.Site

open Files

/-! ## Numbers that entries declare -/

/-- **The rank that a page declares** in its metadata. -/
def rankIn? (s : Text) : Option Binary64 := (Table.get? "sidebar_position".toList (Page.split s).1).bind Page.rank?

/-- **The number that an entry declares**: a folder in its metadata file, a page in its own metadata. -/
def Sibling.declared? (d : Disk) (s : Sibling) : Option Binary64 :=
  if s.isDirectory then (Category.read d s.path).toOption.bind (·.position)
  else if s.isPage then (readDocument d s.path).toOption.bind rankIn?
  else none

theorem documentRank_eq_ok {d : Disk} {p : Path} {x : Binary64} (h : documentRank d p = .ok x) :
    x = ((readDocument d p).toOption.bind rankIn?).getD defaultRank := by
  unfold documentRank at h
  split at h
  · rename_i s hs
    cases h
    rw [hs]
    rfl
  · cases h
  · rename_i hs
    cases h
    rw [hs]
    rfl

/-- **The rank of an entry**: that of index pages, or the number that it declares. -/
theorem rank_of_siblingAt {d : Disk} {p : Path} {s : Sibling} (h : siblingAt d p = .ok s) :
    s.rank = if s.name ∈ indexFiles then indexRank else (s.declared? d).getD defaultRank := by
  obtain ⟨isDirectory, _, h⟩ := bind_eq_ok h
  obtain ⟨rank, hrank, h⟩ := bind_eq_ok h
  cases h
  dsimp only
  rw [rankOf] at hrank
  by_cases hindex : p.name ∈ indexFiles
  · rw [if_pos hindex] at hrank ⊢
    exact (Except.ok.inj hrank).symm
  rw [if_neg hindex] at hrank ⊢
  cases isDirectory with
  | true =>
    obtain ⟨c, hc, rfl⟩ := map_eq_ok hrank
    simp only [Sibling.declared?, if_true, hc]
    rfl
  | false =>
    by_cases hpage : isPageName p.name = true
    · simp only [if_pos hpage, Bool.false_eq_true, if_false] at hrank
      have hs : Sibling.isPage ⟨p.name, p, false, rank⟩ = true := by simpa [Sibling.isPage] using hpage
      simp only [Sibling.declared?, hs, Bool.false_eq_true, if_false, if_true]
      exact documentRank_eq_ok (mapError_eq_ok.1 hrank)
    · simp only [if_neg hpage, Bool.false_eq_true, if_false] at hrank
      have hs : ¬ Sibling.isPage ⟨p.name, p, false, rank⟩ = true := by simpa [Sibling.isPage] using hpage
      simp only [Sibling.declared?, hs, Bool.false_eq_true, if_false]
      exact (Except.ok.inj hrank).symm

theorem value_indexRank : indexRank.value = ((-1 : ℚ) : WithTop ℚ) := by
  have hfields : indexRank = ⟨true, 1023 * Binary64.twoTo 52 + 0⟩ := by decide +kernel
  have hfinite : Binary64.isFinite ⟨true, 1023 * Binary64.twoTo 52 + 0⟩ = true := by decide +kernel
  have hsize : Binary64.size (1023 * Binary64.twoTo 52 + 0) = 1 := by
    rw [Binary64.size_fields 1023 (by decide +kernel)]
    norm_num [Binary64.twoTo]
  rw [hfields, Binary64.value, if_pos hfinite, if_pos rfl, hsize]

theorem value_indexRank_lt_defaultRank : indexRank.value < defaultRank.value :=
  (Binary64.key_lt_key_iff (Binary64.isNaN_ofDecimal _ _ _) (Binary64.isNaN_ofDecimal _ _ _)).1 (by decide +kernel)

/-! ## Index pages in front -/

/-- **Index pages stand first**: no entry of another name stands before one. -/
def IndexesFirst (entries : List Sibling) : Prop :=
  entries.Pairwise fun s t => t.name ∈ indexFiles → s.name ∈ indexFiles

theorem indexesFirst_iff_names {entries : List Sibling} : IndexesFirst entries ↔
    (entries.map Sibling.name).Pairwise fun s t => t ∈ indexFiles → s ∈ indexFiles := by
  rw [IndexesFirst, List.pairwise_map]

theorem Sibling.Before.asymm {s t : Sibling} (h : s.Before t) : ¬ t.Before s := by
  rcases h with hlt | ⟨heq, hname⟩ <;> rintro (hlt' | ⟨heq', hname'⟩)
  · exact lt_asymm hlt hlt'
  · exact hlt.ne heq'.symm
  · exact hlt'.ne heq.symm
  · exact List.lt_asymm hname hname'

theorem siblings_of_names {d : Disk} {directory : Path} {names : List Text}
    (h : (siblings d directory).toOption.map (List.map Sibling.name) = some names) :
    ∃ entries, siblings d directory = .ok entries ∧ entries.map Sibling.name = names := by
  cases hentries : siblings d directory with
  | error failure =>
    rw [hentries] at h
    cases h
  | ok entries =>
    rw [hentries] at h
    exact ⟨entries, rfl, Option.some.inj h⟩

theorem entries_of_siblings {d : Disk} {directory : Path} {entries : List Sibling}
    (h : siblings d directory = .ok entries) :
    (entries.Pairwise fun s t => s.le t = true) ∧ ∀ s ∈ entries, siblingAt d s.path = .ok s := by
  unfold siblings at h
  split at h
  · obtain ⟨raw, hraw, rfl⟩ := ranked_eq_ok h
    obtain ⟨-, -, hall⟩ := paths_of_rankAll hraw
    exact ⟨Sibling.sorted_pairwise raw, fun s hs => hall s ((Sibling.sorted_perm raw).mem_iff.1 hs)⟩
  · cases h

/-- **In a sorted list** index pages stand first exactly if each of them belongs before every other entry. -/
theorem indexesFirst_iff_before {entries : List Sibling} (hsorted : entries.Pairwise fun s t => s.le t = true)
    (hnumber : ∀ s ∈ entries, s.rank.isNaN = false) : IndexesFirst entries ↔
      ∀ s ∈ entries, s.name ∈ indexFiles → ∀ t ∈ entries, t.name ∉ indexFiles → s.Before t := by
  have hbefore : ∀ {s t : Sibling}, s ∈ entries → t ∈ entries → s.le t = true →
      ¬ (s.name ∈ indexFiles ↔ t.name ∈ indexFiles) → s.Before t := fun hs ht hle hindex =>
    Sibling.before_of_le (hnumber _ hs) (hnumber _ ht) hle fun he => hindex (by rw [he])
  constructor
  · intro hfirst s hs hindex t ht hother
    refine List.Pairwise.forall_of_forall_of_flip
      (R := fun s t : Sibling => s.name ∈ indexFiles → t.name ∉ indexFiles → s.Before t)
      (fun s _ hindex hother => absurd hindex hother) ?_ ?_ hs ht hindex hother
    · exact hsorted.imp_of_mem fun hs ht hle hindex hother => hbefore hs ht hle fun hiff => hother (hiff.1 hindex)
    · exact hfirst.imp fun hst hindex hother => absurd (hst hindex) hother
  · intro hall
    refine hsorted.imp_of_mem fun {s t} hs ht hle hindex => ?_
    by_contra hother
    exact (hall t ht hindex s hs hother).asymm (hbefore hs ht hle fun hiff => hother (hiff.2 hindex))

/-- **Index pages stand first, unless another entry declares a smaller number than theirs**, or the same number under
an earlier name. -/
theorem indexesFirst_iff {d : Disk} {directory : Path} {entries : List Sibling}
    (h : siblings d directory = .ok entries) : IndexesFirst entries ↔
      ∀ s ∈ entries, s.name ∈ indexFiles → ∀ t ∈ entries, t.name ∉ indexFiles → ∀ x, t.declared? d = some x →
        ((-1 : ℚ) : WithTop ℚ) < x.value ∨ x.value = ((-1 : ℚ) : WithTop ℚ) ∧ s.name < t.name := by
  obtain ⟨hsorted, hall⟩ := entries_of_siblings h
  rw [indexesFirst_iff_before hsorted fun s hs => (siblingAt_spec (hall s hs)).2.2]
  refine forall₂_congr fun s hs => forall_congr' fun hindex => forall₂_congr fun t ht => forall_congr' fun hother => ?_
  have hrank := rank_of_siblingAt (hall s hs)
  have hrank' := rank_of_siblingAt (hall t ht)
  rw [if_pos hindex] at hrank
  rw [if_neg hother] at hrank'
  rw [Sibling.Before, hrank, hrank', ← value_indexRank]
  cases t.declared? d with
  | none => simpa using Or.inl value_indexRank_lt_defaultRank
  | some x => simp [eq_comm]

/-- **A folder of an index page**, a page with the same rank and a later name, and a folder with a rank close behind. -/
def closeSite : Disk where
  entries := [(["docs"], .directory), (["docs", "notes.md"], file "---\nsidebar_position: -1\n---\n"),
    (["docs", "index.md"], file "# Start\n"), (["docs", "a"], .directory),
    (["docs", "a", "_category_.json"], file "\x7b\"position\": -0.5\x7d")].map fun e => (e.1.map String.toList, e.2)
where
  file (s : String) : Entry := .file (Text.Utf8.encode s.toList)

theorem indexesFirst_iff_closeSite : ∃ entries, siblings closeSite (.word "docs") = .ok entries ∧
    entries.map Sibling.name = ["index.md", "notes.md", "a"].map String.toList ∧
      ∀ s ∈ entries, s.name ∈ indexFiles → ∀ t ∈ entries, t.name ∉ indexFiles → ∀ x, t.declared? closeSite = some x →
        ((-1 : ℚ) : WithTop ℚ) < x.value ∨ x.value = ((-1 : ℚ) : WithTop ℚ) ∧ s.name < t.name := by
  have hnames : (siblings closeSite (.word "docs")).toOption.map (List.map Sibling.name) =
    some (["index.md", "notes.md", "a"].map String.toList) := by decide +kernel
  obtain ⟨entries, h, hnames⟩ := siblings_of_names hnames
  have hfirst : IndexesFirst entries := by
    rw [indexesFirst_iff_names, hnames]
    decide
  exact ⟨entries, h, hnames, (indexesFirst_iff h).1 hfirst⟩

/-- **A page of a smaller rank**: its metadata puts it in front of everything. -/
def forwardSite : Disk where
  entries := [(["docs"], .directory), (["docs", "index.md"], file "# Start\n"),
    (["docs", "intro.md"], file "---\nsidebar_position: -5\n---\n")].map fun e => (e.1.map String.toList, e.2)
where
  file (s : String) : Entry := .file (Text.Utf8.encode s.toList)

/-- **An index page can stand behind another page.** -/
theorem index_behind : ∃ entries, siblings forwardSite (.word "docs") = .ok entries ∧ ¬ IndexesFirst entries ∧
    entries.map Sibling.name = ["intro.md", "index.md"].map String.toList := by
  have hnames : (siblings forwardSite (.word "docs")).toOption.map (List.map Sibling.name) =
    some (["intro.md", "index.md"].map String.toList) := by decide +kernel
  obtain ⟨entries, h, hnames⟩ := siblings_of_names hnames
  refine ⟨entries, h, ?_, hnames⟩
  rw [indexesFirst_iff_names, hnames]
  decide

/-! ## Two tables of index pages -/

theorem baseName_append {base extension : Text} (h : '.' ∉ extension) :
    Path.baseName (base ++ '.' :: extension) = base := by
  have hreverse : (base ++ '.' :: extension).reverse.dropWhile (· != '.') = '.' :: base.reverse := by
    rw [List.reverse_append, List.reverse_cons, List.append_assoc, List.dropWhile_append_of_pos]
    · simp
    · intro c hc
      simpa using fun he : c = '.' => h (he ▸ List.mem_reverse.1 hc)
  rw [Path.baseName, hreverse]
  exact List.reverse_reverse base

/-- **The name of a page** is its base name and an extension. -/
theorem name_of_isPageName {name : Text} (h : isPageName name = true) :
    ∃ extension ∈ pageExtensions, name = Path.baseName name ++ extension := by
  have hdots : ∀ extension ∈ pageExtensions, ∃ rest, extension = '.' :: rest ∧ '.' ∉ rest := by
    intro extension hm
    simp only [pageExtensions, List.map_cons, List.map_nil, List.mem_cons, List.not_mem_nil, or_false] at hm
    rcases hm with rfl | rfl
    · exact ⟨"md".toList, rfl, by decide⟩
    · exact ⟨"mdx".toList, rfl, by decide⟩
  obtain ⟨extension, hm, hsuffix⟩ := List.any_eq_true.1 h
  obtain ⟨base, rfl⟩ := List.isSuffixOf_iff_suffix.1 hsuffix
  obtain ⟨rest, rfl, hrest⟩ := hdots extension hm
  exact ⟨_, hm, by rw [baseName_append hrest]⟩

/-- **Ranked as an index page by its name alone**: whatever is on the disk, the metadata of the page included. -/
def RankedByName (p : Path) : Prop := ∀ d, rankOf d p false = .ok indexRank

theorem readDocument_empty (p : Path) : (readDocument {} p).toOption = none := by
  cases h : readDocument {} p with
  | error problem => rfl
  | ok s =>
    obtain ⟨bytes, hbytes, -⟩ := map_eq_ok h
    obtain ⟨l, hfound⟩ := Disk.hasFile_of_read hbytes
    have hat := ((Disk.walks_of_find hfound).2.entry_of_ne_directory (by simp)).2
    cases l <;> cases hat

theorem documentRank_empty (p : Path) : documentRank {} p ≠ .ok indexRank := by
  intro h
  have hrank := documentRank_eq_ok h
  rw [readDocument_empty] at hrank
  revert hrank
  decide +kernel

theorem rankedByName_iff_mem (p : Path) : RankedByName p ↔ p.name ∈ indexFiles := by
  refine ⟨fun h => ?_, fun h d => by rw [rankOf, if_pos h]⟩
  by_contra hname
  have hrank := h {}
  rw [rankOf, if_neg hname, if_neg (by simp)] at hrank
  split at hrank
  · exact documentRank_empty p (mapError_eq_ok.1 hrank)
  · revert hrank
    decide +kernel

/-- **A page ranked as an index page is converted as one**, and a page converted as one is ranked so if its name is
`README.md`, or in lower case and not `readme.mdx`. -/
theorem rankedByName_iff {convert : Converter} {output source : Path} {relative slug : Text} {label : Option Text}
    {w w' : World} (hpage : isPageName source.name = true)
    (h : writePage convert output source relative label w = (.ok slug, w')) :
    ∃ e, w'.written = w.written ++ [e] ∧ e.request.context.baseName = Path.baseName source.name ∧
      (RankedByName source ↔ e.request.context.isIndex = true ∧
        (source.name = "README.md".toList ∨
          Path.baseName source.name ∈ indexNames ∧ source.name ≠ "readme.mdx".toList)) := by
  obtain ⟨_, bytes, _, _, _, _, _, _, hw⟩ := writePage_steps h
  refine ⟨_, congrArg World.written hw, rfl, ?_⟩
  show RankedByName source ↔ isIndexName (Path.baseName source.name) = true ∧ _
  rw [rankedByName_iff_mem]
  constructor
  · have hall : ∀ name ∈ indexFiles, isIndexName (Path.baseName name) = true ∧
        (name = "README.md".toList ∨ Path.baseName name ∈ indexNames ∧ name ≠ "readme.mdx".toList) := by decide +kernel
    exact hall source.name
  · rintro ⟨-, hname | ⟨hbase, hname⟩⟩
    · rw [hname]
      decide
    · have hall : ∀ base ∈ indexNames, ∀ extension ∈ pageExtensions, base ++ extension ≠ "readme.mdx".toList →
          base ++ extension ∈ indexFiles := by decide
      obtain ⟨extension, hextension, he⟩ := name_of_isPageName hpage
      rw [he] at hname ⊢
      exact hall _ hbase _ hextension hname

/-- **Two readmes**, of either extension, and an index page in capitals. -/
def readmeSite : World where
  disk := { entries := [(["docs"], .directory), (["docs", "README.md"], .file []), (["docs", "readme.mdx"], .file []),
    (["docs", "INDEX.md"], .file [])].map fun e => (e.1.map String.toList, e.2) }

/-- **What the conversion of a page of that site is told** of its being an index page. -/
def readmeSite.told (name : String) : List Bool :=
  ((writePage .standard (.word "out") (.word name) [] none readmeSite).2.written.map (·.request.context.isIndex))

theorem rankedByName_iff_readmeSite : ∃ slug w' e,
    writePage .standard (.word "out") (.word "docs/README.md") [] none readmeSite = (.ok slug, w') ∧
      w'.written = [e] ∧ e.request.context.isIndex = true ∧ RankedByName (.word "docs/README.md") := by
  obtain ⟨slug, w', hrun⟩ := Action.exists_eq_ok (show (writePage .standard (.word "out") (.word "docs/README.md") []
    none readmeSite).1.isOk = true by decide +kernel)
  obtain ⟨e, hwritten, -, hiff⟩ := rankedByName_iff (by decide +kernel) hrun
  have hranked : RankedByName (.word "docs/README.md") := (rankedByName_iff_mem _).2 (by decide +kernel)
  exact ⟨slug, w', e, hrun, hwritten, (hiff.1 hranked).1, hranked⟩

/-- **A page converted as an index page need not be ranked as one**: the other extension and capitals are left out. -/
theorem readme_unranked :
    (isPageName (Path.word "docs/readme.mdx").name = true ∧ readmeSite.told "docs/readme.mdx" = [true] ∧
      ¬ RankedByName (.word "docs/readme.mdx")) ∧
    isPageName (Path.word "docs/INDEX.md").name = true ∧ readmeSite.told "docs/INDEX.md" = [true] ∧
      ¬ RankedByName (.word "docs/INDEX.md") := by
  simp only [rankedByName_iff_mem]
  decide +kernel

end DocFerry.Site
