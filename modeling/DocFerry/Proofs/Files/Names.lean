import DocFerry.Nav.Slug
import DocFerry.Proofs.Files.Growth
/-!
# Paths written from names

Names that a path can hold, joined by slashes, are read back as they were (`Path.ofText_join`), so a path
continued by such a text is the path continued by the names (`Path.joinText_join`).  Joining paths as texts
puts the next name behind the others (`joinPaths_join`).
-/
namespace DocFerry

/-- **A join of names starts with no slash.** -/
theorem Path.head?_join {names : List Text} (h : ∀ name ∈ names, Path.IsStep name) :
    (Text.join ['/'] names).head? ≠ some '/' := by
  rcases names with _ | ⟨first, names⟩
  · simp [Text.join]
  · obtain ⟨hname, hslash⟩ := h first List.mem_cons_self
    rcases first with _ | ⟨c, first⟩
    · simp [Path.isName] at hname
    · have hc : c ≠ '/' := fun e => hslash (e ▸ List.mem_cons_self)
      cases names <;> simpa [Text.join] using hc

theorem Path.startOf_of_head? {s : Text} (h : s.head? ≠ some '/') : Path.startOf s = .here := by
  unfold Path.startOf
  split <;> first | rfl | exact absurd rfl h

/-- **Names joined by slashes are read back.** -/
theorem Path.ofText_join {names : List Text} (h : ∀ name ∈ names, Path.IsStep name) :
    Path.ofText (Text.join ['/'] names) = ⟨.here, names⟩ := by
  rw [Path.ofText, Path.startOf_of_head? (Path.head?_join h)]
  by_cases hn : names = []
  · rw [hn]; rfl
  · rw [Text.splitWhere_join '/' names hn fun name hm => (h name hm).2,
      List.filter_eq_self.2 fun name hm => (h name hm).1]

/-- **A path continued by names joined by slashes.** -/
theorem Path.joinText_join (p : Path) {names : List Text} (h : ∀ name ∈ names, Path.IsStep name) :
    p.joinText (Text.join ['/'] names) = p.descend names := by
  rw [Path.joinText, Path.ofText_join h]
  rfl

theorem Path.joinText_of_isStep (p : Path) {name : Text} (h : Path.IsStep name) : p.joinText name = p.child name :=
  @Path.joinText_join p [name] (by simpa using h)

/-- **A join of names ends with no slash.** -/
theorem Path.getLast?_join {names : List Text} (hn : names ≠ []) (h : ∀ name ∈ names, Path.IsStep name) :
    ∃ c, c ≠ '/' ∧ (Text.join ['/'] names).getLast? = some c := by
  obtain ⟨hname, hslash⟩ := h _ (List.getLast_mem hn)
  have hlast : names.getLast hn ≠ [] := fun e => by simp [e, Path.isName] at hname
  refine ⟨(names.getLast hn).getLast hlast, fun e => hslash (e ▸ List.getLast_mem hlast), ?_⟩
  have hsplit := (List.dropLast_concat_getLast hn).symm
  generalize names.getLast hn = last at hsplit hlast
  rw [hsplit]
  by_cases hr : names.dropLast = []
  · simp [hr, Text.join, List.getLast?_eq_some_getLast hlast]
  · rw [Text.join_append_singleton _ _ _ hr, List.getLast?_append, List.getLast?_eq_some_getLast hlast]
    rfl

/-- **The next name put behind the others.** -/
theorem Nav.joinPaths_join (names : List Text) {name : Text} (hname : name.head? ≠ some '/')
    (h : ∀ n ∈ names, Path.IsStep n) :
    Nav.joinPaths (Text.join ['/'] names) name = Text.join ['/'] (names ++ [name]) := by
  rw [Nav.joinPaths, if_neg hname]
  by_cases hn : names = []
  · simp [hn, Text.join]
  · obtain ⟨c, hc, hlast⟩ := Path.getLast?_join hn h
    rw [Text.join_append_singleton _ _ _ hn, if_neg, List.append_assoc, List.singleton_append]
    rintro (he | he)
    · rw [List.isEmpty_iff.1 he] at hlast
      cases hlast
    · rw [hlast] at he
      exact hc (Option.some.inj he)

end DocFerry
