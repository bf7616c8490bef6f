import DocFerry.Proofs.Text.Rewriting
/-!
# What replacing leaves behind

Replacing goes along a text: a character is kept where nothing is a match, and a match is written and left behind
(`Replaced`).  So a suffix of what comes out comes from a suffix of the text or begins in what is written for a match
(`suffix_substitute`), a cut of what comes out is a cut of the text or one of what is written for the first match
(`cut_substitute`), and a text is kept whose matches are written as they are (`substitute_of_fixed`).
-/
namespace DocFerry.Text

/-- **A suffix of two texts** is one of the second, or reaches into the first. -/
theorem suffix_append_cases {z a b : Text} (h : z <:+ a ++ b) : z <:+ b ∨ ∃ u, u <:+ a ∧ z = u ++ b := by
  obtain ⟨start, hstart⟩ := h
  rcases List.append_eq_append_iff.1 hstart with ⟨u, ha, hz⟩ | ⟨more, -, hb⟩
  · exact .inr ⟨u, ⟨start, ha.symm⟩, hz⟩
  · exact .inl ⟨more, hb.symm⟩

theorem cutAt?_singleton_iff {c : Char} {s before after : Text} :
    cutAt? [c] s = some (before, after) ↔ c ∉ before ∧ s = before ++ c :: after := by
  refine ⟨fun h => ?_, fun ⟨hc, hs⟩ => hs ▸ cutAt?_singleton c after hc⟩
  have hs : s = before ++ c :: after := by simpa using cutAt?_eq_some h
  refine ⟨fun hc => ?_, hs⟩
  obtain ⟨first, more, rfl, hfirst⟩ := List.eq_append_cons_of_mem hc
  rw [hs, List.append_assoc, List.cons_append, cutAt?_singleton c _ hfirst] at h
  have hlength := congrArg List.length (Prod.mk.inj (Option.some.inj h)).1
  simp at hlength

/-- **Two texts cut at a character** that neither of them holds in front of it are cut alike. -/
theorem eq_of_append_cons {c : Char} {a a' b b' : Text} (ha : c ∉ a) (ha' : c ∉ a') (h : a ++ c :: b = a' ++ c :: b') :
    a = a' ∧ b = b' := by
  have hcut := cutAt?_singleton c b ha
  rw [h, cutAt?_singleton c b' ha'] at hcut
  obtain ⟨rfl, rfl⟩ := Prod.mk.inj (Option.some.inj hcut)
  exact ⟨rfl, rfl⟩

variable {m : Matcher}

/-- **A matcher that takes something** of what it looks at. -/
def Consumes (m : Matcher) : Prop :=
  ∀ s written rest, m s = some (written, rest) → ∃ found, found ≠ [] ∧ s = found ++ rest

/-- **The way of replacing along a text**, and what comes out. -/
inductive Replaced (m : Matcher) : Text → Text → Prop
  | nil : Replaced m [] []
  | keep {c : Char} {s t : Text} (hn : m (c :: s) = none) (h : Replaced m s t) : Replaced m (c :: s) (c :: t)
  | found {s written rest t : Text} (hm : m s = some (written, rest)) (h : Replaced m rest t) :
      Replaced m s (written ++ t)

theorem Consumes.suffix (hc : Consumes m) {s written rest : Text} (h : m s = some (written, rest)) : rest <:+ s := by
  obtain ⟨found, -, rfl⟩ := hc s written rest h
  exact List.suffix_append found rest

theorem Consumes.length_lt (hc : Consumes m) {s written rest : Text} (h : m s = some (written, rest)) :
    rest.length < s.length := by
  obtain ⟨found, hne, rfl⟩ := hc s written rest h
  have hlength := List.length_pos_iff.2 hne
  rw [List.length_append]
  omega

theorem substitute_of_some (hc : Consumes m) {s written rest : Text} (h : m s = some (written, rest)) :
    substitute m s = written ++ substitute m rest := by
  obtain ⟨found, hne, rfl⟩ := hc s written rest h
  cases found with
  | nil => exact absurd rfl hne
  | cons c found =>
    rw [List.cons_append] at h ⊢
    have hlength : (found ++ rest).length - rest.length = found.length := by simp
    rw [substitute, substituteFrom, h]
    simp only [hlength, substituteFrom_skip]
    rfl

theorem replaced_substitute (hc : Consumes m) (s : Text) : Replaced m s (substitute m s) := by
  induction hn : s.length using Nat.strongRecOn generalizing s with
  | ind n ih =>
    subst hn
    cases s with
    | nil => exact .nil
    | cons c s =>
      cases hm : m (c :: s) with
      | none =>
        rw [substitute_cons_of_none hm]
        exact .keep hm (ih s.length (Nat.lt_succ_self _) s rfl)
      | some found =>
        obtain ⟨written, rest⟩ := found
        rw [substitute_of_some hc hm]
        exact .found hm (ih rest.length (hc.length_lt hm) rest rfl)

theorem Replaced.eq (hc : Consumes m) {s t : Text} (h : Replaced m s t) : t = substitute m s := by
  induction h with
  | nil => rfl
  | keep hn h ih => rw [substitute_cons_of_none hn, ih]
  | found hm h ih => rw [substitute_of_some hc hm, ih]

/-- **Where a suffix comes from**: from a suffix of the text, or from within what is written for a match. -/
theorem suffix_substitute (hc : Consumes m) {z s : Text} (h : z <:+ substitute m s) :
    (∃ r, r <:+ s ∧ z = substitute m r) ∨
      ∃ r written rest u, r <:+ s ∧ m r = some (written, rest) ∧ u <:+ written ∧ u ≠ [] ∧
        z = u ++ substitute m rest := by
  have hway := replaced_substitute hc s
  generalize substitute m s = t at h hway
  induction hway with
  | nil => exact .inl ⟨[], List.suffix_rfl, List.suffix_nil.1 h⟩
  | @keep c s t hn hs ih =>
    rcases List.suffix_cons_iff.1 h with rfl | h
    · exact .inl ⟨c :: s, List.suffix_rfl, (Replaced.keep hn hs).eq hc⟩
    · have hsuffix := List.suffix_cons c s
      rcases ih h with ⟨r, hr, hz⟩ | ⟨r, written, rest, u, hr, hfound⟩
      · exact .inl ⟨r, hr.trans hsuffix, hz⟩
      · exact .inr ⟨r, written, rest, u, hr.trans hsuffix, hfound⟩
  | @found s written rest t hm ht ih =>
    by_cases hz : z <:+ t
    · have hsuffix := hc.suffix hm
      rcases ih hz with ⟨r, hr, hz⟩ | ⟨r, written, rest, u, hr, hfound⟩
      · exact .inl ⟨r, hr.trans hsuffix, hz⟩
      · exact .inr ⟨r, written, rest, u, hr.trans hsuffix, hfound⟩
    · obtain ⟨u, hu, rfl⟩ := (suffix_append_cases h).resolve_left hz
      refine .inr ⟨s, written, rest, u, List.suffix_rfl, hm, hu, ?_, by rw [ht.eq hc]⟩
      rintro rfl
      exact hz List.suffix_rfl

/-- **What comes out is cut at a character** that is written for every match: where the text is, or within what is
written for the first match. -/
theorem cut_substitute (hc : Consumes m) {c : Char} (hw : ∀ s written rest, m s = some (written, rest) → c ∈ written)
    {s before after : Text} (hbefore : c ∉ before) (h : substitute m s = before ++ c :: after) :
    (∃ rest, s = before ++ c :: rest ∧ after = substitute m rest) ∨
      ∃ kept found written rest cut, s = kept ++ found ∧ m found = some (written, rest) ∧ before = kept ++ cut ∧
        substitute m s = kept ++ (written ++ substitute m rest) ∧ c ∉ cut ∧ ∃ more, written = cut ++ c :: more := by
  have hway := replaced_substitute hc s
  generalize substitute m s = t at h hway ⊢
  induction hway generalizing before with
  | nil => simp at h
  | @keep a s t hn hs ih =>
    cases before with
    | nil =>
      obtain ⟨rfl, rfl⟩ := List.cons.inj h
      exact .inl ⟨s, rfl, hs.eq hc⟩
    | cons b before =>
      obtain ⟨rfl, ht⟩ := List.cons.inj h
      rcases ih (fun hmem => hbefore (List.mem_cons_of_mem _ hmem)) ht with ⟨rest, rfl, hafter⟩ | hfound
      · exact .inl ⟨rest, rfl, hafter⟩
      · obtain ⟨kept, found, written, rest, cut, rfl, hm, rfl, ht, hcut⟩ := hfound
        exact .inr ⟨a :: kept, found, written, rest, cut, rfl, hm, rfl, congrArg (a :: ·) ht, hcut⟩
  | @found s written rest t hm ht ih =>
    obtain ⟨cut, more, hwritten, hcut⟩ := List.eq_append_cons_of_mem (hw _ _ _ hm)
    rw [hwritten, List.append_assoc, List.cons_append] at h
    obtain ⟨rfl, -⟩ := eq_of_append_cons hcut hbefore h
    exact .inr ⟨[], s, written, rest, cut, rfl, hm, rfl, by rw [ht.eq hc, List.nil_append], hcut, more, hwritten⟩

/-- **What comes out is made of the text and of what a matcher writes of its own.** -/
theorem mem_substitute (hc : Consumes m) {c : Char} {own : Text}
    (hm : ∀ s written rest, m s = some (written, rest) → c ∈ written → c ∈ s ∨ c ∈ own) {s : Text}
    (h : c ∈ substitute m s) : c ∈ s ∨ c ∈ own := by
  have hway := replaced_substitute hc s
  generalize substitute m s = t at h hway
  induction hway with
  | nil => exact .inl h
  | keep hn hs ih =>
    rcases List.mem_cons.1 h with rfl | h
    · exact .inl List.mem_cons_self
    · exact (ih h).imp_left (List.mem_cons_of_mem _)
  | found hfound ht ih =>
    rcases List.mem_append.1 h with h | h
    · exact hm _ _ _ hfound h
    · exact (ih h).imp_left fun hmem => (hc.suffix hfound).subset hmem

/-- **A text is kept** whose matches are written as they are. -/
theorem substitute_of_fixed (hc : Consumes m) {s : Text}
    (h : ∀ t, t <:+ s → ∀ written rest, m t = some (written, rest) → t = written ++ rest) : substitute m s = s := by
  have hway := replaced_substitute hc s
  generalize substitute m s = t at hway
  induction hway with
  | nil => rfl
  | @keep c s t hn hs ih => rw [ih fun t ht => h t (ht.trans (List.suffix_cons c s))]
  | @found s written rest t hm ht ih =>
    rw [ih fun t ht => h t (ht.trans (hc.suffix hm)), ← h s List.suffix_rfl written rest hm]

end DocFerry.Text
