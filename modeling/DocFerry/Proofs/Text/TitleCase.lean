import DocFerry.Proofs.Text.Pieces
import DocFerry.Proofs.Text.Trimming
import DocFerry.Text.TitleCase
/-!
# Labels word by word

What separates the words of a name is finitely many characters (`isNameSeparator_iff`), and the case maps turn no other
character into one of them.  So a word keeps being one when it is shown (`isWord_titleWord`): a label made from a name
is of one line (`newline_not_mem_titleCase`), can be seen if the name holds more than separators
(`exists_visible_titleCase`), and is read back as the words it was made of (`wordsBy_titleCase`).

An ASCII word that is shown once is not changed by showing it again (`titleWord_titleWord`), whether it is an acronym or
not.  So names with separators between them have the labels of both with one space between them, and the label of a
label is that label (`titleCase_word_by_word`).
-/
namespace DocFerry.Text

/-! ## Separators -/

/-- The code points of what separates the words of a name. -/
def nameSeparatorCodes : List Nat := 0x2d :: 0x5f :: blankCodes

theorem isNameSeparator_iff {c : Char} : isNameSeparator c = true ↔ c.toNat ∈ nameSeparatorCodes := by
  have hhyphen : c = '-' ↔ c.toNat = 0x2d := ⟨fun h => h ▸ rfl, fun h => by rw [← Char.ofNat_toNat c, h]⟩
  have hunderscore : c = '_' ↔ c.toNat = 0x5f := ⟨fun h => h ▸ rfl, fun h => by rw [← Char.ofNat_toNat c, h]⟩
  rw [isNameSeparator, Bool.or_eq_true, Bool.or_eq_true, isBlank_iff, beq_iff_eq, beq_iff_eq, hhyphen, hunderscore,
    nameSeparatorCodes, List.mem_cons, List.mem_cons]
  tauto

theorem isNameSeparator_eq_false_iff {c : Char} : isNameSeparator c = false ↔ c.toNat ∉ nameSeparatorCodes := by
  rw [← isNameSeparator_iff, Bool.not_eq_true]

theorem isNameSeparator_of_blank {c : Char} (h : isBlank c = true) : isNameSeparator c = true := by
  simp [isNameSeparator, h]

/-! ## Case maps -/

theorem ascii_forall {P : Char → Prop} (h : ∀ n < 0x80, P (Char.ofNat n)) {c : Char} (hc : c.toNat < 0x80) : P c := by
  rw [← Char.ofNat_toNat c]
  exact h _ hc

theorem toNat_ofNat_not_mem {codes : List Nat} (hzero : 0 ∉ codes) {n : Nat} (h : n ∉ codes) :
    (Char.ofNat n).toNat ∉ codes := by
  by_cases hv : n.isValidChar
  · have hn : Char.ofNat n = Char.ofNatAux n hv := dif_pos hv
    rw [hn]
    exact h
  · have hn : Char.ofNat n = '\x00' := dif_neg hv
    rw [hn]
    exact hzero

/-- **Runs whose targets lie apart from some code points** map nothing else to them. -/
theorem mapRuns_not_mem {codes : List Nat} {runs : List CaseRun}
    (hruns : ∀ r ∈ runs, ∀ b ∈ codes, ¬ (r.target ≤ b ∧ b ≤ r.target + (r.last - r.first))) {n : Nat}
    (h : n ∉ codes) : mapRuns runs n ∉ codes := by
  unfold mapRuns
  split
  · rename_i r hr
    have hin : r.first ≤ n ∧ n ≤ r.last := by
      have hfound := List.find?_some hr
      simp only [Bool.and_eq_true, decide_eq_true_eq] at hfound
      exact hfound.1
    intro hb
    exact hruns r (List.mem_of_find?_eq_some hr) _ hb ⟨by omega, by omega⟩
  · exact h

theorem free_ofNat {n : Nat} (h : n ∉ nameSeparatorCodes) : isNameSeparator (Char.ofNat n) = false :=
  isNameSeparator_eq_false_iff.2 (toNat_ofNat_not_mem (by decide) h)

theorem free_of_mem_lowerChar {c d : Char} (h : isNameSeparator c = false) (hd : d ∈ lowerChar c) :
    isNameSeparator d = false := by
  rw [lowerChar] at hd
  split at hd
  · rename_i hc
    have hascii : isNameSeparator c = false → isNameSeparator c.toLower = false :=
      @ascii_forall (fun c => isNameSeparator c = false → isNameSeparator c.toLower = false) (by decide +kernel) c hc
    rw [List.mem_singleton.1 hd]
    exact hascii h
  · split at hd
    · have hdotted : ∀ d ∈ [Char.ofNat 0x69, Char.ofNat 0x307], isNameSeparator d = false := by decide
      exact hdotted d hd
    · have hruns : ∀ r ∈ lowerRuns, ∀ b ∈ nameSeparatorCodes,
          ¬ (r.target ≤ b ∧ b ≤ r.target + (r.last - r.first)) := by decide +kernel
      rw [List.mem_singleton.1 hd]
      exact free_ofNat (mapRuns_not_mem hruns (isNameSeparator_eq_false_iff.1 h))

/-- **The upper case of a character that is no separator** is some characters, none of them a separator. -/
theorem isWord_upperChar {c : Char} (h : isNameSeparator c = false) : IsWord isNameSeparator (upperChar c) := by
  rw [upperChar]
  split
  · rename_i hc
    have hascii : isNameSeparator c = false → isNameSeparator c.toUpper = false :=
      @ascii_forall (fun c => isNameSeparator c = false → isNameSeparator c.toUpper = false) (by decide +kernel) c hc
    exact ⟨List.cons_ne_nil _ _, by simpa using hascii h⟩
  · split
    · rename_i ns hns
      have hall : ∀ e ∈ upperExpansions, e.2 ≠ [] ∧ ∀ n ∈ e.2, n ∉ nameSeparatorCodes := by decide +kernel
      obtain ⟨before, after, hmem, -⟩ := List.lookup_eq_some_iff.1 hns
      obtain ⟨hne, hfree⟩ := hall (c.toNat, ns) (by simp [hmem])
      refine ⟨by simpa using hne, fun d hd => ?_⟩
      obtain ⟨n, hn, rfl⟩ := List.mem_map.1 hd
      exact free_ofNat (hfree n hn)
    · have hruns : ∀ r ∈ upperRuns, ∀ b ∈ nameSeparatorCodes,
          ¬ (r.target ≤ b ∧ b ≤ r.target + (r.last - r.first)) := by decide +kernel
      refine ⟨List.cons_ne_nil _ _, fun d hd => ?_⟩
      rw [List.mem_singleton.1 hd]
      exact free_ofNat (mapRuns_not_mem hruns (isNameSeparator_eq_false_iff.1 h))

/-! ## Words -/

/-- **Words put together** have no blanks at the ends. -/
theorem trim_join {sep : Char → Bool} (hsep : ∀ c, isBlank c = true → sep c = true) {glue : Text} {ws : List Text}
    (h : ∀ w ∈ ws, IsWord sep w) : trim (join glue ws) = join glue ws := by
  have hblank : ∀ c, sep c = false → isBlank c = false := fun c hc =>
    Bool.eq_false_iff.2 fun hb => by simp [hsep c hb] at hc
  exact trim_of_ends (fun c hc => hblank c (head_join h c hc)) fun c hc => hblank c (last_join h c hc)

theorem lower_eq_nil {s : Text} (h : lower s = []) : s = [] := by
  cases s with
  | nil => rfl
  | cons c rest =>
    rw [lower, lowerAfter, List.append_eq_nil_iff] at h
    have hc := h.1
    split at hc
    · cases hc
    · rw [lowerChar] at hc
      split at hc
      · cases hc
      · split at hc <;> cases hc

theorem free_lower {s : Text} (h : ∀ c ∈ s, isNameSeparator c = false) : ∀ d ∈ lower s, isNameSeparator d = false := by
  suffices ∀ before, ∀ d ∈ lowerAfter before s, isNameSeparator d = false from this []
  induction s with
  | nil => simp [lowerAfter]
  | cons c rest ih =>
    intro before d hd
    rw [lowerAfter, List.mem_append] at hd
    rcases hd with hd | hd
    · split at hd
      · -- A capital sigma, final or not.
        rw [List.mem_singleton.1 hd]
        split <;> decide
      · exact free_of_mem_lowerChar (h c List.mem_cons_self) hd
    · exact ih (fun a ha => h a (List.mem_cons_of_mem c ha)) _ d hd

theorem isWord_capitalize {w : Text} (h : IsWord isNameSeparator w) : IsWord isNameSeparator (capitalize w) := by
  obtain ⟨c, rest, rfl⟩ := List.exists_cons_of_ne_nil h.ne_nil
  have hfirst := isWord_upperChar (h.free c List.mem_cons_self)
  refine ⟨List.append_ne_nil_of_left_ne_nil hfirst.ne_nil _, fun d hd => ?_⟩
  rcases List.mem_append.1 hd with hd | hd
  · exact hfirst.free d hd
  · exact free_lower (fun a ha => h.free a (List.mem_cons_of_mem c ha)) d hd

theorem isWord_of_acronym {a : Text × Text} (h : a ∈ acronyms) : IsWord isNameSeparator a.2 := by
  have hall : ∀ a ∈ acronyms, a.2 ≠ [] ∧ ∀ c ∈ a.2, isNameSeparator c = false := by decide
  exact ⟨(hall a h).1, (hall a h).2⟩

/-- **A word stays one** when it is shown. -/
theorem isWord_titleWord {w : Text} (h : IsWord isNameSeparator w) : IsWord isNameSeparator (titleWord w) := by
  unfold titleWord
  cases hl : acronyms.lookup (lower w) with
  | none => exact isWord_capitalize h
  | some shown =>
    obtain ⟨before, after, hmem, -⟩ := List.lookup_eq_some_iff.1 hl
    exact isWord_of_acronym (a := (lower w, shown)) (by simp [hmem])

/-! ## ASCII words -/

variable {w : Text}

theorem capitalize_ascii {c : Char} {rest : Text} (h : ∀ d ∈ c :: rest, d.toNat < 0x80) :
    capitalize (c :: rest) = c.toUpper :: rest.map Char.toLower := by
  rw [capitalize, lower_ascii rest fun d hd => h d (List.mem_cons_of_mem c hd), upperChar,
    if_pos (h c List.mem_cons_self), List.singleton_append]

/-- What the case maps of ASCII do to a character of it. -/
theorem ascii_case {c : Char} (hc : c.toNat < 0x80) :
    c.toUpper.toNat < 0x80 ∧ c.toLower.toNat < 0x80 ∧ c.toUpper.toUpper = c.toUpper ∧ c.toUpper.toLower = c.toLower ∧
      c.toLower.toLower = c.toLower :=
  @ascii_forall (fun c => c.toUpper.toNat < 0x80 ∧ c.toLower.toNat < 0x80 ∧ c.toUpper.toUpper = c.toUpper ∧
    c.toUpper.toLower = c.toLower ∧ c.toLower.toLower = c.toLower) (by decide +kernel) c hc

theorem map_toLower_toLower {s : Text} (h : ∀ c ∈ s, c.toNat < 0x80) :
    (s.map Char.toLower).map Char.toLower = s.map Char.toLower := by
  rw [List.map_map]
  exact List.map_congr_left fun c hc => (ascii_case (h c hc)).2.2.2.2

theorem capitalize_isAscii (h : ∀ c ∈ w, c.toNat < 0x80) : ∀ c ∈ capitalize w, c.toNat < 0x80 := by
  cases w with
  | nil => exact nofun
  | cons c rest =>
    rw [capitalize_ascii h]
    intro d hd
    rcases List.mem_cons.1 hd with rfl | hd
    · exact (ascii_case (h c List.mem_cons_self)).1
    · obtain ⟨a, ha, rfl⟩ := List.mem_map.1 hd
      exact (ascii_case (h a (List.mem_cons_of_mem c ha))).2.1

/-- **The lower case of a capitalised word** is that of the word, so an acronym is found there if it was before. -/
theorem lower_capitalize (h : ∀ c ∈ w, c.toNat < 0x80) : lower (capitalize w) = lower w := by
  rw [lower_ascii _ (capitalize_isAscii h), lower_ascii _ h]
  cases w with
  | nil => rfl
  | cons c rest =>
    rw [capitalize_ascii h, List.map_cons, List.map_cons, (ascii_case (h c List.mem_cons_self)).2.2.2.1,
      map_toLower_toLower fun d hd => h d (List.mem_cons_of_mem c hd)]

theorem capitalize_capitalize (h : ∀ c ∈ w, c.toNat < 0x80) : capitalize (capitalize w) = capitalize w := by
  cases w with
  | nil => rfl
  | cons c rest =>
    have hcapital := capitalize_isAscii h
    rw [capitalize_ascii h] at hcapital ⊢
    rw [capitalize_ascii hcapital, (ascii_case (h c List.mem_cons_self)).2.2.1,
      map_toLower_toLower fun d hd => h d (List.mem_cons_of_mem c hd)]

/-- **A word that is shown** is not changed by showing it again. -/
theorem titleWord_titleWord (h : ∀ c ∈ w, c.toNat < 0x80) : titleWord (titleWord w) = titleWord w := by
  cases hl : acronyms.lookup (lower w) with
  | none =>
    have hplain : titleWord w = capitalize w := by rw [titleWord, hl, Option.getD_none]
    rw [hplain, titleWord, lower_capitalize h, hl, Option.getD_none, capitalize_capitalize h]
  | some shown =>
    have hknown : titleWord w = shown := by rw [titleWord, hl, Option.getD_some]
    have hall : ∀ a ∈ acronyms, titleWord a.2 = a.2 := by decide +kernel
    obtain ⟨before, after, hmem, -⟩ := List.lookup_eq_some_iff.1 hl
    rw [hknown]
    exact hall (lower w, shown) (by simp [hmem])

/-! ## Labels -/

/-- The words of a name as its label shows them. -/
theorem isWord_of_mem_shown {name : Text} :
    ∀ shown ∈ (wordsBy isNameSeparator name).map titleWord, IsWord isNameSeparator shown := by
  intro shown h
  obtain ⟨word, hword, rfl⟩ := List.mem_map.1 h
  exact isWord_titleWord (isWord_of_mem hword)

/-- **The separators of a label** are single spaces. -/
theorem eq_space_of_mem_titleCase {name : Text} {c : Char} (h : c ∈ titleCase name) (hc : isNameSeparator c = true) :
    c = ' ' := by
  rcases mem_join h with h | ⟨shown, hshown, h⟩
  · exact List.mem_singleton.1 h
  · rw [(isWord_of_mem_shown shown hshown).free c h] at hc
    cases hc

/-- **A label made from a name is of one line.** -/
theorem newline_not_mem_titleCase (name : Text) : '\n' ∉ titleCase name :=
  fun h => absurd (eq_space_of_mem_titleCase h (by decide)) (by decide)

/-- **A label made from a name with more than separators in it** can be seen. -/
theorem exists_visible_titleCase {name : Text} (h : ∃ c ∈ name, isNameSeparator c = false) :
    ∃ c ∈ titleCase name, isBlank c = false := by
  obtain ⟨word, hword⟩ := List.exists_mem_of_ne_nil _ (wordsBy_ne_nil h)
  have hshown := isWord_titleWord (isWord_of_mem hword)
  obtain ⟨d, hd⟩ := List.exists_mem_of_ne_nil _ hshown.ne_nil
  have hvisible : isBlank d = false := Bool.eq_false_iff.2 fun hb =>
    Bool.eq_false_iff.1 (hshown.free d hd) (isNameSeparator_of_blank hb)
  exact ⟨d, (infix_join_of_mem [' '] (List.mem_map_of_mem hword)).subset hd, hvisible⟩

/-- **A label is read back** as the words it was made of. -/
theorem wordsBy_titleCase (name : Text) :
    wordsBy isNameSeparator (titleCase name) = (wordsBy isNameSeparator name).map titleWord :=
  wordsBy_join (by decide) isWord_of_mem_shown

/-- **The label of two names** with separators between them: the labels of both, and one space. -/
theorem titleCase_append {a b s : Text} (ha : ∃ c ∈ a, isNameSeparator c = false)
    (hb : ∃ c ∈ b, isNameSeparator c = false) (hne : s ≠ []) (hs : ∀ c ∈ s, isNameSeparator c = true) :
    titleCase (a ++ s ++ b) = titleCase a ++ ' ' :: titleCase b := by
  have hwords : ∀ {name : Text}, (∃ c ∈ name, isNameSeparator c = false) →
      (wordsBy isNameSeparator name).map titleWord ≠ [] := fun h => by simpa using wordsBy_ne_nil h
  rw [titleCase, wordsBy_append a b hne hs, List.map_append, join_append [' '] (hwords hb) (hwords ha),
    List.append_assoc]
  rfl

theorem titleCase_titleCase {name : Text} (h : ∀ c ∈ name, c.toNat < 0x80) :
    titleCase (titleCase name) = titleCase name := by
  have hagain : ∀ word ∈ wordsBy isNameSeparator name, (titleWord ∘ titleWord) word = titleWord word :=
    fun word hword => titleWord_titleWord fun c hc =>
      h c (mem_of_mem_splitWhere _ c name word (List.mem_filter.1 hword).1 hc)
  rw [titleCase, wordsBy_titleCase, List.map_map, List.map_congr_left hagain]
  rfl

/-- **Labels are made word by word.**  Two names that are more than separators, with nothing but separators between
them, have the labels of both with one space between them.  No label holds a hyphen or an underscore, blanks at its
ends, or between its words anything but single spaces.  And the label of an ASCII name is its own label, acronyms or
not. -/
theorem titleCase_word_by_word :
    (∀ a b s : Text, (∃ c ∈ a, isNameSeparator c = false) → (∃ c ∈ b, isNameSeparator c = false) → s ≠ [] →
      (∀ c ∈ s, isNameSeparator c = true) → titleCase (a ++ s ++ b) = titleCase a ++ ' ' :: titleCase b) ∧
    (∀ v : Text, '-' ∉ titleCase v ∧ '_' ∉ titleCase v ∧ trim (titleCase v) = titleCase v ∧
      (∀ c ∈ titleCase v, isBlank c = true → c = ' ') ∧ ¬ [' ', ' '] <:+: titleCase v) ∧
    ∀ v : Text, (∀ c ∈ v, c.toNat < 0x80) → titleCase (titleCase v) = titleCase v := by
  refine ⟨fun a b s => titleCase_append, fun v => ⟨fun h => ?_, fun h => ?_, ?_, fun c h hc => ?_, ?_⟩, fun v =>
    titleCase_titleCase⟩
  · exact absurd (eq_space_of_mem_titleCase h (by decide)) (by decide)
  · exact absurd (eq_space_of_mem_titleCase h (by decide)) (by decide)
  · exact trim_join (fun c => isNameSeparator_of_blank) isWord_of_mem_shown
  · exact eq_space_of_mem_titleCase h (isNameSeparator_of_blank hc)
  · exact not_doubled_join (by decide) isWord_of_mem_shown

/-- **An acronym and a word** in the wrong case, with a run of separators between them. -/
theorem titleCase_word_by_word_restGuide :
    titleCase "rest-_ gUIDE".toList = "REST Guide".toList ∧
      titleCase (titleCase "rest-_ gUIDE".toList) = titleCase "rest-_ gUIDE".toList :=
  ⟨(titleCase_word_by_word.1 "rest".toList "gUIDE".toList "-_ ".toList ⟨'r', by decide, by decide⟩
      ⟨'g', by decide, by decide⟩ (by decide) (by decide)).trans (by decide +kernel),
    titleCase_word_by_word.2.2 _ (by decide)⟩

end DocFerry.Text
