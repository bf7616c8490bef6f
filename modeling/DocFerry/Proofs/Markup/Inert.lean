import Mathlib.Data.List.Infix
import DocFerry.Proofs.Markup.Translation
/-!
# Lines without markup

A line that begins no import and no fence, and holds no image and none of the tags that are converted, is kept by all
conversions whatever follows it (`Inert.rewrites`).  Plain text in front of any markup is therefore kept, and what
follows it is converted as if it stood alone (`convertMarkup_after_plain`); alone it is kept as a whole
(`Plain.convertMarkup_self`).
-/
namespace DocFerry.Markup

open Text

/-- **How the tags and comments begin** that the conversions look for. -/
def tagKeys : List Text :=
  ["<!--", "<Tabs", "</Tabs>", "<TabItem", "</TabItem>", "<img", "<CardList", "</CardList>", "<Card"].map String.toList

/-- **A line without markup.** -/
structure Inert (line : Text) : Prop where
  /-- It does not begin with the word `import`. -/
  noImport : ((after? "import".toList line).all fun rest => rest.head?.any (!isBlank ·)) = true
  noFence : fence? line = none
  noImage : ¬ "![".toList <:+: line
  noTag : ∀ key ∈ tagKeys, ¬ key <:+: line
  /-- No name behind a `<` runs into a bracket or a backslash. -/
  noBracket : ∀ t ∈ line.tails, t.head? = some '<' →
    (t.tail.dropWhile isNameChar).head? ≠ some '[' ∧ (t.tail.dropWhile isNameChar).head? ≠ some '\\'

instance (line : Text) : Decidable (Inert line) :=
  decidable_of_iff (((after? "import".toList line).all fun rest => rest.head?.any (!isBlank ·)) = true ∧
    fence? line = none ∧ ¬ "![".toList <:+: line ∧ (∀ key ∈ tagKeys, ¬ key <:+: line) ∧
    ∀ t ∈ line.tails, t.head? = some '<' →
      (t.tail.dropWhile isNameChar).head? ≠ some '[' ∧ (t.tail.dropWhile isNameChar).head? ≠ some '\\')
    ⟨fun ⟨hi, hf, hm, ht, hb⟩ => ⟨hi, hf, hm, ht, hb⟩, fun h => ⟨h.1, h.2, h.3, h.4, h.5⟩⟩

/-- **The characters that markup begins with.** -/
def markupStarts : Text := "i<!:".toList

theorem not_infix_of_start {key s : Text} {c : Char} (hc : c ∈ key) (hs : c ∉ s) : ¬ key <:+: s := fun h =>
  hs (h.subset hc)

theorem inert_of_no_tag {line : Text} (htag : '<' ∉ line) (himage : ¬ "![".toList <:+: line)
    (hfence : ¬ ":::".toList <:+: line) (himport : ¬ "import".toList <+: line) : Inert line where
  noImport := by rw [after?_eq_none_iff.2 himport, Option.all_none]
  noFence := fence?_eq_none hfence
  noImage := himage
  noTag key hk := by
    have hstart : ∀ key ∈ tagKeys, '<' ∈ key := by decide
    exact not_infix_of_start (hstart key hk) htag
  noBracket t ht hstart := absurd (((List.mem_tails _ _).1 ht).subset (List.mem_of_mem_head? hstart)) htag

/-- **A text of one line without the characters that markup begins with** is a line without markup. -/
theorem inert_of_plain {line : Text} (h : ∀ c ∈ markupStarts, c ∉ line) : Inert line :=
  inert_of_no_tag (h '<' (by decide)) (not_infix_of_start (by decide) (h '!' (by decide)))
    (not_infix_of_start (by decide) (h ':' (by decide)))
    fun hk => h 'i' (by decide) (hk.subset (by decide))

namespace Inert

variable {line : Text}

theorem import?_eq_none (h : Inert line) (wanted : Text → Bool)
    (more : Text) : import? wanted (line ++ '\n' :: more) = none := by
  unfold import?
  cases ha : after? "import".toList (line ++ '\n' :: more) with
  | none => rfl
  | some found =>
    have hfound := after?_eq_some_iff.1 ha
    obtain ⟨rest, rfl⟩ := start_of_start_append (by decide) ⟨found, hfound.symm⟩
    have hrest : rest.head?.any (!isBlank ·) = true := by
      have hstart : after? "import".toList ("import".toList ++ rest) = some rest := after?_eq_some_iff.2 rfl
      have hfirst := h.noImport
      rwa [hstart, Option.all_some] at hfirst
    cases rest with
    | nil => simp at hrest
    | cons c rest =>
      have hc : ¬ isBlank c = true := by simpa using hrest
      rw [List.append_assoc, List.append_cancel_left_eq] at hfound
      rw [← hfound, Option.bind_some, List.cons_append, skipBlanks?, if_neg hc]
      rfl

theorem bracketed?_eq_none (h : Inert line) {t : Text} (ht : t <:+ line) (more : Text) :
    bracketed? (t ++ '\n' :: more) = none := by
  -- The name behind `<` ends within the line, as no name holds the newline.
  have hend : isNameChar '\n' = false := by decide
  unfold bracketed?
  cases t with
  | nil => rfl
  | cons a t =>
    by_cases ha : '<' = a
    · subst ha
      have hinner : after? ['<'] ('<' :: t ++ '\n' :: more) = some (t ++ '\n' :: more) := rfl
      have hdrop : (t ++ '\n' :: more).dropWhile isNameChar = t.dropWhile isNameChar ++ '\n' :: more := by
        rw [List.dropWhile_append]
        split
        · rename_i hempty
          rw [List.isEmpty_iff.1 hempty, List.dropWhile_cons_of_neg (by simp [hend]), List.nil_append]
        · rfl
      rw [hinner, Option.bind_eq_bind, Option.bind_some, hdrop]
      have hnot := h.noBracket _ ((List.mem_tails _ _).2 ht) rfl
      cases hd : t.dropWhile isNameChar with
      | nil => rfl
      | cons c rest =>
        rw [List.tail_cons, hd] at hnot
        have hc : c ≠ '[' ∧ c ≠ '\\' := by simpa using hnot
        simp [hc.1, hc.2]
    · have hinner : after? ['<'] (a :: t ++ '\n' :: more) = none := by simp [after?, ha]
      rw [hinner]
      rfl

/-! ## Conversion by conversion -/

/-- **A line is kept by a matcher** whose key it does not hold. -/
theorem keeps (h : Inert line) {key : Text} {m : Matcher} (hkey : key ∈ tagKeys) (hm : Needs key m) :
    Rewrites (substitute m) (line ++ ['\n']) (line ++ ['\n']) := by
  have hall : ∀ key ∈ tagKeys, key ≠ [] ∧ '\n' ∉ key := by decide
  exact rewrites_of_not_within hm (hall key hkey).1 (hall key hkey).2 (h.noTag key hkey)

theorem rewrites_stripPlatformImports (h : Inert line) (hone : '\n' ∉ line) :
    Rewrites stripPlatformImports (line ++ ['\n']) (line ++ ['\n']) :=
  (rewrites_dropImports_of_none isPlatformModule hone (h.import?_eq_none _)).comp
    (rewrites_dropImports_of_none isPartialModule hone (h.import?_eq_none _))

theorem rewrites_convertTabs (h : Inert line) : Rewrites convertTabs (line ++ ['\n']) (line ++ ['\n']) :=
  (((h.keeps (by decide) (needs_openTag "Tabs".toList _)).comp
    (h.keeps (by decide) (needs_literal "</Tabs>".toList _))).comp
    (h.keeps (by decide) (needs_openTag "TabItem".toList _))).comp
    (h.keeps (by decide) (needs_literal "</TabItem>".toList _))

theorem rewrites_convertImageTags (h : Inert line) :
    Rewrites convertImageTags (line ++ ['\n']) (line ++ ['\n']) := by
  have hshape : ∀ shape : SourceShape, Rewrites (substitute shape.tagImage) (line ++ ['\n']) (line ++ ['\n']) :=
    fun shape => h.keeps (by decide) (needs_tagImage shape)
  exact ((hshape _).comp (hshape _)).comp (hshape _)

theorem rewrites_convertCards (h : Inert line) : Rewrites convertCards (line ++ ['\n']) (line ++ ['\n']) :=
  ((h.keeps (by decide) (needs_openTag "CardList".toList _)).comp
    (h.keeps (by decide) (needs_literal "</CardList>".toList _))).comp
    (h.keeps (by decide) needs_linkedCard)

theorem rewrites_escapeBracketedTags (h : Inert line) :
    Rewrites escapeBracketedTags (line ++ ['\n']) (line ++ ['\n']) := by
  refine rewrites_of_no_match fun t ht hne more => ?_
  have hnone : bracketed? (t ++ more) = none := by
    obtain ⟨u, rfl, hu⟩ := (List.suffix_concat_iff.1 ht).resolve_left hne
    rw [List.append_assoc]
    exact h.bracketed?_eq_none hu more
  rw [hnone]
  rfl

/-- **A line without markup is kept**, whatever follows it. -/
theorem rewrites (h : Inert line) (hone : '\n' ∉ line) :
    Rewrites convertMarkup (line ++ ['\n']) (line ++ ['\n']) := by
  have hcomments : Rewrites convertComments (line ++ ['\n']) (line ++ ['\n']) := h.keeps (by decide) needs_comment
  have hadmonitions : Rewrites convertAdmonitions (line ++ ['\n']) (line ++ ['\n']) := by
    have hrows := @rewrites_rows [line] (by simpa using hone) (by simpa using opening?_eq_none h.noFence)
    rwa [rows_singleton] at hrows
  exact rewrites_convertMarkup (((h.rewrites_stripPlatformImports hone).comp hcomments).comp h.rewrites_convertTabs)
    hadmonitions (rewrites_redirectImages_line h.noImage)
    ((h.rewrites_convertImageTags.comp h.rewrites_convertCards).comp h.rewrites_escapeBracketedTags)

end Inert

/-- **Lines without markup are kept**, whatever follows them. -/
theorem rewrites_inert_rows : ∀ {ls : List Text}, (∀ line ∈ ls, '\n' ∉ line ∧ Inert line) →
    Rewrites convertMarkup (rows ls) (rows ls)
  | [], _ => .nil _
  | line :: ls, h => by
    have hrows : rows (line :: ls) = line ++ ['\n'] ++ rows ls := by simp [rows]
    obtain ⟨hone, hinert⟩ := h line List.mem_cons_self
    rw [hrows]
    exact (hinert.rewrites hone).append (rewrites_inert_rows fun l hl => h l (List.mem_cons_of_mem line hl))

/-- **Plain text**: it holds no tag, no image and no fence, and none of its lines begins with `import`. -/
structure Plain (s : Text) : Prop where
  noTag : '<' ∉ s
  noImage : ¬ "![".toList <:+: s
  noFence : ¬ ":::".toList <:+: s
  noImport : ∀ line ∈ lines s, ¬ "import".toList <+: line

instance (s : Text) : Decidable (Plain s) :=
  decidable_of_iff ('<' ∉ s ∧ ¬ "![".toList <:+: s ∧ ¬ ":::".toList <:+: s ∧
    ∀ line ∈ lines s, ¬ "import".toList <+: line)
    ⟨fun ⟨ht, hm, hf, hi⟩ => ⟨ht, hm, hf, hi⟩, fun h => ⟨h.1, h.2, h.3, h.4⟩⟩

theorem Plain.inert {s line : Text} (h : Plain s) (hl : line ∈ lines s) : Inert line := by
  have hwithin : line <:+: s := unlines_lines s ▸ infix_join_of_mem ['\n'] hl
  apply inert_of_no_tag
  · exact fun hc => h.noTag (hwithin.subset hc)
  · exact fun hm => h.noImage (hm.trans hwithin)
  · exact fun hf => h.noFence (hf.trans hwithin)
  · exact h.noImport line hl

/-- **Plain text in front of markup is kept and does not influence it**, whatever stands in the markup. -/
theorem convertMarkup_after_plain {s : Text} (h : Plain s) (more : Text) :
    convertMarkup (s ++ '\n' :: more) = s ++ '\n' :: convertMarkup more := by
  have hrows : rows (lines s) = s ++ ['\n'] := by rw [rows_eq_unlines (lines_ne_nil s), unlines_lines]
  have hkept : Rewrites convertMarkup (s ++ ['\n']) (s ++ ['\n']) := by
    rw [← hrows]
    exact rewrites_inert_rows fun line hl => ⟨not_mem_of_mem_splitWhere (by simp) s line hl, h.inert hl⟩
  simpa using hkept more

/-- The text in front ends in marks that could belong to what follows, which is cut off at every stage. -/
theorem convertMarkup_after_plain_cut :
    Plain "An im\n import: ::\n[x](y) !".toList ∧
      convertMarkup ("An im\n import: ::\n[x](y) !".toList ++ '\n' :: "[x](y)\n:::note\n<Tabs ![a](<!--".toList) =
        "An im\n import: ::\n[x](y) !".toList ++ '\n' :: convertMarkup "[x](y)\n:::note\n<Tabs ![a](<!--".toList :=
  have h : Plain "An im\n import: ::\n[x](y) !".toList := by decide +kernel
  ⟨h, convertMarkup_after_plain h "[x](y)\n:::note\n<Tabs ![a](<!--".toList⟩

/-- **Plain text is kept** as a whole. -/
theorem Plain.convertMarkup_self {s : Text} (h : Plain s) : convertMarkup s = s := by
  have himports : stripPlatformImports s = s := by
    have hlines : ∀ line ∈ lines s, '\n' ∉ line ∧ ¬ "import".toList <+: line := fun line hl =>
      ⟨not_mem_of_mem_splitWhere (by simp) s line hl, h.noImport line hl⟩
    have hkept := fun wanted => dropImports_unlines wanted hlines
    rw [unlines_lines] at hkept
    rw [stripPlatformImports, hkept, hkept]
  have hcomments : convertComments s = s := (rewrites_of_not_mem needs_comment h.noTag).eq rfl
  have htabs : convertTabs s = s := (rewrites_convertTabs (.inl h.noTag)).eq rfl
  have hadmonitions : convertAdmonitions s = s := by
    have hfence : ∀ line ∈ lines s, opening? line = none := fun line hl => opening?_eq_none (h.inert hl).noFence
    rw [convertAdmonitions, convertLines_of_no_opening hfence, unlines_lines]
  have himages : redirectImages s = s := substitute_of_none _ s fun t ht _ =>
    needs_markdownReference.eq_none fun hk => h.noImage (hk.isInfix.trans ht.isInfix)
  have hrest : convertRest s = s := (rewrites_convertRest h.noTag).eq rfl
  rw [convertMarkup_eq, himports, hcomments, htabs, hadmonitions, himages, hrest]

theorem plain_of_no_start {s : Text} (h : ∀ c ∈ markupStarts, c ∉ s) : Plain s where
  noTag := h '<' (by decide)
  noImage := not_infix_of_start (by decide) (h '!' (by decide))
  noFence := not_infix_of_start (by decide) (h ':' (by decide))
  noImport line hl hk := h 'i' (by decide) (mem_of_mem_splitWhere _ 'i' s line hl (hk.subset (by decide)))

/-- **A text without the characters that markup begins with is kept.** -/
theorem convertMarkup_of_plain {s : Text} (h : ∀ c ∈ markupStarts, c ∉ s) : convertMarkup s = s :=
  (plain_of_no_start h).convertMarkup_self

end DocFerry.Markup
