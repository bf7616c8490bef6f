import DocFerry.Proofs.Page.Converted
import DocFerry.Proofs.Yaml.Quoted
/-!
# Titles between their quotes

A title gets a backslash before each of its quotes, and none before a backslash.  So what is written between its quotes
is longer than the title by its quotes alone, and stands for the title exactly if it has no backslash
(`title_stands_iff`).  With a backslash it stands for another text, or for none (`title_of_backslashes`).
-/
namespace DocFerry.Page

open Text Yaml

theorem escapeTitle_cons (c : Char) (title : Text) :
    escapeTitle (c :: title) = (if c == '"' then ['\\', '"'] else [c]) ++ escapeTitle title := by
  rw [escapeTitle, escapeTitle, List.flatMap_cons]

theorem length_escapeTitle (title : Text) :
    (escapeTitle title).length = title.length + (escapeTitle title).count '"' := by
  induction title with
  | nil => rfl
  | cons c title ih =>
    rw [escapeTitle_cons]
    by_cases hc : c = '"'
    · simp [hc]
      omega
    · simp [hc]
      omega

theorem stands_escapeTitle {title : Text} (h : '\\' ∉ title) : Stands (escapeTitle title) title := by
  induction title with
  | nil => exact .nil
  | cons c title ih =>
    obtain ⟨hc, hrest⟩ := not_or.1 (fun hm => h (List.mem_cons.2 hm))
    rw [escapeTitle_cons]
    by_cases hquote : c = '"'
    · subst hquote
      exact .letter (n := 34) rfl (ih hrest)
    · rw [if_neg (by simpa using hquote)]
      exact .char hquote (Ne.symm hc) (ih hrest)

theorem stands_escapeTitle_iff (title : Text) : Stands (escapeTitle title) title ↔ '\\' ∉ title := by
  refine ⟨fun h hm => ?_, stands_escapeTitle⟩
  have hle := h.length_le
  have hlength := length_escapeTitle title
  have hcount := List.count_pos_iff.2 hm
  omega

/-- **A title of a single line**, with no mark of an end in it. -/
def IsOneLine (title : Text) : Prop := ∀ c ∈ title, isLineBreak c = false ∧ c ≠ endMark

instance (title : Text) : Decidable (IsOneLine title) :=
  inferInstanceAs (Decidable (∀ c ∈ title, isLineBreak c = false ∧ c ≠ endMark))

theorem isBreakOrEnd_escapeTitle {title : Text} (h : IsOneLine title) :
    ∀ c ∈ escapeTitle title, isBreakOrEnd c = false := by
  intro c hc
  rcases mem_escapeTitle hc with rfl | hc
  · decide
  · exact isBreakOrEnd_eq_false (h c hc).1 (h c hc).2

/-- **The line of a title stands for it exactly if it has no backslash.**  The block of any title is a line with the
title between its quotes, and what is between them is read as the title, if it is of one line and has no backslash. -/
theorem title_stands_iff (ctx : Context) (body : Text) :
    let title := (ctx.resolveTitle body).1
    lines (titleBlock title) = [delimiter, titleStart ++ (escapeTitle title ++ ['"']), delimiter, [], []] ∧
      (Stands (escapeTitle title) title ↔ '\\' ∉ title) ∧
      ('\\' ∉ title → IsOneLine title → ∀ after, ∃ c,
        quotedScalar true ⟨'"' :: (escapeTitle title ++ '"' :: after), 0, 0, 0⟩ = .ok (title, c) ∧
          c.rest = after) := by
  intro title
  refine ⟨?_, stands_escapeTitle_iff title, fun hplain hone after => ?_⟩
  · have hlines := lines_titleBlock (newline_not_mem_title ctx body) []
    rw [List.append_nil, titleLine, List.append_assoc] at hlines
    exact hlines
  · exact quotedScalar_of_stands (stands_escapeTitle hplain) (isBreakOrEnd_escapeTitle hone) rfl

theorem title_stands_iff_quotation :
    let title := "Say \"hi\"".toList
    ('\\' ∉ title ∧ IsOneLine title) ∧ Stands (escapeTitle title) title ∧
      ∃ c, quotedScalar true ⟨"\"Say \\\"hi\\\"\"\n---".toList, 0, 0, 0⟩ = .ok (title, c) ∧
        c.rest = "\n---".toList := by
  intro title
  have htitle : ((⟨"a".toList, false, none⟩ : Context).resolveTitle headedPage).1 = title := by decide +kernel
  have hplain : '\\' ∉ title := by decide
  have hone : IsOneLine title := by decide
  obtain ⟨-, hstands, hread⟩ := title_stands_iff ⟨"a".toList, false, none⟩ headedPage
  rw [htitle] at hstands hread
  exact ⟨⟨hplain, hone⟩, hstands.2 hplain, hread hplain hone "\n---".toList⟩

theorem not_stands_free_quote {inside meant : Text} : ¬ Stands ('\\' :: '\\' :: '"' :: inside) meant := by
  intro h
  generalize htail : '\\' :: '"' :: inside = tail at h
  cases h with
  | char hq hb => exact hb rfl
  | letter hn h =>
    obtain ⟨-, rfl⟩ := List.cons.inj htail
    cases h with
    | char hq => exact hq rfl
  | code hw =>
    obtain ⟨rfl, -⟩ := List.cons.inj htail
    cases hw

/-- **Backslashes stay as they are**: one at the end of a heading takes the closing quote along, one before a quote in
the metadata sets the quote free, and one before a letter stands for something else. -/
theorem title_of_backslashes :
    let title := fun body => ((⟨"a".toList, false, none⟩ : Context).resolveTitle body).1
    (title "# a\\".toList = "a\\".toList ∧ ∀ meant, ¬ Stands (escapeTitle "a\\".toList) meant) ∧
      (title "---\ntitle: \"Say \\\"hi\\\"\"\n---".toList = "Say \\\"hi\\\"".toList ∧
        ∀ meant, ¬ Stands (escapeTitle "Say \\\"hi\\\"".toList) meant) ∧
      title "# C:\\new".toList = "C:\\new".toList ∧ Stands (escapeTitle "C:\\new".toList) "C:\new".toList := by
  have hend : ∀ meant, ¬ Stands (escapeTitle "a\\".toList) meant := by
    intro meant h
    have hsplit : Stands (['a'] ++ ['\\']) meant := h
    obtain ⟨rest, -, hrest⟩ := hsplit.of_append ['a'] (by decide)
    cases hrest with
    | char hq hb => exact hb rfl
  have hquote : ∀ meant, ¬ Stands (escapeTitle "Say \\\"hi\\\"".toList) meant := by
    intro meant h
    have hsplit : Stands ("Say ".toList ++ '\\' :: '\\' :: '"' :: "hi\\\\\"".toList) meant := h
    obtain ⟨rest, -, hrest⟩ := hsplit.of_append "Say ".toList (by decide)
    exact not_stands_free_quote hrest
  have hcolon : Stands ('\\' :: 'n' :: "ew".toList) "\new".toList :=
    .letter (n := 10) rfl (.char (c := 'e') (by decide) (by decide) (.char (c := 'w') (by decide) (by decide) .nil))
  refine ⟨⟨by decide +kernel, hend⟩, ⟨by decide +kernel, hquote⟩, by decide +kernel, ?_⟩
  exact .char (c := 'C') (by decide) (by decide) (.char (c := ':') (by decide) (by decide) hcolon)

end DocFerry.Page
