import DocFerry.Page.Convert
import DocFerry.Proofs.Page.Written
import DocFerry.Proofs.Text.TitleCase
/-!
# A converted page is read again

A title is of one line, wherever it comes from: an entry of the metadata, a heading, the name of the file or the fixed
title of index pages (`newline_not_mem_title`).  So the block that a converted page opens with ends at its own closing
delimiter, whatever delimiters and entries the page holds below it, and the title is read from it
(`convert_read_again`).
-/
namespace DocFerry.Page

open Text

/-! ## Lines of a block -/

theorem newline_not_mem_allLines : ∀ (s : Text), ∀ line ∈ allLines s, '\n' ∉ line := by
  intro s
  fun_induction allLines s with
  | case1 => simp
  | case2 rest ih => simpa using ih
  | case3 c rest h hbreak ih => simpa using ih
  | case4 c rest h hbreak hrest ih =>
    have hc : c ≠ '\n' := fun he => hbreak (by rw [he]; decide)
    simpa using hc.symm
  | case5 c rest h hbreak line more hrest ih =>
    have hc : c ≠ '\n' := fun he => hbreak (by rw [he]; decide)
    rw [hrest] at ih
    intro l hl
    rcases List.mem_cons.1 hl with rfl | hl
    · simpa [hc.symm] using ih line List.mem_cons_self
    · exact ih l (List.mem_cons_of_mem _ hl)

theorem mem_of_mem_stripQuotes {c : Char} {value : Text} (h : c ∈ stripQuotes value) : c ∈ value := by
  have hfirst : ∀ d ∈ (Markup.quote? value).getD value, d ∈ value := by
    intro d hd
    cases value with
    | nil => exact hd
    | cons a rest =>
      rw [Markup.quote?] at hd
      split at hd
      · exact List.mem_cons_of_mem _ hd
      · exact hd
  simp only [stripQuotes] at h
  split at h
  · exact hfirst c (List.dropLast_subset _ h)
  · exact hfirst c h

theorem mem_of_entryOn? {line key value : Text} (h : entryOn? line = some (key, value)) {c : Char} (hc : c ∈ value) :
    c ∈ line := by
  unfold entryOn? at h
  obtain ⟨⟨before, after⟩, hcut, h⟩ := Option.bind_eq_some_iff.1 h
  simp only at h
  split at h
  · cases h
  · cases h
    have htrim := (trim_within after).subset (mem_of_mem_stripQuotes hc)
    rw [cutAt?_eq_some hcut]
    exact List.mem_append_right _ htrim

/-! ## Where a title comes from -/

/-- **A value in the metadata of a block is of one line.** -/
theorem newline_not_mem_value {block key value : Text} (h : Table.get? key (parseBlock block) = some value) :
    '\n' ∉ value := by
  obtain ⟨⟨k, v⟩, hentry, rfl⟩ := Table.mem_values_ofEntries (Table.mem_of_get? h)
  obtain ⟨line, hline, hentry⟩ := List.mem_filterMap.1 hentry
  exact fun hn => newline_not_mem_allLines block line hline (mem_of_entryOn? hentry hn)

theorem newline_not_mem_metadata {body key value : Text} (h : Table.get? key (splitLenient body).1 = some value) :
    '\n' ∉ value := by
  unfold splitLenient at h
  split at h
  · exact newline_not_mem_value h
  · cases h

/-- **A heading is within one of the lines.** -/
theorem heading_within : ∀ {offset : Nat} {ls : List Text} {heading : Heading},
    firstHeadingFrom offset ls = some heading → ∃ line ∈ ls, heading.text <:+: line
  | _, [], _, h => by cases h
  | offset, line :: rest, heading, h => by
    rw [firstHeadingFrom] at h
    split at h
    · rename_i text htext
      cases h
      refine ⟨line, List.mem_cons_self, ?_⟩
      unfold headingText? at htext
      split at htext
      · split at htext
        · cases htext
          exact (trim_within _).trans (List.suffix_cons _ _).isInfix
        · cases htext
      · cases htext
    · obtain ⟨later, hlater, hwithin⟩ := heading_within h
      exact ⟨later, List.mem_cons_of_mem _ hlater, hwithin⟩

theorem newline_not_mem_heading {s : Text} {heading : Heading} (h : firstHeading s = some heading) :
    '\n' ∉ heading.text := by
  obtain ⟨line, hline, hwithin⟩ := heading_within h
  exact fun hn => not_mem_of_mem_splitWhere (by simp) s line hline (hwithin.subset hn)

theorem newline_not_mem_titleSource (ctx : Context) (body : Text) : '\n' ∉ (ctx.titleSource body).1 := by
  unfold Context.titleSource
  simp only
  split
  · rename_i title htitle
    obtain ⟨htitle, -⟩ := Option.filter_eq_some_iff.1 htitle
    exact newline_not_mem_metadata htitle
  · split
    · rename_i heading hheading
      exact newline_not_mem_heading hheading
    · simp only
      split
      · decide
      · exact newline_not_mem_titleCase ctx.baseName

/-- **A title is of one line**, wherever it comes from. -/
theorem newline_not_mem_title (ctx : Context) (body : Text) : '\n' ∉ (ctx.resolveTitle body).1 := by
  unfold Context.resolveTitle
  simp only
  split
  · decide
  · exact newline_not_mem_titleSource ctx body

/-! ## The block of a title -/

/-- **What stands before a title** on its line. -/
def titleStart : Text := "title: \"".toList

/-- **The line of a title** in its block. -/
def titleLine (title : Text) : Text := titleStart ++ escapeTitle title ++ ['"']

theorem mem_escapeTitle {c : Char} {title : Text} (h : c ∈ escapeTitle title) : c = '\\' ∨ c ∈ title := by
  obtain ⟨d, hd, hc⟩ := List.mem_flatMap.1 h
  by_cases hquote : d = '"'
  · subst hquote
    have hcases : c = '\\' ∨ c = '"' := by simpa using hc
    rcases hcases with rfl | rfl
    · exact .inl rfl
    · exact .inr hd
  · have he : c = d := by simpa [hquote] using hc
    exact .inr (he ▸ hd)

theorem mem_titleLine {c : Char} {title : Text} (h : c ∈ titleLine title) :
    c ∈ titleStart ∨ c = '\\' ∨ c ∈ title := by
  have hquote : '"' ∈ titleStart := by decide
  rw [titleLine, List.mem_append, List.mem_append] at h
  rcases h with (h | h) | h
  · exact .inl h
  · exact .inr (mem_escapeTitle h)
  · exact .inl (List.mem_singleton.1 h ▸ hquote)

theorem entryOn?_titleLine (title : Text) : entryOn? (titleLine title) = some ("title".toList, escapeTitle title) := by
  have hline : titleLine title = entryLine ("title".toList, escapeTitle title) := rfl
  rw [hline]
  exact entryOn?_entryLine (by decide) (by decide) (by decide) _

/-- **The metadata of a title alone**, if the title is a single line in every script. -/
theorem parseBlock_titleLine {title : Text} (h : ∀ c ∈ title, isLineBreak c = false) :
    parseBlock (titleLine title) = [("title".toList, escapeTitle title)] := by
  have hbreak : ∀ c ∈ titleLine title, isLineBreak c = false := by
    intro c hc
    rcases mem_titleLine hc with hc | rfl | hc
    · have hall : (titleStart.all fun c => !isLineBreak c) = true := by decide
      simpa using List.all_eq_true.1 hall c hc
    · decide
    · exact h c hc
  have hne : titleLine title ≠ [] := List.append_ne_nil_of_right_ne_nil _ (by simp)
  rw [parseBlock, allLines_of_no_break hne hbreak]
  simp [entryOn?_titleLine, Table.ofEntries, Table.set]

theorem titleBlock_eq (title : Text) : titleBlock title = rows [delimiter, titleLine title, delimiter, []] := by
  have hopen : "---\ntitle: \"".toList = delimiter ++ '\n' :: titleStart := by decide
  have hclose : "\"\n---\n\n".toList = '"' :: '\n' :: (delimiter ++ ['\n', '\n']) := by decide
  have hblock (start stop : Text) (hs : start = delimiter ++ '\n' :: titleStart)
      (ht : stop = '"' :: '\n' :: (delimiter ++ ['\n', '\n'])) :
      start ++ escapeTitle title ++ stop = rows [delimiter, titleLine title, delimiter, []] := by
    rw [hs, ht, rows_cons, rows_cons, rows_cons, rows_singleton, titleLine]
    simp only [List.append_assoc, List.cons_append, List.nil_append]
  exact hblock _ _ hopen hclose

theorem lines_titleBlock {title : Text} (h : '\n' ∉ title) (rest : Text) :
    lines (titleBlock title ++ rest) = delimiter :: ([titleLine title] ++ delimiter :: [] :: lines rest) := by
  have hline : '\n' ∉ titleLine title := fun hn =>
    (mem_titleLine hn).elim (by decide) fun hn => hn.elim (by decide) h
  rw [titleBlock_eq]
  refine lines_rows_append rest fun l hl => ?_
  simp only [List.mem_cons, List.not_mem_nil, or_false] at hl
  rcases hl with rfl | rfl | rfl | rfl
  · decide
  · exact hline
  · decide
  · simp

/-- **The block of a title ends at its own delimiter**, whatever follows it. -/
theorem split_titleBlock {title : Text} (h : '\n' ∉ title) (rest : Text) :
    split (titleBlock title ++ rest) = (parseBlock (titleLine title), '\n' :: rest) := by
  have hplain : isDelimiter (titleLine title) = false := rfl
  have hsplit := split_of_lines_inside (lines_titleBlock h rest) (by decide) (by simpa using hplain) (by decide)
    (by simp)
  rw [hsplit, unlines_cons [] (lines_ne_nil rest), unlines_lines]
  rfl

theorem convert_eq (ctx : Context) (raw : Text) : ctx.convert raw =
    titleBlock (ctx.resolveTitle (Markup.convertMarkup raw)).1 ++
      trimStart (ctx.resolveTitle (Markup.convertMarkup raw)).2 := by
  unfold Context.convert
  rcases ctx.resolveTitle (Markup.convertMarkup raw) with ⟨title, body⟩
  rfl

/-- **A page under the block of a title is read again.** -/
theorem read_titleBlock {title : Text} (h : '\n' ∉ title) (rest : Text) :
    titleBlock title ++ rest = unlines [delimiter, titleLine title, delimiter, [], rest] ∧
      split (titleBlock title ++ rest) = (parseBlock (titleLine title), '\n' :: rest) ∧
      ((∀ c ∈ title, isLineBreak c = false) →
        (split (titleBlock title ++ rest)).1 = [("title".toList, escapeTitle title)]) := by
  have hsplit := split_titleBlock h rest
  refine ⟨?_, hsplit, fun hbreak => ?_⟩
  · rw [titleBlock_eq]
    exact (unlines_append (List.cons_ne_nil rest []) [delimiter, titleLine title, delimiter, []]).symm
  · rw [hsplit]
    exact parseBlock_titleLine hbreak

/-- **A converted page is read again.**  Its title is of one line; the page is a delimiter line, the line of the title,
a delimiter line, an empty line and the rest of the page, which does not begin with a blank; its block ends at the
second of these delimiter lines; and a title that is a single line in every script is all its metadata. -/
theorem convert_read_again (ctx : Context) (raw : Text) :
    let title := (ctx.resolveTitle (Markup.convertMarkup raw)).1
    let rest := trimStart (ctx.resolveTitle (Markup.convertMarkup raw)).2
    '\n' ∉ title ∧
      (∀ c ∈ rest.head?, isBlank c = false) ∧
      ctx.convert raw = unlines [delimiter, titleLine title, delimiter, [], rest] ∧
      split (ctx.convert raw) = (parseBlock (titleLine title), '\n' :: rest) ∧
      ((∀ c ∈ title, isLineBreak c = false) →
        (split (ctx.convert raw)).1 = [("title".toList, escapeTitle title)]) := by
  rw [convert_eq]
  exact ⟨newline_not_mem_title ctx _, head_trimStart _, read_titleBlock (newline_not_mem_title ctx _) _⟩

/-- A page with a heading in quotation marks, and with a delimiter and an entry below it. -/
def headedPage : Text := "# Say \"hi\"\n---\nNote: this\n---\n".toList

theorem convert_read_again_headedPage :
    (∀ c ∈ "Say \"hi\"".toList, isLineBreak c = false) ∧
      split ((⟨"a".toList, false, none⟩ : Context).convert headedPage) =
        ([("title".toList, "Say \\\"hi\\\"".toList)], "\n---\nNote: this\n---\n".toList) := by
  have htitle : ((⟨"a".toList, false, none⟩ : Context).resolveTitle (Markup.convertMarkup headedPage)).1 =
      "Say \"hi\"".toList := by decide +kernel
  have hrest : trimStart ((⟨"a".toList, false, none⟩ : Context).resolveTitle (Markup.convertMarkup headedPage)).2 =
      "---\nNote: this\n---\n".toList := by decide +kernel
  have hall : ("Say \"hi\"".toList.all fun c => !isLineBreak c) = true := by decide
  have hbreak : ∀ c ∈ "Say \"hi\"".toList, isLineBreak c = false := fun c hc => by
    simpa using List.all_eq_true.1 hall c hc
  obtain ⟨-, -, -, hsplit, hmetadata⟩ := convert_read_again ⟨"a".toList, false, none⟩ headedPage
  have hfirst := hmetadata (by rw [htitle]; exact hbreak)
  refine ⟨hbreak, Prod.ext (hfirst.trans ?_) (by rw [hsplit, hrest]; decide)⟩
  rw [htitle]
  decide

end DocFerry.Page
