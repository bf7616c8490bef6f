import DocFerry.Proofs.Page.Metadata
import DocFerry.Proofs.Table
import DocFerry.Proofs.Text.Trimming
/-!
# Metadata that is written is read back

An entry is written on a line as its key, a colon and a space, and its value between double quotes.  Reading takes off
what writing put there and no more: the line is cut at its first colon, which no key holds, and one quotation mark goes
at each end of the value, whatever the value holds (`entryOn?_entryLine`).  No such line is a delimiter, so a block of
them ends where it was ended, and is read back in front of any body (`split_writtenBlock`).
-/
namespace DocFerry.Page

open Text

/-- **A delimiter line** as a page is given it. -/
def delimiter : Text := "---".toList

/-- **The line of an entry.** -/
def entryLine (e : Text × Text) : Text := e.1 ++ ": \"".toList ++ e.2 ++ ['"']

/-- **Metadata written as a block**: a line for each entry between two delimiter lines. -/
def writtenBlock (entries : Metadata) : Text := rows (delimiter :: (entries.map entryLine ++ [delimiter]))

/-- **An entry that a line can hold.** -/
structure Writable (e : Text × Text) : Prop where
  nonempty : e.1 ≠ []
  trimmed : trim e.1 = e.1
  noColon : ':' ∉ e.1
  oneLine : ∀ c ∈ e.1 ++ e.2, isLineBreak c = false

instance (e : Text × Text) : Decidable (Writable e) :=
  decidable_of_iff (e.1 ≠ [] ∧ trim e.1 = e.1 ∧ ':' ∉ e.1 ∧ ∀ c ∈ e.1 ++ e.2, isLineBreak c = false)
    ⟨fun ⟨hn, ht, hc, ho⟩ => ⟨hn, ht, hc, ho⟩, fun h => ⟨h.1, h.2, h.3, h.4⟩⟩

/-! ## Lines of a block -/

theorem ne_return_of_no_break {c : Char} (h : isLineBreak c = false) : c ≠ '\r' := by
  rintro rfl
  revert h
  decide

/-- **A text without line boundaries** is its only line. -/
theorem allLines_of_no_break : ∀ {s : Text}, s ≠ [] → (∀ c ∈ s, isLineBreak c = false) → allLines s = [s]
  | [], hne, _ => absurd rfl hne
  | [c], _, h => by
    have hc := h c List.mem_cons_self
    simp [allLines, hc]
  | c :: d :: rest, _, h => by
    have hc := h c List.mem_cons_self
    have ih := @allLines_of_no_break (d :: rest) (by simp) fun e he => h e (List.mem_cons_of_mem _ he)
    -- The boundary of two characters begins with one that is a boundary itself, so it is not met either.
    rw [allLines, hc, ih]
    · rfl
    · exact fun _ he => absurd he (ne_return_of_no_break hc)

/-- **The first line** ends at the first line boundary. -/
theorem allLines_append_newline (rest : Text) : ∀ {line : Text}, (∀ c ∈ line, isLineBreak c = false) →
    allLines (line ++ '\n' :: rest) = line :: allLines rest
  | [], _ => by
    have hnewline : isLineBreak '\n' = true := by decide
    rw [List.nil_append, allLines, if_pos hnewline]
    exact fun _ he => absurd he (by decide)
  | c :: line, h => by
    have hc := h c List.mem_cons_self
    have ih := @allLines_append_newline rest line fun e he => h e (List.mem_cons_of_mem _ he)
    rw [List.cons_append, allLines, hc, ih]
    · rfl
    · exact fun _ he => absurd he (ne_return_of_no_break hc)

theorem allLines_unlines : ∀ {ls : List Text}, (∀ l ∈ ls, l ≠ [] ∧ ∀ c ∈ l, isLineBreak c = false) →
    allLines (unlines ls) = ls
  | [], _ => rfl
  | [l], h => allLines_of_no_break (h l List.mem_cons_self).1 (h l List.mem_cons_self).2
  | l :: next :: ls, h => by
    rw [unlines_cons l (by simp), allLines_append_newline _ (h l List.mem_cons_self).2,
      allLines_unlines fun k hk => h k (List.mem_cons_of_mem l hk)]

/-! ## The line of an entry -/

theorem stripQuotes_quoted (value : Text) : stripQuotes (['"'] ++ value ++ ['"']) = value := by
  simp [stripQuotes, Markup.quote?, Markup.isQuote]

/-- **An entry is read back from its line.** -/
theorem entryOn?_entryLine {key : Text} (hne : key ≠ []) (ht : trim key = key) (hc : ':' ∉ key) (value : Text) :
    entryOn? (entryLine (key, value)) = some (key, value) := by
  have hline : entryLine (key, value) = key ++ ':' :: ' ' :: (['"'] ++ value ++ ['"']) := by simp [entryLine]
  have hquote : Solid ['"'] := ⟨by decide, by decide⟩
  have hspace : trimStart (' ' :: (['"'] ++ value ++ ['"'])) = ['"'] ++ value ++ ['"'] := rfl
  have htrim : trim (' ' :: (['"'] ++ value ++ ['"'])) = ['"'] ++ value ++ ['"'] := by
    rw [trim, hspace, (hquote.around hquote value).trimEnd_eq]
  rw [hline, entryOn?, cutAt?_singleton ':' _ hc, Option.bind_some]
  simp only [ht, htrim, stripQuotes_quoted]
  rw [if_neg (by simpa using hne)]

namespace Writable

variable {e : Text × Text}

theorem entryOn? (h : Writable e) : entryOn? (entryLine e) = some e :=
  entryOn?_entryLine h.nonempty h.trimmed h.noColon e.2

theorem no_break (h : Writable e) : ∀ c ∈ entryLine e, isLineBreak c = false := by
  have hmarks : ∀ c ∈ ": \"".toList ++ ['"'], isLineBreak c = false := by decide
  intro c hc
  simp only [entryLine, List.mem_append] at hc
  rcases hc with ((hc | hc) | hc) | hc
  · exact h.oneLine c (List.mem_append_left _ hc)
  · exact hmarks c (List.mem_append_left _ hc)
  · exact h.oneLine c (List.mem_append_right _ hc)
  · exact hmarks c (List.mem_append_right _ hc)

theorem newline_not_mem (h : Writable e) : '\n' ∉ entryLine e := fun hn => absurd (h.no_break _ hn) (by decide)

end Writable

theorem entryLine_ne_nil (e : Text × Text) : entryLine e ≠ [] := List.append_ne_nil_of_right_ne_nil _ (by simp)

/-- **The line of an entry closes no block**, as it holds a colon. -/
theorem isDelimiter_entryLine (e : Text × Text) : isDelimiter (entryLine e) = false := by
  have hcolon : ':' ∈ entryLine e := by simp [entryLine]
  exact Bool.eq_false_iff.2 fun h => absurd (mem_of_isDelimiter h hcolon) (by decide)

/-! ## A written block -/

section Block

variable {entries : Metadata}

theorem filterMap_entryLine : ∀ {entries : Metadata}, (∀ e ∈ entries, Writable e) →
    (entries.map entryLine).filterMap entryOn? = entries
  | [], _ => rfl
  | e :: entries, h => by
    rw [List.map_cons, List.filterMap_cons_some (h e List.mem_cons_self).entryOn?,
      filterMap_entryLine fun d hd => h d (List.mem_cons_of_mem e hd)]

theorem parseBlock_entryLines (hkeys : (Table.keys entries).Nodup) (hw : ∀ e ∈ entries, Writable e) :
    parseBlock (unlines (entries.map entryLine)) = entries := by
  have hlines : allLines (unlines (entries.map entryLine)) = entries.map entryLine := by
    refine allLines_unlines fun l hl => ?_
    obtain ⟨e, he, rfl⟩ := List.mem_map.1 hl
    exact ⟨entryLine_ne_nil e, (hw e he).no_break⟩
  rw [parseBlock, hlines, filterMap_entryLine hw, Table.ofEntries_of_nodup hkeys]

theorem block?_writtenBlock (hne : entries ≠ []) (hw : ∀ e ∈ entries, Writable e) (body : Text) :
    block? (writtenBlock entries ++ body) = some (unlines (entries.map entryLine), body) := by
  have hinside : ∀ l ∈ entries.map entryLine, isDelimiter l = false ∧ '\n' ∉ l := by
    intro l hl
    obtain ⟨e, he, rfl⟩ := List.mem_map.1 hl
    exact ⟨isDelimiter_entryLine e, (hw e he).newline_not_mem⟩
  have hone : ∀ l ∈ delimiter :: (entries.map entryLine ++ [delimiter]), '\n' ∉ l := by
    intro l hl
    rcases List.mem_cons.1 hl with rfl | hl
    · decide
    · rcases List.mem_append.1 hl with hl | hl
      · exact (hinside l hl).2
      · exact List.mem_singleton.1 hl ▸ by decide
  have hlines : lines (writtenBlock entries ++ body) =
      delimiter :: (entries.map entryLine ++ delimiter :: lines body) := by
    rw [writtenBlock, lines_rows_append body hone]
    simp
  have hclosed : Closes (entries.map entryLine) delimiter (lines body) :=
    ⟨by decide, fun l hl => (hinside l (List.mem_of_mem_tail hl)).1, fun hnil => absurd (List.map_eq_nil_iff.1 hnil) hne⟩
  rw [block?_of_closes hlines (by decide) hclosed, unlines_lines]

theorem trimStart_writtenBlock (entries : Metadata) (body : Text) :
    trimStart (writtenBlock entries ++ body) = writtenBlock entries ++ body := rfl

/-- **Metadata that is written is read back**, and the body behind it, whatever the values and the body hold; the same
holds where blanks may stand in front and do. -/
theorem split_writtenBlock (hne : entries ≠ []) (hkeys : (Table.keys entries).Nodup) (hw : ∀ e ∈ entries, Writable e)
    (body : Text) :
    split (writtenBlock entries ++ body) = (entries, body) ∧
      ∀ blanks : Text, (∀ c ∈ blanks, isBlank c = true) →
        splitLenient (blanks ++ (writtenBlock entries ++ body)) = (entries, body) := by
  have hblock := block?_writtenBlock hne hw body
  have hparse := parseBlock_entryLines hkeys hw
  refine ⟨by simp only [split, hblock, hparse], fun blanks hb => ?_⟩
  rw [splitLenient, trimStart_append_of_blank hb, trimStart_writtenBlock, hblock]
  simp only [hparse]

/-- The values hold what ends a key, a value and a block, and the body goes on like a block. -/
theorem split_writtenBlock_marked :
    (∀ e ∈ [("a \"b".toList, "\"c: d'".toList), ("---".toList, " --- ".toList)], Writable e) ∧
      split "---\na \"b: \"\"c: d'\"\n---: \" --- \"\n---\ne: f\n---\n".toList =
        ([("a \"b".toList, "\"c: d'".toList), ("---".toList, " --- ".toList)], "e: f\n---\n".toList) ∧
      splitLenient "\n\u2003 ---\na \"b: \"\"c: d'\"\n---: \" --- \"\n---\ne: f\n---\n".toList =
        ([("a \"b".toList, "\"c: d'".toList), ("---".toList, " --- ".toList)], "e: f\n---\n".toList) := by
  have hw : ∀ e ∈ [("a \"b".toList, "\"c: d'".toList), ("---".toList, " --- ".toList)], Writable e := by decide
  have hread := split_writtenBlock (by simp) (by decide) hw "e: f\n---\n".toList
  exact ⟨hw, hread.1, hread.2 "\n\u2003 ".toList (by decide)⟩

end Block

end DocFerry.Page
