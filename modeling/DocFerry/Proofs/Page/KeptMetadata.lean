import DocFerry.Page.Convert
import DocFerry.Proofs.Markup.Inert
import DocFerry.Proofs.Page.Opening
import DocFerry.Proofs.Page.Metadata
/-!
# Metadata under the conversion of markup

Markup is converted in the whole page, its metadata block included.  A block without markup in its lines is still there
afterwards, with the same entries, in front of the converted body; and a page that does not open with a rule once its
imports are dropped has no metadata before or after (`splitLenient_convertMarkup`).  With markup in it a block is
converted too, and a rule that comes to the top opens a block (`splitLenient_converts_block`).
-/
namespace DocFerry.Page

open Text Markup

/-! ## Where a block is cut -/

theorem cutAtDelimiter?_eq_some {ls before after : List Text} (h : cutAtDelimiter? ls = some (before, after)) :
    ∃ closing, ls = before ++ closing :: after ∧ isDelimiter closing = true ∧ ∀ l ∈ before, isDelimiter l = false := by
  have hsome : ∃ l ∈ ls, isDelimiter l = true := by
    by_contra hnone
    have hall : ∀ l ∈ ls, isDelimiter l = false := by simpa using hnone
    rw [cutAtDelimiter?_eq_none hall] at h
    cases h
  obtain ⟨before', closing, after', rfl, hb, hc⟩ := exists_first_delimiter hsome
  rw [cutAtDelimiter?_append hc hb] at h
  cases h
  exact ⟨closing, rfl, hc, hb⟩

theorem closes_of_cutBlock? {ls inside after : List Text} (h : cutBlock? ls = some (inside, after)) :
    ∃ closing, ls = inside ++ closing :: after ∧ Closes inside closing after := by
  cases ls with
  | nil => cases h
  | cons line rest =>
    rw [cutBlock?] at h
    split at h
    · rename_i cut hcut
      cases h
      obtain ⟨closing, rfl, hc, hb⟩ := cutAtDelimiter?_eq_some hcut
      exact ⟨closing, rfl, hc, hb, by simp⟩
    · rename_i hcut
      split at h
      · rename_i hd
        cases h
        refine ⟨line, rfl, hd, by simp, fun _ l hl => Bool.eq_false_iff.2 fun hl' => ?_⟩
        obtain ⟨before, closing, after, rfl, hb, hc⟩ := exists_first_delimiter ⟨l, hl, hl'⟩
        rw [cutAtDelimiter?_append hc hb] at hcut
        cases hcut
      · cases h

/-- **A page that opens with a block**: its lines, cut at the delimiters. -/
theorem lines_of_block? {s block body : Text} (h : block? s = some (block, body)) :
    ∃ opening inside closing after, lines s = opening :: (inside ++ closing :: after) ∧ isDelimiter opening = true ∧
      Closes inside closing after ∧ block = unlines inside ∧ body = unlines after := by
  unfold block? at h
  split at h
  · rename_i opening rest hlines
    split at h
    · rename_i ho
      obtain ⟨⟨inside, after⟩, hcut, he⟩ := Option.map_eq_some_iff.1 h
      cases he
      obtain ⟨closing, rfl, hc⟩ := closes_of_cutBlock? hcut
      exact ⟨opening, inside, closing, after, hlines, ho, hc, rfl, rfl⟩
    · cases h
  · cases h

/-! ## Pages that open with a block -/

theorem plain_of_delimiter {line : Text} (h : isDelimiter line = true) : ∀ c ∈ markupStarts, c ∉ line := by
  have hall : ∀ c ∈ markupStarts, c ∉ ['-', ' ', '\t'] := by decide
  exact fun c hc hmem => hall c hc (mem_of_isDelimiter h hmem)

theorem plain_of_blanks {blanks : Text} (h : ∀ c ∈ blanks, isBlank c = true) : ∀ c ∈ markupStarts, c ∉ blanks := by
  have hall : (markupStarts.all fun c => !isBlank c) = true := by decide
  exact fun c hc => not_mem_of_blank h (by simpa using List.all_eq_true.1 hall c hc)

theorem trimStart_delimiter {line : Text} (h : isDelimiter line = true) (rest : Text) :
    trimStart (line ++ rest) = line ++ rest := by
  obtain ⟨blanks, hstart, -⟩ := (Option.any_eq_true _ _).1 h
  have hhyphen : ¬ isBlank '-' = true := by decide
  rw [after?_eq_some_iff.1 hstart]
  exact trimStart_cons_of_visible hhyphen _

section Block

variable {blanks opening closing : Text} {inside after : List Text}

theorem splitLenient_of_block (hb : ∀ c ∈ blanks, isBlank c = true) (ho : isDelimiter opening = true)
    (hc : Closes inside closing after) (hone : ∀ l ∈ opening :: (inside ++ closing :: after), '\n' ∉ l) :
    splitLenient (blanks ++ unlines (opening :: (inside ++ closing :: after))) =
      (parseBlock (unlines inside), unlines after) := by
  have htrim : trimStart (blanks ++ unlines (opening :: (inside ++ closing :: after))) =
      unlines (opening :: (inside ++ closing :: after)) := by
    rw [trimStart_append_of_blank hb, unlines_cons opening (by simp)]
    exact trimStart_delimiter ho _
  have hblock := block?_of_closes (lines_unlines (by simp) hone) ho hc
  rw [splitLenient, htrim, hblock]

theorem rewrites_front (hb : ∀ c ∈ blanks, isBlank c = true) (ho : isDelimiter opening = true)
    (hinert : ∀ l ∈ inside, '\n' ∉ l ∧ Inert l) :
    Rewrites convertMarkup (rows (lines (blanks ++ opening) ++ inside))
      (rows (lines (blanks ++ opening) ++ inside)) := by
  refine rewrites_inert_rows fun l hl => ?_
  rcases List.mem_append.1 hl with hl | hl
  · refine ⟨not_mem_of_mem_splitWhere (by simp) _ l hl, inert_of_plain fun c hc hmem => ?_⟩
    rcases List.mem_append.1 (mem_of_mem_splitWhere _ c _ l hl hmem) with hmem | hmem
    · exact plain_of_blanks hb c hc hmem
    · exact plain_of_delimiter ho c hc hmem
  · exact hinert l hl

/-- **The body is converted** behind its closing delimiter. -/
theorem convertMarkup_closing (hc : isDelimiter closing = true) (hone : '\n' ∉ closing) (after : List Text) :
    ∃ after', convertMarkup (unlines (closing :: after)) = unlines (closing :: after') ∧
      unlines after' = convertMarkup (unlines after) ∧ ∀ l ∈ after', l ∈ lines (convertMarkup (unlines after)) := by
  by_cases hne : after = []
  · subst hne
    exact ⟨[], convertMarkup_of_plain (plain_of_delimiter hc), rfl, by simp⟩
  · have hinert : Inert closing := inert_of_plain (plain_of_delimiter hc)
    have hkept := hinert.rewrites hone
    refine ⟨lines (convertMarkup (unlines after)), ?_, unlines_lines _, fun l hl => hl⟩
    rw [unlines_cons closing hne, unlines_cons closing (lines_ne_nil _), unlines_lines]
    simpa using hkept (unlines after)

/-- **The markup of a page is converted behind its block**, if the lines of the block hold no markup. -/
theorem convertMarkup_block (hb : ∀ c ∈ blanks, isBlank c = true) (ho : isDelimiter opening = true)
    (hc : isDelimiter closing = true) (hone : ∀ l ∈ opening :: (inside ++ closing :: after), '\n' ∉ l)
    (hinert : ∀ l ∈ inside, Inert l) :
    ∃ after', convertMarkup (blanks ++ unlines (opening :: (inside ++ closing :: after))) =
        blanks ++ unlines (opening :: (inside ++ closing :: after')) ∧
      unlines after' = convertMarkup (unlines after) ∧ ∀ l ∈ after', l ∈ lines (convertMarkup (unlines after)) := by
  have hfront : ∀ after, blanks ++ unlines (opening :: (inside ++ closing :: after)) =
      rows (lines (blanks ++ opening) ++ inside) ++ unlines (closing :: after) := by
    intro after
    rw [unlines_cons opening (by simp), unlines_append (by simp), rows_append, rows_eq_unlines (lines_ne_nil _),
      unlines_lines]
    simp only [List.append_assoc, List.cons_append, List.nil_append]
  have hkept := rewrites_front hb ho fun l hl =>
    ⟨hone l (List.mem_cons_of_mem _ (List.mem_append_left _ hl)), hinert l hl⟩
  obtain ⟨after', hclosing, hbody, hlines⟩ := convertMarkup_closing hc (hone closing (by simp)) after
  exact ⟨after', by rw [hfront, hfront, hkept, hclosing], hbody, hlines⟩

end Block

/-- **A block without markup is kept**, in front of the converted body. -/
theorem splitLenient_of_inert {raw block body : Text} (h : block? (trimStart raw) = some (block, body))
    (hinert : ∀ line ∈ lines block, Inert line)
    (hempty : block = [] → ∀ line ∈ lines (convertMarkup body), isDelimiter line = false) :
    splitLenient (convertMarkup raw) = (parseBlock block, convertMarkup body) := by
  obtain ⟨opening, inside, closing, after, hlines, ho, hc, rfl, rfl⟩ := lines_of_block? h
  have hb : ∀ c ∈ raw.takeWhile isBlank, isBlank c = true := fun c hc => List.mem_takeWhile_imp hc
  have hraw : raw = raw.takeWhile isBlank ++ unlines (opening :: (inside ++ closing :: after)) := by
    rw [← hlines, unlines_lines, trimStart, List.takeWhile_append_dropWhile]
  have hone : ∀ l ∈ opening :: (inside ++ closing :: after), '\n' ∉ l := by
    rw [← hlines]
    exact not_mem_of_mem_splitWhere (by simp) _
  have hinside : ∀ l ∈ inside, Inert l := by
    intro l hl
    have hne : inside ≠ [] := List.ne_nil_of_mem hl
    refine hinert l ?_
    rwa [lines_unlines hne fun k hk => hone k (List.mem_cons_of_mem _ (List.mem_append_left _ hk))]
  obtain ⟨after', hconverted, hbody, hafter⟩ := convertMarkup_block hb ho hc.delimiter hone hinside
  have hcloses : Closes inside closing after' :=
    ⟨hc.delimiter, hc.first, fun hnil l hl => hempty (by rw [hnil]; rfl) l (hafter l hl)⟩
  have hone' : ∀ l ∈ opening :: (inside ++ closing :: after'), '\n' ∉ l := by
    intro l hl
    rw [List.append_cons, ← List.cons_append] at hone hl
    rcases List.mem_append.1 hl with hl | hl
    · exact hone l (List.mem_append_left _ hl)
    · exact not_mem_of_mem_splitWhere (by simp) _ l (hafter l hl)
  rw [hraw, hconverted, splitLenient_of_block hb ho hcloses hone', hbody]

/-- **A page that does not open with a rule** has no metadata. -/
theorem splitLenient_of_not_rule {s : Text} (h : ¬ OpensWithRule s) : splitLenient s = ([], s) := by
  unfold splitLenient
  cases hblock : block? (trimStart s) with
  | none => rfl
  | some found =>
    obtain ⟨block, body⟩ := found
    obtain ⟨opening, inside, closing, after, hlines, ho, -⟩ := lines_of_block? hblock
    obtain ⟨blanks, hstart, -⟩ := (Option.any_eq_true _ _).1 ho
    refine absurd ?_ h
    have hs : trimStart s = opening ++ '\n' :: unlines (inside ++ closing :: after) := by
      rw [← unlines_lines (trimStart s), hlines, unlines_cons opening (by simp)]
    rw [OpensWithRule, hs, after?_eq_some_iff.1 hstart, List.append_assoc]
    exact List.prefix_append _ _

theorem titleSource_eq_of_metadata {body rest title : Text} {metadata : Metadata} (ctx : Context)
    (h : splitLenient body = (metadata, rest)) (ht : Table.get? "title".toList metadata = some title)
    (hne : title ≠ []) : ctx.titleSource body = (title, rest) := by
  have hfilter : (Table.get? "title".toList metadata).filter (!·.isEmpty) = some title := by
    rw [ht, Option.filter_some, if_pos (by simpa using hne)]
  unfold Context.titleSource
  simp only [h, hfilter]

/-- **The title in the metadata** is the title of the page, before the rule on index pages. -/
theorem titleSource_of_metadata {body rest title : Text} {metadata : Metadata} (ctx : Context)
    (h : splitLenient body = (metadata, rest)) (ht : Table.get? "title".toList metadata = some title)
    (hne : title ≠ []) : (ctx.titleSource body).1 = title :=
  congrArg Prod.fst (titleSource_eq_of_metadata ctx h ht hne)

/-- **Metadata under the conversion of markup.**  If no line of a page's block holds markup, and no delimiter follows an
empty one, the page has the same metadata after the conversion of its markup, and the converted body; a title in the
metadata is the title of the page.  A page that does not open with a rule once its imports are dropped has no metadata
before or after, and none of its text is taken for metadata. -/
theorem splitLenient_convertMarkup (raw : Text) :
    (∀ block body, block? (trimStart raw) = some (block, body) → (∀ line ∈ lines block, Inert line) →
      (block = [] → ∀ line ∈ lines (convertMarkup body), isDelimiter line = false) →
      splitLenient raw = (parseBlock block, body) ∧
      splitLenient (convertMarkup raw) = (parseBlock block, convertMarkup body) ∧
      ∀ (ctx : Context) title, Table.get? "title".toList (parseBlock block) = some title → title ≠ [] →
        (ctx.titleSource (convertMarkup raw)).1 = title) ∧
    (¬ OpensWithRule (stripPlatformImports raw) →
      splitLenient raw = ([], raw) ∧ splitLenient (convertMarkup raw) = ([], convertMarkup raw)) := by
  refine ⟨fun block body hblock hinert hempty => ?_, fun hnot => ?_⟩
  · have hconverted := splitLenient_of_inert hblock hinert hempty
    refine ⟨by rw [splitLenient, hblock], hconverted, fun ctx title ht hne => ?_⟩
    exact titleSource_of_metadata ctx hconverted ht hne
  · exact ⟨splitLenient_of_not_rule fun h => hnot h.stripPlatformImports,
      splitLenient_of_not_rule fun h => hnot (opensWithRule_of_convertMarkup h)⟩

theorem splitLenient_convertMarkup_generic :
    block? (trimStart "---\ntitle: Map<K, V>\n---\nText <!-- c -->".toList) =
        some ("title: Map<K, V>".toList, "Text <!-- c -->".toList) ∧
      splitLenient (convertMarkup "---\ntitle: Map<K, V>\n---\nText <!-- c -->".toList) =
        (parseBlock "title: Map<K, V>".toList, convertMarkup "Text <!-- c -->".toList) ∧
      splitLenient (convertMarkup "Text\n---".toList) = ([], convertMarkup "Text\n---".toList) := by
  have hblock : block? (trimStart "---\ntitle: Map<K, V>\n---\nText <!-- c -->".toList) =
      some ("title: Map<K, V>".toList, "Text <!-- c -->".toList) := by decide +kernel
  have hkept := (splitLenient_convertMarkup "---\ntitle: Map<K, V>\n---\nText <!-- c -->".toList).1 _ _ hblock
    (by decide +kernel) (fun hnil => absurd hnil (by decide))
  exact ⟨hblock, hkept.2.1, ((splitLenient_convertMarkup "Text\n---".toList).2 (by decide +kernel)).2⟩

/-- A page with a comment in its title. -/
def markedPage : Text := "---\ntitle: A <!-- b -->\n---\nText".toList

/-- A page with an import above a rule. -/
def ruledPage : Text := "import X from '@theme/Y'\n---\nNote: x\n---\nText".toList

/-- **Markup in a block is converted too**, so the title changes; and a rule that the dropping of imports brings to the
top opens a block, so the text up to the next rule is taken for metadata. -/
theorem splitLenient_converts_block :
    splitLenient markedPage = ([("title".toList, "A <!-- b -->".toList)], "Text".toList) ∧
      splitLenient (convertMarkup markedPage) = ([("title".toList, "A \x7b/* b */\x7d".toList)], "Text".toList) ∧
      ((⟨"a".toList, false, none⟩ : Context).titleSource (convertMarkup markedPage)).1 ≠ "A <!-- b -->".toList ∧
      splitLenient ruledPage = ([], ruledPage) ∧
      splitLenient (convertMarkup ruledPage) = ([("Note".toList, "x".toList)], "Text".toList) := by
  decide +kernel

end DocFerry.Page
