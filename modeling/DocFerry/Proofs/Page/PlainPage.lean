import DocFerry.Proofs.Page.Headings
import DocFerry.Proofs.Page.KeptMetadata
/-!
# Plain pages

A page of plain text is kept word for word under its new block: of its source only the metadata goes, and the line of
the heading that its title is taken from (`convert_plain`).  The title is that of the metadata if it is not empty, else
the first heading, else `Overview` for an index page and the label of the file name for any other (`Titled`); and an
index page does not repeat the label of its group.
-/
namespace DocFerry.Page

open Text Markup

/-- **The source of a page**: its metadata, if it has any, in front of its body. -/
def pageSource (entries : Metadata) (body : Text) : Text :=
  if entries = [] then body else writtenBlock entries ++ body

/-- **Metadata without a title**, or with an empty one. -/
def Untitled (entries : Metadata) : Prop := ∀ title, ("title".toList, title) ∈ entries → title = []

/-- **Where the title of a page is found**, and what is left of its body. -/
inductive Titled (ctx : Context) (entries : Metadata) (body : Text) : (found rest : Text) → Prop where
  | metadata {title : Text} (h : ("title".toList, title) ∈ entries) (hne : title ≠ []) :
    Titled ctx entries body title body
  | heading {before after : List Text} {line : Text} (hu : Untitled entries)
    (hl : lines body = before ++ line :: after) (hb : ∀ l ∈ before, ¬ IsHeading l) (hh : IsHeading line) :
    Titled ctx entries body (trim line.tail) (unlines (before ++ [] :: after))
  | index (hu : Untitled entries) (hn : ∀ l ∈ lines body, ¬ IsHeading l) (hi : ctx.isIndex = true) :
    Titled ctx entries body overviewTitle body
  | name (hu : Untitled entries) (hn : ∀ l ∈ lines body, ¬ IsHeading l) (hi : ctx.isIndex = false) :
    Titled ctx entries body (titleCase ctx.baseName) body

section Titled

variable {ctx : Context} {entries : Metadata} {body found rest : Text}

/-- **Every page has a title**, wherever it comes from. -/
theorem exists_titled (ctx : Context) (entries : Metadata) (body : Text) : ∃ found rest, Titled ctx entries body found rest := by
  by_cases hu : Untitled entries
  · by_cases hh : ∃ l ∈ lines body, IsHeading l
    · obtain ⟨before, line, after, hl, hb, hline⟩ := exists_first_heading hh
      exact ⟨_, _, .heading hu hl hb hline⟩
    · have hn : ∀ l ∈ lines body, ¬ IsHeading l := by simpa using hh
      cases hi : ctx.isIndex with
      | true => exact ⟨_, _, .index hu hn hi⟩
      | false => exact ⟨_, _, .name hu hn hi⟩
  · unfold Untitled at hu
    push Not at hu
    obtain ⟨title, h, hne⟩ := hu
    exact ⟨_, _, .metadata h hne⟩

theorem Untitled.filter_eq_none (h : Untitled entries) :
    (Table.get? "title".toList entries).filter (!·.isEmpty) = none := by
  cases ht : Table.get? "title".toList entries with
  | none => rfl
  | some title => simp [h title (Table.mem_of_get? ht)]

theorem titleSource_of_titled {raw : Text} (hkeys : (Table.keys entries).Nodup)
    (hsplit : splitLenient raw = (entries, body)) (h : Titled ctx entries body found rest) :
    ctx.titleSource raw = (found, rest) := by
  cases h with
  | metadata h hne => exact titleSource_eq_of_metadata ctx hsplit ((Table.get?_eq_some_iff_mem hkeys).2 h) hne
  | heading hu hl hb hh =>
    unfold Context.titleSource
    simp only [hsplit, hu.filter_eq_none, firstHeading_of_lines hl hb hh, without_of_lines hl]
  | index hu hn hi =>
    have hnone : firstHeading body = none := firstHeadingFrom_eq_none 0 hn
    unfold Context.titleSource
    simp only [hsplit, hu.filter_eq_none, hnone, hi, if_true]
  | name hu hn hi =>
    have hnone : firstHeading body = none := firstHeadingFrom_eq_none 0 hn
    unfold Context.titleSource
    simp only [hsplit, hu.filter_eq_none, hnone, hi, Bool.false_eq_true, if_false]

end Titled

theorem repeatsLabel_iff (ctx : Context) (title : Text) : ctx.repeatsLabel title = true ↔
    ctx.isIndex = true ∧ ∃ label ∈ ctx.groupLabel, label ≠ [] ∧ lower title = lower label := by
  simp [Context.repeatsLabel, Option.any_eq_true]

theorem splitLenient_pageSource {entries : Metadata} {body : Text} (hkeys : (Table.keys entries).Nodup)
    (hw : ∀ e ∈ entries, Writable e) (hrule : entries = [] → ¬ OpensWithRule body) :
    splitLenient (pageSource entries body) = (entries, body) := by
  unfold pageSource
  split
  · rename_i hnil
    rw [splitLenient_of_not_rule (hrule hnil), hnil]
  · rename_i hne
    obtain ⟨-, hlenient⟩ := split_writtenBlock hne hkeys hw body
    exact hlenient [] (by simp)

/-- **A plain page is kept under its title.**  Wherever the title is found, the page becomes the block of the title,
which is `Overview` on an index page that would repeat the label of its group, and what is left of the body, from its
first character that is not blank. -/
theorem convert_plain (ctx : Context) {entries : Metadata} {body : Text} (hkeys : (Table.keys entries).Nodup)
    (hw : ∀ e ∈ entries, Writable e) (hplain : Plain (pageSource entries body))
    (hrule : entries = [] → ¬ OpensWithRule body) :
    (∃ found rest, Titled ctx entries body found rest) ∧
      ∀ found rest, Titled ctx entries body found rest →
        ctx.convert (pageSource entries body) =
          titleBlock (if ctx.isIndex = true ∧ ∃ label ∈ ctx.groupLabel, label ≠ [] ∧ lower found = lower label
            then overviewTitle else found) ++ trimStart rest := by
  refine ⟨exists_titled ctx entries body, fun found rest htitled => ?_⟩
  have hsplit := splitLenient_pageSource hkeys hw hrule
  have hfound := titleSource_of_titled hkeys hsplit htitled
  rw [convert_eq, hplain.convertMarkup_self, Context.resolveTitle, hfound]
  simp only [repeatsLabel_iff]

/-- An index page whose heading repeats the label of its group, under an empty title. -/
theorem convert_plain_repeated :
    Plain (pageSource [("title".toList, []), ("draft".toList, "x: 'y".toList)] "Text\n#  Guides \n\n--- ! [a".toList) ∧
      (⟨"index".toList, true, some "GUIDES".toList⟩ : Context).convert
          "---\ntitle: \"\"\ndraft: \"x: 'y\"\n---\nText\n#  Guides \n\n--- ! [a".toList =
        "---\ntitle: \"Overview\"\n---\n\nText\n\n\n--- ! [a".toList := by
  have hplain : Plain (pageSource [("title".toList, []), ("draft".toList, "x: 'y".toList)]
      "Text\n#  Guides \n\n--- ! [a".toList) := by decide +kernel
  have huntitled : Untitled [("title".toList, []), ("draft".toList, "x: 'y".toList)] := by simp [Untitled]
  have hlines : lines "Text\n#  Guides \n\n--- ! [a".toList =
      ["Text".toList] ++ "#  Guides ".toList :: [[], "--- ! [a".toList] := by decide
  have htitled := @Titled.heading ⟨"index".toList, true, some "GUIDES".toList⟩ _ _ _ _ _ huntitled hlines
    (by decide) (by decide)
  have hkept := (convert_plain ⟨"index".toList, true, some "GUIDES".toList⟩ (by decide) (by decide) hplain
    (fun hnil => by cases hnil)).2 _ _ htitled
  have hrepeats : lower "Guides".toList = lower "GUIDES".toList := by decide
  rw [if_pos ⟨rfl, _, rfl, by decide, hrepeats⟩] at hkept
  exact ⟨hplain, hkept⟩

end DocFerry.Page
