import DocFerry.Proofs.Page.PlainPage
import DocFerry.Proofs.Text.TitleCase
/-!
# Blank titles

A title in the metadata counts unless it is empty, and a heading counts if anything follows its hash and its space.
So blanks between quotation marks title a page, and so does a heading that holds blanks alone, although the name of the
page can be seen (`convert_blankly`).  No other page has a blank title (`convert_titled_blank_iff`).
-/
namespace DocFerry.Page

open Text Markup

/-- **What titles a page with blanks alone**: its metadata, or its first heading where the metadata says nothing. -/
inductive BlanklyTitled (ctx : Context) (entries : Metadata) (body : Text) : Prop where
  | metadata {title : Text} (h : ("title".toList, title) ∈ entries) (hne : title ≠ []) (hb : IsBlankText title)
    (hr : ctx.repeatsLabel title = false)
  | heading {before after : List Text} {line : Text} (hu : Untitled entries)
    (hl : lines body = before ++ line :: after) (hn : ∀ l ∈ before, ¬ IsHeading l) (hh : IsHeading line)
    (hb : IsBlankText line.tail)

theorem nodup_keys_splitLenient (s : Text) : (Table.keys (splitLenient s).1).Nodup := by
  unfold splitLenient
  split
  · exact Table.nodup_keys_ofEntries _
  · exact List.nodup_nil

section

variable {ctx : Context} {raw found rest : Text}

theorem resolveTitle_of_titled (h : Titled ctx (splitLenient raw).1 (splitLenient raw).2 found rest) :
    (ctx.resolveTitle raw).1 = if ctx.repeatsLabel found then overviewTitle else found := by
  rw [Context.resolveTitle, titleSource_of_titled (nodup_keys_splitLenient raw) rfl h]

theorem not_repeatsLabel_nil (ctx : Context) : ctx.repeatsLabel [] = false := by
  refine Bool.eq_false_iff.2 fun h => ?_
  obtain ⟨-, label, -, hne, hlower⟩ := (repeatsLabel_iff ctx []).1 h
  exact hne (lower_eq_nil hlower.symm)

theorem BlanklyTitled.title (h : BlanklyTitled ctx (splitLenient raw).1 (splitLenient raw).2) :
    IsBlankText (ctx.resolveTitle raw).1 := by
  cases h with
  | metadata h hne hb hr =>
    rw [resolveTitle_of_titled (.metadata h hne), hr]
    exact hb
  | heading hu hl hn hh hb =>
    rw [resolveTitle_of_titled (.heading hu hl hn hh), trim_eq_nil_iff.2 hb, not_repeatsLabel_nil]
    exact nofun

theorem blanklyTitled_of_title (hname : ∃ c ∈ ctx.baseName, isNameSeparator c = false)
    (h : IsBlankText (ctx.resolveTitle raw).1) : BlanklyTitled ctx (splitLenient raw).1 (splitLenient raw).2 := by
  have hoverview : ¬ IsBlankText overviewTitle := by decide
  obtain ⟨found, rest, htitled⟩ := exists_titled ctx (splitLenient raw).1 (splitLenient raw).2
  rw [resolveTitle_of_titled htitled] at h
  split at h
  · exact absurd h hoverview
  · rename_i hrepeats
    cases htitled with
    | metadata hm hne => exact .metadata hm hne h (by simpa using hrepeats)
    | heading hu hl hn hh => exact .heading hu hl hn hh (isBlankText_trim_iff.1 h)
    | index => exact absurd h hoverview
    | name => exact absurd h (not_isBlankText_iff.2 (exists_visible_titleCase hname))

end

/-- **A page whose name can be seen has a blank title only if** its metadata gives it one that is not empty, or the
first heading of a page without a title in its metadata is blank. -/
theorem convert_titled_blank_iff (ctx : Context) (raw : Text) (hname : ∃ c ∈ ctx.baseName, isNameSeparator c = false) :
    let title := (ctx.resolveTitle (convertMarkup raw)).1
    ctx.convert raw = titleBlock title ++ trimStart (ctx.resolveTitle (convertMarkup raw)).2 ∧
      (IsBlankText title ↔
        BlanklyTitled ctx (splitLenient (convertMarkup raw)).1 (splitLenient (convertMarkup raw)).2) :=
  ⟨convert_eq ctx raw, blanklyTitled_of_title hname, BlanklyTitled.title⟩

/-- A page in no group, with a name that can be seen. -/
def lonePage : Context := ⟨"a".toList, false, none⟩

theorem convert_titled_blank_iff_lonePage :
    (∃ c ∈ lonePage.baseName, isNameSeparator c = false) ∧ BlanklyTitled lonePage [] "#  \n\nText".toList := by
  have hname : ∃ c ∈ lonePage.baseName, isNameSeparator c = false := ⟨'a', by decide, by decide⟩
  have hsplit : splitLenient (convertMarkup "#  \n\nText".toList) = ([], "#  \n\nText".toList) := by decide +kernel
  obtain ⟨-, hiff⟩ := convert_titled_blank_iff lonePage "#  \n\nText".toList hname
  rw [hsplit] at hiff
  exact ⟨hname, hiff.1 (by decide +kernel)⟩

/-- **Blank titles happen**: blanks between quotation marks and a heading of blanks are taken for titles, though the
page has a name to fall back on. -/
theorem convert_blankly :
    (∃ c ∈ lonePage.baseName, isNameSeparator c = false) ∧
      (∀ raw ∈ ["---\ntitle: \"  \"\n---\nText".toList, "#  \n\nText".toList],
        IsBlankText (lonePage.resolveTitle (convertMarkup raw)).1) ∧
      lonePage.convert "---\ntitle: \"  \"\n---\nText".toList = titleBlock "  ".toList ++ "Text".toList ∧
      lonePage.convert "#  \n\nText".toList = titleBlock [] ++ "Text".toList ∧
      lonePage.convert "Text".toList = titleBlock "A".toList ++ "Text".toList := by
  refine ⟨⟨'a', by decide, by decide⟩, ?_⟩
  decide +kernel

end DocFerry.Page
