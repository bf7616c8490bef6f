import DocFerry.Proofs.Action
import DocFerry.Proofs.Text.Rewriting
import DocFerry.Proofs.Text.Stored
import DocFerry.Proofs.Text.Trimming
import DocFerry.Site.Brand
/-!
# The name in the old site's settings

The first title in the settings is looked for behind the first place where a title may be (`title?_append`), and it is
read up to the first quotation mark of either kind (`titleAt?_quoted`).  So the name of a project is the title that its
settings give it exactly if no quotation mark of the other kind stands in it (`projectName_titled`); an apostrophe in a
title between double quotes cuts the name short, or loses it (`apostrophe_ends_name`).
-/
namespace DocFerry.Site

open Files
open Text.Utf8 (encode)

/-- What a title is looked for by. -/
def titleKey : Text := "title:".toList

/-- **Settings with a title**: the first key of a title, a title between two equal quotation marks, and anything around
them.  The title is of one line, it can be seen, and its quotation mark does not stand in it; it may hold the other
one. -/
structure Titled where
  before : Text
  blanks : Text
  mark : Char
  name : Text
  after : Text
  before_lacks : ¬ titleKey <:+: before
  blanks_blank : ∀ c ∈ blanks, Text.isBlank c = true
  mark_quote : Markup.isQuote mark = true
  name_oneLine : '\n' ∉ name ∧ '\r' ∉ name
  name_visible : ¬ Text.IsBlankText name
  name_lacks : mark ∉ name

namespace Titled

def text (t : Titled) : Text := t.before ++ (titleKey ++ (t.blanks ++ t.mark :: (t.name ++ t.mark :: t.after)))

/-- **The part of a title before its first quotation mark.** -/
def opening (t : Titled) : Text := t.name.takeWhile (!Markup.isQuote ·)

end Titled

/-! ## Titles -/

section Titles

variable {s rest blanks name after u : Text} {mark : Char}

theorem quote_cases {c : Char} (h : Markup.isQuote c = true) : c = '"' ∨ c = '\'' := by
  simpa [Markup.isQuote] using h

theorem not_blank_of_quote {c : Char} (h : Markup.isQuote c = true) : Text.isBlank c = false := by
  rcases quote_cases h with rfl | rfl <;> decide

/-- **A text up to its first quotation mark**, which may be the one behind it. -/
theorem exists_first_quote (hm : Markup.isQuote mark = true) (name after : Text) :
    ∃ q rest, name ++ mark :: after = name.takeWhile (!Markup.isQuote ·) ++ q :: rest ∧ Markup.isQuote q = true := by
  have hname := List.takeWhile_append_dropWhile (p := (!Markup.isQuote ·)) (l := name)
  cases hd : name.dropWhile (!Markup.isQuote ·) with
  | nil =>
    rw [hd, List.append_nil] at hname
    exact ⟨mark, after, by rw [hname], hm⟩
  | cons q rest =>
    have hq := List.head?_dropWhile_not (!Markup.isQuote ·) name
    rw [hd] at hname hq
    refine ⟨q, rest ++ mark :: after, ?_, by simpa using hq⟩
    conv_lhs => rw [← hname, List.append_assoc, List.cons_append]

/-- **A title is read up to the first quotation mark** of either kind. -/
theorem titleAt?_quoted (hb : ∀ c ∈ blanks, Text.isBlank c = true) (hm : Markup.isQuote mark = true)
    (hline : '\n' ∉ name) :
    titleAt? (titleKey ++ (blanks ++ mark :: (name ++ mark :: after))) = some (name.takeWhile (!Markup.isQuote ·)) := by
  have hkey : Text.after? "title:".toList (titleKey ++ (blanks ++ mark :: (name ++ mark :: after))) =
      some (blanks ++ mark :: (name ++ mark :: after)) := Text.after?_eq_some_iff.2 rfl
  have hstart : Text.trimStart (blanks ++ mark :: (name ++ mark :: after)) = mark :: (name ++ mark :: after) := by
    rw [Text.trimStart_append_of_blank hb, Text.trimStart, List.dropWhile_cons_of_neg (by simp [not_blank_of_quote hm])]
  obtain ⟨q, rest, hvalue, hq⟩ := exists_first_quote hm name after
  have hinside : ∀ c ∈ name.takeWhile (!Markup.isQuote ·), (!(Markup.isQuote c || c == '\n')) = true := by
    intro c hc
    have hne : c ≠ '\n' := fun he => hline (he ▸ List.takeWhile_subset _ hc)
    have hplain := List.mem_takeWhile_imp hc
    simp only [Bool.not_eq_true'] at hplain
    simp [hplain, hne]
  have hstop : (!(Markup.isQuote q || q == '\n')) = false := by simp [hq]
  have hdrop : (name ++ mark :: after).dropWhile (fun c => !(Markup.isQuote c || c == '\n')) = q :: rest := by
    rw [hvalue, List.dropWhile_append_of_pos hinside, List.dropWhile_cons, hstop]
    rfl
  have htake : (name ++ mark :: after).takeWhile (fun c => !(Markup.isQuote c || c == '\n')) =
      name.takeWhile (!Markup.isQuote ·) := by
    rw [hvalue, List.takeWhile_append_of_pos hinside, List.takeWhile_cons, hstop]
    exact List.append_nil _
  rw [titleAt?, hkey, Option.bind_some, hstart, Markup.quote?, if_pos hm]
  simp only [Option.bind_eq_bind, Option.bind_some]
  rw [hdrop, htake]
  exact if_pos hq

theorem titleAt?_of_not_start (h : ¬ titleKey <+: s) : titleAt? s = none := by
  have hnone : Text.after? "title:".toList s = none := Text.after?_eq_none_iff.2 h
  rw [titleAt?, hnone]
  rfl

/-- **Titles are looked for behind the text that has no key of one**, as the key overlaps no other. -/
theorem title?_append : ∀ {u : Text}, ¬ titleKey <:+: u → title? (u ++ (titleKey ++ rest)) = title? (titleKey ++ rest)
  | [], _ => rfl
  | c :: u, h => by
    have hstart : ¬ titleKey <+: c :: (u ++ (titleKey ++ rest)) := by
      rintro ⟨behind, hs⟩
      have hcut : Text.cutAt? titleKey (c :: u ++ (titleKey ++ rest)) = some (c :: u, rest) :=
        Text.cutAt?_append_key (by decide) (by decide) h
      rw [List.cons_append, Text.cutAt?_of_start (by decide) hs.symm] at hcut
      cases hcut
    rw [List.infix_cons_iff, not_or] at h
    rw [List.cons_append, title?, titleAt?_of_not_start hstart, Option.none_or, title?_append h.2]

theorem title?_of_titleAt? {title : Text} (h : titleAt? s = some title) : title? s = some title := by
  cases s with
  | nil => cases h
  | cons c rest => rw [title?, h, Option.some_or]

/-! ## No name holds a quotation mark -/

theorem no_quote_of_titleAt? {title : Text} (h : titleAt? s = some title) : ∀ c ∈ title, Markup.isQuote c = false := by
  obtain ⟨value, -, h⟩ := Option.bind_eq_some_iff.1 h
  simp only at h
  split at h
  · split at h
    · cases h
      intro c hc
      have hinside := List.mem_takeWhile_imp hc
      simp only [Bool.not_eq_true', Bool.or_eq_false_iff] at hinside
      exact hinside.1
    · cases h
  · cases h

theorem no_quote_of_title? : ∀ {s title : Text}, title? s = some title → ∀ c ∈ title, Markup.isQuote c = false
  | [], _, h => by cases h
  | c :: s, title, h => by
    rw [title?, Option.or_eq_some_iff] at h
    rcases h with h | ⟨-, h⟩
    · exact no_quote_of_titleAt? h
    · exact no_quote_of_title? h

theorem no_quote_of_nameIn (h : nameIn s = some name) : ∀ c ∈ name, Markup.isQuote c = false := by
  obtain ⟨title, htitle, rfl⟩ := Option.map_eq_some_iff.1 (Option.filter_eq_some_iff.1 h).1
  exact fun c hc => no_quote_of_title? htitle c ((Text.trim_within title).subset hc)

theorem no_quote_of_firstName {d : Disk} {root : Path} : ∀ {files : List Text},
    firstName d root files = .ok (some name) → ∀ c ∈ name, Markup.isQuote c = false
  | [], h => by cases h
  | file :: files, h => by
    rw [firstName] at h
    obtain ⟨source, -, h⟩ := bind_eq_ok h
    split at h
    · rename_i found hfound
      cases h
      obtain ⟨text, -, hname⟩ := Option.bind_eq_some_iff.1 hfound
      exact no_quote_of_nameIn hname
    · exact no_quote_of_firstName h

end Titles

/-! ## The name of a project -/

namespace Titled

variable (t : Titled)

/-- **The title in settings as they are read**, newlines in them written one way. -/
theorem title?_unifyNewlines : title? (Text.unifyNewlines t.text) = some t.opening := by
  have hmark : t.mark ≠ '\n' ∧ t.mark ≠ '\r' := by
    rcases quote_cases t.mark_quote with h | h <;> rw [h] <;> decide
  have hquoted : Text.unifyNewlines (t.mark :: (t.name ++ t.mark :: t.after)) =
      t.mark :: (t.name ++ t.mark :: Text.unifyNewlines t.after) := by
    rw [Text.unifyNewlines_cons hmark.2, Text.unifyNewlines_append_of_not_mem _ t.name_oneLine.2,
      Text.unifyNewlines_cons hmark.2]
  have htext : Text.unifyNewlines t.text = Text.unifyNewlines t.before ++ (titleKey ++
      (Text.unifyNewlines t.blanks ++ t.mark :: (t.name ++ t.mark :: Text.unifyNewlines t.after))) := by
    rw [text, Text.unifyNewlines_append (by simp [titleKey]), Text.unifyNewlines_append_of_not_mem _ (by decide),
      Text.unifyNewlines_append (by simpa using hmark.1), hquoted]
  have hbefore : ¬ titleKey <:+: Text.unifyNewlines t.before := fun h =>
    t.before_lacks (Text.infix_of_unifyNewlines (by decide) h)
  have hblanks : ∀ c ∈ Text.unifyNewlines t.blanks, Text.isBlank c = true := by
    intro c hc
    rcases Text.mem_unifyNewlines hc with hc | rfl
    · exact t.blanks_blank c hc
    · decide
  rw [htext, title?_append hbefore]
  exact title?_of_titleAt? (titleAt?_quoted hblanks t.mark_quote t.name_oneLine.1)

theorem nameIn_unifyNewlines : nameIn (Text.unifyNewlines t.text) =
    if Text.IsBlankText t.opening then none else some (Text.trim t.opening) := by
  rw [nameIn, t.title?_unifyNewlines, Option.map_some, Option.filter_some]
  by_cases h : Text.IsBlankText t.opening
  · rw [if_pos h, Text.trim_eq_nil_iff.2 h]
    rfl
  · have hne : Text.trim t.opening ≠ [] := fun hnil => h (Text.trim_eq_nil_iff.1 hnil)
    rw [if_neg h, if_pos (by simpa using hne)]

theorem opening_eq (h : ∀ c ∈ t.name, Markup.isQuote c = false) : t.opening = t.name := by
  rw [opening, List.takeWhile_eq_self_iff]
  exact fun c hc => by simp [h c hc]

end Titled

/-- **The name of a project is the beginning of its title**, up to the first quotation mark of either kind; if there is
nothing to be seen before that mark, the name is looked for in the settings that are read next.  So it is the whole
title, trimmed, exactly if no quotation mark stands in the title. -/
theorem projectName_titled (t : Titled) {d : Disk} {root : Path}
    (h : d.seekFile (root.child "docusaurus.config.js".toList) = .ok (some (encode t.text))) :
    projectName d root = (if Text.IsBlankText t.opening then firstName d root ["docusaurus.config.ts".toList]
      else .ok (some (Text.trim t.opening))) ∧
    (projectName d root = .ok (some (Text.trim t.name)) ↔ ∀ c ∈ t.name, Markup.isQuote c = false) := by
  have hsource : sourceText d (root.child "docusaurus.config.js".toList) = .ok (some (Text.unifyNewlines t.text)) := by
    rw [sourceText, h]
    show Except.ok (strictText? (encode t.text)) = _
    rw [strictText?, Text.Utf8.decode?_encode, Option.map_some]
  have hname : projectName d root = if Text.IsBlankText t.opening then firstName d root ["docusaurus.config.ts".toList]
      else .ok (some (Text.trim t.opening)) := by
    have hfiles : oldSettings = ["docusaurus.config.js".toList, "docusaurus.config.ts".toList] := rfl
    rw [projectName, hfiles, firstName, hsource]
    by_cases hblank : Text.IsBlankText t.opening
    · have hnone : nameIn (Text.unifyNewlines t.text) = none := by rw [t.nameIn_unifyNewlines, if_pos hblank]
      rw [if_pos hblank]
      simp only [bind, Except.bind, Option.bind_some, hnone]
    · have hsome : nameIn (Text.unifyNewlines t.text) = some (Text.trim t.opening) := by
        rw [t.nameIn_unifyNewlines, if_neg hblank]
      rw [if_neg hblank]
      simp only [bind, Except.bind, Option.bind_some, hsome, pure, Except.pure]
  refine ⟨hname, fun hwhole c hc => ?_, fun hplain => ?_⟩
  · -- A quotation mark in the title is not trimmed away, and no name that is found holds one.
    by_contra hquote
    rw [Bool.not_eq_false] at hquote
    have hmem := Text.mem_trim (not_blank_of_quote hquote) hc
    rw [no_quote_of_firstName hwhole c hmem] at hquote
    cases hquote
  · rw [hname, t.opening_eq hplain, if_neg t.name_visible]

/-- How the settings in the examples begin. -/
def settingsStart : Text := "module.exports = \x7b\n  ".toList

theorem settingsStart_lacks : ¬ titleKey <:+: settingsStart := by decide

/-- **Settings with a title** between double quotes. -/
def settingsTitled (name : Text) (hline : '\n' ∉ name ∧ '\r' ∉ name) (hvisible : ¬ Text.IsBlankText name)
    (hlacks : '"' ∉ name) : Titled where
  before := settingsStart
  blanks := [' ']
  mark := '"'
  name := name
  after := ",\n\x7d;\n".toList
  before_lacks := settingsStart_lacks
  blanks_blank := by simp [Text.isBlank]
  mark_quote := rfl
  name_oneLine := hline
  name_visible := hvisible
  name_lacks := hlacks

/-- **A site with settings** and nothing else. -/
def siteOfSettings (t : Titled) : Disk where
  entries := [(["docusaurus.config.js".toList], .file (encode t.text))]

/-- **A title with blanks around it.** -/
def paddedTitle : Titled := settingsTitled "  Acme Docs ".toList (by decide) (by decide) (by decide)

theorem projectName_titled_paddedTitle :
    (siteOfSettings paddedTitle).seekFile ((Path.word ".").child "docusaurus.config.js".toList) =
        .ok (some (encode paddedTitle.text)) ∧
      projectName (siteOfSettings paddedTitle) (.word ".") = .ok (some "Acme Docs".toList) := by
  have hread : (siteOfSettings paddedTitle).seekFile ((Path.word ".").child "docusaurus.config.js".toList) =
      .ok (some (encode paddedTitle.text)) := by decide +kernel
  have htrim : Text.trim paddedTitle.name = "Acme Docs".toList := by decide
  exact ⟨hread, htrim ▸ (projectName_titled paddedTitle hread).2.2 (by decide)⟩

/-- **A title with an apostrophe** after its first letters. -/
def contractedTitle : Titled := settingsTitled "It's Docs".toList (by decide) (by decide) (by decide)

/-- **A title that begins with a quotation mark** of the other kind. -/
def quotingTitle : Titled := settingsTitled "'Acme' docs".toList (by decide) (by decide) (by decide)

/-- **An apostrophe ends a title** between double quotes: what stands before it is taken for the name, or nothing is. -/
theorem apostrophe_ends_name :
    ((siteOfSettings contractedTitle).seekFile ((Path.word ".").child "docusaurus.config.js".toList) =
        .ok (some (encode contractedTitle.text)) ∧ Text.trim contractedTitle.name = "It's Docs".toList ∧
      projectName (siteOfSettings contractedTitle) (.word ".") = .ok (some "It".toList)) ∧
    (siteOfSettings quotingTitle).seekFile ((Path.word ".").child "docusaurus.config.js".toList) =
        .ok (some (encode quotingTitle.text)) ∧ Text.trim quotingTitle.name = "'Acme' docs".toList ∧
      projectName (siteOfSettings quotingTitle) (.word ".") = .ok none := by
  decide +kernel

end DocFerry.Site
