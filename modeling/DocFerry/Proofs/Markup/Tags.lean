import Mathlib.Data.List.TakeWhile
import DocFerry.Proofs.Markup.Admonitions
import DocFerry.Proofs.Markup.Items
import DocFerry.Markup.Convert
/-!
# Plain text and tags, conversion by conversion

What the conversions but that of admonitions do to a line of a page.  Dropping imports keeps a line that is none
(`rewrites_stripPlatformImports`), every other conversion needs the beginning of what it looks for (`Needs`) and keeps a
piece clear of that (`Clear.rewrites`), and the tags of tabs become those of their component (`rewrites_openPane`).
-/
namespace DocFerry.Markup

open Text

/-! ## Imports -/

theorem import?_eq_none {wanted : Text → Bool} {s : Text} (h : ¬ "import".toList <+: s) : import? wanted s = none := by
  rw [import?, after?_eq_none_iff.2 h]
  rfl

theorem dropImportsFrom_line (wanted : Text → Bool) (rest : Text) : ∀ {line : Text}, '\n' ∉ line →
    dropImportsFrom wanted 0 false (line ++ '\n' :: rest) = line ++ '\n' :: dropImportsFrom wanted 0 true rest
  | [], _ => rfl
  | c :: line, h => by
    rw [List.mem_cons, not_or] at h
    have hc : (c == '\n') = false := by simpa using fun e => h.1 e.symm
    rw [List.cons_append, dropImportsFrom, hc, if_neg (by simp)]
    simp only [dropImportsFrom_line wanted rest h.2, List.cons_append]

/-- **A line that begins no import** is kept. -/
theorem rewrites_dropImports_of_none (wanted : Text → Bool) {line : Text} (hone : '\n' ∉ line)
    (hn : ∀ rest, import? wanted (line ++ '\n' :: rest) = none) :
    Rewrites (dropImports wanted) (line ++ ['\n']) (line ++ ['\n']) := by
  intro rest
  have hn := hn rest
  have hline : line ++ ['\n'] ++ rest = line ++ '\n' :: rest := by simp
  rw [hline]
  unfold dropImports
  cases line with
  | nil =>
    rw [List.nil_append] at hn ⊢
    rw [dropImportsFrom, if_pos rfl, hn]
    rfl
  | cons c line =>
    rw [List.mem_cons, not_or] at hone
    have hc : (c == '\n') = false := by simpa using fun e => hone.1 e.symm
    rw [List.cons_append] at hn ⊢
    rw [dropImportsFrom, if_pos rfl, hn, hc]
    simp [dropImportsFrom_line wanted rest hone.2]

/-- **A line that does not begin like an import** is kept. -/
theorem rewrites_dropImports (wanted : Text → Bool) {line : Text} (hone : '\n' ∉ line)
    (h : ¬ "import".toList <+: line) :
    Rewrites (dropImports wanted) (line ++ ['\n']) (line ++ ['\n']) :=
  rewrites_dropImports_of_none wanted hone fun _ => (import?_eq_none fun hk => h (start_of_start_append (by decide) hk))

theorem dropImportsFrom_last (wanted : Text → Bool) : ∀ {line : Text}, '\n' ∉ line →
    dropImportsFrom wanted 0 false line = line
  | [], _ => rfl
  | c :: line, h => by
    rw [List.mem_cons, not_or] at h
    have hc : (c == '\n') = false := by simpa using fun e => h.1 e.symm
    rw [dropImportsFrom, hc, if_neg (by simp)]
    simp only [dropImportsFrom_last wanted h.2]

/-- **Lines that do not begin like an import** are kept, the last one with them. -/
theorem dropImports_unlines (wanted : Text → Bool) : ∀ {ls : List Text},
    (∀ line ∈ ls, '\n' ∉ line ∧ ¬ "import".toList <+: line) → dropImports wanted (unlines ls) = unlines ls
  | [], _ => rfl
  | [[]], _ => rfl
  | [c :: line], h => by
    obtain ⟨hone, himport⟩ := h (c :: line) List.mem_cons_self
    rw [List.mem_cons, not_or] at hone
    have hc : (c == '\n') = false := by simpa using fun e => hone.1 e.symm
    rw [unlines, join, dropImports, dropImportsFrom, if_pos rfl, import?_eq_none himport, hc]
    simp only [dropImportsFrom_last wanted hone.2]
  | line :: next :: ls, h => by
    obtain ⟨hone, himport⟩ := h line List.mem_cons_self
    have hkept := rewrites_dropImports wanted hone himport
    rw [unlines_cons line (by simp), List.append_cons, hkept,
      dropImports_unlines wanted fun l hl => h l (List.mem_cons_of_mem line hl)]

theorem rewrites_stripPlatformImports {line : Text} (hone : '\n' ∉ line) (h : ¬ "import".toList <+: line) :
    Rewrites stripPlatformImports (line ++ ['\n']) (line ++ ['\n']) :=
  (rewrites_dropImports isPlatformModule hone h).comp (rewrites_dropImports isPartialModule hone h)

/-! ## What the matchers need -/

theorem needs_openTag (name : Text) (written : Text → Text) : Needs ('<' :: name) (openTag name written) :=
  needs_of_after fun s hs => by simp [openTag, openTag?, tagStart?, hs]

theorem needs_comment : Needs ('<' :: "!--".toList) fun t => (comment? t).map fun c => (expressionComment c.1, c.2) :=
  needs_of_after fun s hs => by simp only [comment?, show after? "<!--".toList s = none from hs]; rfl

theorem tagStart?_eq_none {name s : Text} (h : after? ('<' :: name) s = none) : tagStart? name s = none := by
  rw [tagStart?, h]

theorem needs_tagImage (shape : SourceShape) : Needs ('<' :: "img".toList) shape.tagImage :=
  needs_of_after fun s hs => by
    rw [SourceShape.tagImage, tagStart?_eq_none hs]
    rfl

theorem needs_linkedCard : Needs ('<' :: "Card".toList) linkedCard :=
  needs_of_after fun s hs => by
    rw [linkedCard, tagStart?_eq_none hs]
    rfl

theorem needs_markdownReference :
    Needs "![".toList fun t => (markdownReference? t).map fun r => (markdownImage r.1 r.2.1, r.2.2) :=
  needs_of_after fun s hs => by simp only [markdownReference?, hs]; rfl

theorem needs_bracketed :
    Needs ['<'] fun t => (bracketed? t).map fun b => ("&lt;".toList ++ b.1 ++ "&gt;".toList, b.2) :=
  needs_of_after fun s hs => by simp only [bracketed?, hs]; rfl

/-! ## Pieces that stay -/

/-- **A piece clear of some tags**: plain text, or one tag of another name. -/
def Clear (names : List Text) (s : Text) : Prop := '<' ∉ s ∨ Opens '<' s ∧ ∀ name ∈ names, Differ ('<' :: name) s

theorem Clear.rewrites {names : List Text} {s name : Text} {m : Matcher} (h : Clear names s) (hname : name ∈ names)
    (hm : Needs ('<' :: name) m) : Rewrites (substitute m) s s := by
  rcases h with h | ⟨hs, hd⟩
  · exact rewrites_of_not_mem hm h
  · exact rewrites_of_opens hm hs (hm.eq_none_of_differ (hd name hname))

theorem rewrites_paragraph {f : Text → Text} {s s' : Text} (hn : Rewrites f "\n\n".toList "\n\n".toList)
    (h : Rewrites f s s') : Rewrites f (paragraph s) (paragraph s') := (hn.append h).append hn

/-- **The tags that the conversion of tabs looks for.** -/
def tabNames : List Text := ["Tabs", "/Tabs>", "TabItem", "/TabItem>"].map String.toList

theorem rewrites_convertTabs {s : Text} (h : Clear tabNames s) : Rewrites convertTabs s s :=
  (((h.rewrites (by decide) (needs_openTag "Tabs".toList _)).comp
    (h.rewrites (by decide) (needs_literal "</Tabs>".toList _))).comp
    (h.rewrites (by decide) (needs_openTag "TabItem".toList _))).comp
    (h.rewrites (by decide) (needs_literal "</TabItem>".toList _))

/-! ## Tags of tabs -/

theorem Clear.paragraph {names : List Text} {s name : Text} {m : Matcher} (h : Clear names s) (hname : name ∈ names)
    (hm : Needs ('<' :: name) m) : Rewrites (substitute m) (paragraph s) (paragraph s) :=
  rewrites_paragraph (rewrites_of_not_mem hm (by decide)) (h.rewrites hname hm)

theorem rewrites_openTabs : Rewrites convertTabs "<Tabs>".toList (paragraph "<Tabs>".toList) := by
  have hclear : Clear (["/Tabs>", "TabItem", "/TabItem>"].map String.toList) "<Tabs>".toList :=
    .inr ⟨⟨by decide, by decide⟩, by decide⟩
  have hmatch : Rewrites (substitute (openTag "Tabs".toList fun _ => paragraph "<Tabs>".toList)) "<Tabs>".toList
      (paragraph "<Tabs>".toList) := rewrites_of_match (by decide) fun rest => rfl
  exact ((hmatch.comp (hclear.paragraph (by decide) (needs_literal "</Tabs>".toList _))).comp
    (hclear.paragraph (by decide) (needs_openTag "TabItem".toList _))).comp
    (hclear.paragraph (by decide) (needs_literal "</TabItem>".toList _))

theorem rewrites_closeTabs : Rewrites convertTabs "</Tabs>".toList (paragraph "</Tabs>".toList) := by
  have hclear : Clear (["Tabs", "TabItem", "/TabItem>"].map String.toList) "</Tabs>".toList :=
    .inr ⟨⟨by decide, by decide⟩, by decide⟩
  have hmatch : Rewrites (replaceAll "</Tabs>".toList (paragraph "</Tabs>".toList)) "</Tabs>".toList
      (paragraph "</Tabs>".toList) := rewrites_of_match (by decide) fun rest => rfl
  exact (((hclear.rewrites (by decide) (needs_openTag "Tabs".toList _)).comp hmatch).comp
    (hclear.paragraph (by decide) (needs_openTag "TabItem".toList _))).comp
    (hclear.paragraph (by decide) (needs_literal "</TabItem>".toList _))

theorem rewrites_closePane : Rewrites convertTabs "</TabItem>".toList (paragraph "</Tab>".toList) := by
  have hclear : Clear (["Tabs", "/Tabs>", "TabItem"].map String.toList) "</TabItem>".toList :=
    .inr ⟨⟨by decide, by decide⟩, by decide⟩
  have hmatch : Rewrites (replaceAll "</TabItem>".toList (paragraph "</Tab>".toList)) "</TabItem>".toList
      (paragraph "</Tab>".toList) := rewrites_of_match (by decide) fun rest => rfl
  exact (((hclear.rewrites (by decide) (needs_openTag "Tabs".toList _)).comp
    (hclear.rewrites (by decide) (needs_literal "</Tabs>".toList _))).comp
    (hclear.rewrites (by decide) (needs_openTag "TabItem".toList _))).comp hmatch

/-- **The opening tag of a tab.** -/
def tabTag (label : Text) : Text := "<Tab title=\"".toList ++ label ++ "\">".toList

theorem quotedRun?_append {s rest : Text} {mark : Char} (hne : s ≠ []) (hs : ∀ c ∈ s, isQuote c = false)
    (hm : isQuote mark = true) : quotedRun? (s ++ mark :: rest) = some (s, mark, rest) := by
  have hall : ∀ c ∈ s, (!isQuote c) = true := fun c hc => by simp [hs c hc]
  have htake : (s ++ mark :: rest).takeWhile (!isQuote ·) = s := by
    rw [List.takeWhile_append_of_pos hall, List.takeWhile_cons_of_neg (by simp [hm]), List.append_nil]
  have hdrop : (s ++ mark :: rest).dropWhile (!isQuote ·) = mark :: rest := by
    rw [List.dropWhile_append_of_pos hall, List.dropWhile_cons_of_neg (by simp [hm])]
  rw [quotedRun?, htake, hdrop]
  cases s with
  | nil => exact absurd rfl hne
  | cons c s => rfl

theorem quotedRun?_eq_some {s run rest : Text} {mark : Char} (h : quotedRun? s = some (run, mark, rest)) :
    s = run ++ mark :: rest ∧ run ≠ [] ∧ isQuote mark = true ∧ ∀ c ∈ run, isQuote c = false := by
  have hsplit := List.takeWhile_append_dropWhile (p := (!isQuote ·)) (l := s)
  have hrun : ∀ c ∈ s.takeWhile (!isQuote ·), isQuote c = false := fun c hc => by
    simpa using List.mem_takeWhile_imp hc
  have hmark := List.head?_dropWhile_not (!isQuote ·) s
  unfold quotedRun? at h
  split at h
  · rename_i c run' mark' rest' htake hdrop
    cases h
    rw [hdrop] at hmark hsplit
    exact ⟨hsplit.symm, by simp [htake], by simpa using hmark, hrun⟩
  · cases h

theorem quotedRun?_of_quote {mark : Char} (h : isQuote mark = true) (rest : Text) :
    quotedRun? (mark :: rest) = none := by
  simp [quotedRun?, h]

/-- **No label begins in a value** without an equals sign. -/
theorem label?_append (rest : Text) : ∀ {s : Text}, '=' ∉ s → label? (s ++ '"' :: rest) = label? rest
  | [], _ => rfl
  | c :: s, h => by
    have hn : ¬ "label=".toList <+: c :: (s ++ '"' :: rest) := fun hk =>
      h ((start_of_start_append (s := c :: s) (by decide) hk).subset (by decide))
    have hat : labelAt? (c :: (s ++ '"' :: rest)) = none := by
      rw [labelAt?, after?_eq_none_iff.2 hn]
      rfl
    rw [List.cons_append, label?, hat]
    exact label?_append rest fun hc => h (List.mem_cons_of_mem c hc)

theorem label?_of_quotedRun {s value more : Text} (h : quotedRun? s = some (value, '"', more)) :
    label? (" label=\"".toList ++ s) = some value := by
  have hat : labelAt? ("label=\"".toList ++ s) = (quotedRun? s).map (·.1) := rfl
  have hfirst : label? (" label=\"".toList ++ s) =
      (labelAt? ("label=\"".toList ++ s)).or (label? ("abel=\"".toList ++ s)) := rfl
  rw [hfirst, hat, h]
  rfl

/-- **The attributes of a tab item** with a value and a label. -/
def captions (value label : Text) : Text :=
  " value=\"".toList ++ (value ++ '"' :: (" label=\"".toList ++ (label ++ ['"'])))

/-- **The title of a tab** is its label. -/
theorem tabOpening_captions (value label : Caption) :
    tabOpening (captions value.text label.text) = paragraph (tabTag label.text) := by
  have hvalue : '=' ∉ value.text := value.not_mem (by decide)
  have hskip : ∀ s, label? (" value=\"".toList ++ s) = label? s := fun s => rfl
  have hrun := @quotedRun?_append label.text [] '"' label.nonempty (fun c hc => (label.clean c hc).1) (by decide)
  unfold captions
  rw [tabOpening, hskip, label?_append _ hvalue, label?_of_quotedRun hrun]
  rfl

theorem opens_tabTag {label : Text} (h : '<' ∉ label) : Opens '<' (tabTag label) := by
  refine ⟨rfl, ?_⟩
  show '<' ∉ "Tab title=\"".toList ++ label ++ "\">".toList
  rw [List.mem_append, List.mem_append, not_or, not_or]
  exact ⟨⟨by decide, h⟩, by decide⟩

/-- **The opening tag of a tab item** with its attributes as they are written. -/
def itemTag (attributes : Text) : Text := "<TabItem".toList ++ attributes ++ ['>']

theorem opens_itemTag {attributes : Text} (h : '<' ∉ attributes) : Opens '<' (itemTag attributes) := by
  refine ⟨rfl, ?_⟩
  show '<' ∉ "TabItem".toList ++ attributes ++ ['>']
  rw [List.mem_append, List.mem_append, not_or, not_or]
  exact ⟨⟨by decide, h⟩, by decide⟩

theorem tagStart?_append {name s : Text} (hne : s ≠ []) (hs : ∀ c ∈ s.head?, isWordChar c = false) :
    tagStart? name ('<' :: (name ++ s)) = some s := by
  rw [tagStart?, show after? ('<' :: name) ('<' :: (name ++ s)) = some s from after?_eq_some_iff.2 rfl]
  cases s with
  | nil => exact absurd rfl hne
  | cons c s => simp only [hs c rfl, Bool.false_eq_true, if_false]

theorem tagStart?_of_word {name s : Text} {c : Char} (hc : isWordChar c = true) :
    tagStart? name ('<' :: (name ++ c :: s)) = none := by
  rw [tagStart?, show after? ('<' :: name) ('<' :: (name ++ c :: s)) = some (c :: s) from after?_eq_some_iff.2 rfl]
  exact if_pos hc

theorem tagStart?_eq_some {name s inner : Text} (h : tagStart? name s = some inner) :
    s = '<' :: (name ++ inner) ∧ inner ≠ [] ∧ ∀ c ∈ inner.head?, isWordChar c = false := by
  unfold tagStart? at h
  split at h
  · rename_i c rest hafter
    split at h
    · cases h
    · rename_i hword
      cases h
      refine ⟨after?_eq_some_iff.1 hafter, List.cons_ne_nil c rest, ?_⟩
      simpa using hword
  · cases h

theorem openTag_itemTag {attributes : Text} (hs : ∀ c ∈ attributes.head?, isWordChar c = false) (he : '>' ∉ attributes)
    (rest : Text) :
    openTag "TabItem".toList tabOpening (itemTag attributes ++ rest) = some (tabOpening attributes, rest) := by
  have hassoc : itemTag attributes ++ rest = '<' :: ("TabItem".toList ++ (attributes ++ '>' :: rest)) := by
    unfold itemTag
    simp
  have hstart : ∀ c ∈ (attributes ++ '>' :: rest).head?, isWordChar c = false := by
    cases attributes with
    | nil => simpa using (by decide : isWordChar '>' = false)
    | cons a attributes => exact hs
  rw [hassoc, openTag, openTag?, tagStart?_append (by simp) hstart]
  show (tagEnd? _).map _ = _
  rw [tagEnd?, cutAt?_singleton '>' rest he]
  rfl

/-- **A label is within its attributes.** -/
theorem mem_of_label? {c : Char} {label : Text} (hc : c ∈ label) : ∀ {s : Text}, label? s = some label → c ∈ s
  | [], h => by cases h
  | a :: s, h => by
    rw [label?, Option.or_eq_some_iff] at h
    rcases h with h | ⟨-, h⟩
    · obtain ⟨⟨value, mark, more⟩, hrun, rfl⟩ := Option.map_eq_some_iff.1 h
      obtain ⟨inner, hinner, hrun⟩ := Option.bind_eq_some_iff.1 hrun
      obtain ⟨quoted, hquoted, hmark⟩ := Option.bind_eq_some_iff.1 hinner
      obtain ⟨opening, rfl, -⟩ := quote?_eq_some hmark
      rw [after?_eq_some_iff.1 hquoted]
      obtain ⟨rfl, -⟩ := quotedRun?_eq_some hrun
      exact List.mem_append_right _ (List.mem_cons_of_mem _ (List.mem_append_left _ hc))
    · exact List.mem_cons_of_mem a (mem_of_label? hc h)

/-- **The opening tag of a tab item becomes that of a tab.** -/
theorem rewrites_itemTag {attributes : Text} (hs : ∀ c ∈ attributes.head?, isWordChar c = false)
    (ho : '<' ∉ attributes) (he : '>' ∉ attributes) :
    Rewrites convertTabs (itemTag attributes) (tabOpening attributes) := by
  have hopens := opens_itemTag ho
  have hdiffer : ∀ name ∈ ["Tabs", "/Tabs>", "/TabItem>"].map String.toList,
      Differ ('<' :: name) "<TabItem".toList := by decide
  have hclear : Clear (["Tabs", "/Tabs>", "/TabItem>"].map String.toList) (itemTag attributes) :=
    .inr ⟨hopens, fun name hn => ((hdiffer name hn).append _).append _⟩
  have hlabel : '<' ∉ (label? attributes).getD "Tab".toList := by
    cases hlabel : label? attributes with
    | none => decide
    | some label => exact fun hc => ho (mem_of_label? hc hlabel)
  have hdiffer' : ∀ name ∈ ["/TabItem>"].map String.toList, Differ ('<' :: name) "<Tab title=\"".toList := by decide
  have hclear' : Clear (["/TabItem>"].map String.toList) (tabTag ((label? attributes).getD "Tab".toList)) :=
    .inr ⟨opens_tabTag hlabel, fun name hn => ((hdiffer' name hn).append _).append _⟩
  have hmatch : Rewrites (substitute (openTag "TabItem".toList tabOpening)) (itemTag attributes)
      (tabOpening attributes) :=
    rewrites_of_match (List.ne_nil_of_mem (List.mem_of_mem_head? hopens.head)) (openTag_itemTag hs he)
  exact (((hclear.rewrites (by decide) (needs_openTag "Tabs".toList _)).comp
    (hclear.rewrites (by decide) (needs_literal "</Tabs>".toList _))).comp hmatch).comp
    (hclear'.paragraph (by decide) (needs_literal "</TabItem>".toList _))

theorem tabItemTag_eq (value label : Text) : tabItemTag value label = itemTag (captions value label) := by
  unfold tabItemTag itemTag captions
  simp

theorem not_mem_captions (value label : Caption) {c : Char} (h : c ∈ "<>".toList) :
    c ∉ captions value.text label.text := by
  have hclean : ∀ c ∈ "<>".toList, c ∈ "<>[:=\n".toList := by decide
  have hplain : ∀ c ∈ "<>".toList, c ∉ " value=\"".toList ∧ c ≠ '"' ∧ c ∉ " label=\"".toList := by decide
  obtain ⟨hvalue, hquote, hlabel⟩ := hplain c h
  intro hc
  rcases List.mem_append.1 hc with hc | hc
  · exact hvalue hc
  rcases List.mem_append.1 hc with hc | hc
  · exact value.not_mem (hclean c h) hc
  rcases List.mem_append.1 ((List.mem_cons.1 hc).resolve_left hquote) with hc | hc
  · exact hlabel hc
  rcases List.mem_append.1 hc with hc | hc
  · exact label.not_mem (hclean c h) hc
  · exact hquote (List.mem_singleton.1 hc)

theorem opens_tabItemTag (value label : Caption) : Opens '<' (tabItemTag value.text label.text) := by
  rw [tabItemTag_eq]
  exact opens_itemTag (not_mem_captions value label (by decide))

theorem rewrites_openPane (value label : Caption) :
    Rewrites convertTabs (tabItemTag value.text label.text) (paragraph (tabTag label.text)) := by
  have hhead : ∀ c ∈ (captions value.text label.text).head?, isWordChar c = false := by
    rintro _ ⟨⟩
    decide
  rw [tabItemTag_eq, ← tabOpening_captions value label]
  exact rewrites_itemTag hhead (not_mem_captions value label (by decide)) (not_mem_captions value label (by decide))

end DocFerry.Markup
