import Mathlib.Data.List.TakeWhile
import DocFerry.Proofs.Markup.Tags
import DocFerry.Proofs.Text.Replacing
/-!
# Titles of tabs

The label of a tab item is looked for in its attributes as they are written: `label=` counts where a longer name ends
in it and inside a value, and an apostrophe ends the label like a quotation mark.  What is found is told attribute by
attribute (`spotted?`, `label?_source`).  The title is the attribute named `label`, if no attribute before it misleads
and it has no apostrophe (`rewrites_tabItem`), and may be another text otherwise (`mistaken_labels`).
-/
namespace DocFerry.Markup

open Text

/-! ## Attributes -/

/-- **An attribute of a tab item**, with its value between double quotes. -/
structure Attribute where
  name : Text
  value : Text
  named : ∀ c ∈ name, isAttributeChar c = true
  nonempty : value ≠ []
  clean : ∀ c ∈ value, c ∉ "\"<>".toList

def Attribute.source (a : Attribute) : Text := ' ' :: (a.name ++ '=' :: '"' :: (a.value ++ ['"']))

def attributesSource (attributes : List Attribute) : Text := attributes.flatMap Attribute.source

def labelName : Text := "label".toList

/-- **The attribute named `label`**: its value. -/
def labelOf? (attributes : List Attribute) : Option Text :=
  (attributes.find? (·.name = labelName)).map (·.value)

/-! ## What is found -/

/-- **A text up to its first apostrophe**, unless it begins with one. -/
def untilApostrophe? (s : Text) : Option Text := Option.guard (!·.isEmpty) (s.takeWhile (· != '\''))

/-- **What the closing quote of a value opens**, if it is taken for an opening quote. -/
def between? : List Attribute → Option Text
  | [] => none
  | next :: _ => some (' ' :: (next.name ++ ['=']))

/-- **A label inside a value**: at an apostrophe, or at the end of the value. -/
def labelWithin? (following : Option Text) : Text → Option Text
  | [] => none
  | c :: rest =>
    (match after? "label=".toList (c :: rest) with
      | some [] => following
      | some ('\'' :: more) => untilApostrophe? more
      | _ => none).or (labelWithin? following rest)

/-- **The label that is found** in the attributes of a tab item. -/
def spotted? : List Attribute → Option Text
  | [] => none
  | a :: rest =>
    (if labelName <:+ a.name then untilApostrophe? a.value else none).or
      ((labelWithin? (between? rest) a.value).or (spotted? rest))

/-! ## Runs -/

theorem quotedRun?_value {value : Text} (h : '"' ∉ value) (rest : Text) :
    (quotedRun? (value ++ '"' :: rest)).map (·.1) = untilApostrophe? value := by
  have hplain : ∀ c ∈ value.takeWhile (· != '\''), isQuote c = false := by
    intro c hc
    have happears := (List.takeWhile_prefix _).subset hc
    have hmark := List.mem_takeWhile_imp hc
    have hquote : c ≠ '"' := fun he => h (he ▸ happears)
    simp_all [isQuote]
  obtain ⟨mark, tail, hsplit, hmark⟩ : ∃ mark tail, value ++ '"' :: rest =
      value.takeWhile (· != '\'') ++ mark :: tail ∧ isQuote mark = true := by
    have hvalue := List.takeWhile_append_dropWhile (p := (· != '\'')) (l := value)
    cases hleft : value.dropWhile (· != '\'') with
    | nil =>
      rw [hleft, List.append_nil] at hvalue
      exact ⟨'"', rest, by rw [hvalue], rfl⟩
    | cons mark tail =>
      have hstop := List.head?_dropWhile_not (· != '\'') value
      rw [hleft] at hstop hvalue
      refine ⟨mark, tail ++ '"' :: rest, ?_, by simp_all [isQuote]⟩
      rw [← List.cons_append, ← List.append_assoc, hvalue]
  rw [hsplit, untilApostrophe?]
  cases hrun : value.takeWhile (· != '\'') with
  | nil =>
    rw [List.nil_append, quotedRun?_of_quote hmark]
    rfl
  | cons c run =>
    rw [hrun] at hplain
    rw [quotedRun?_append (List.cons_ne_nil c run) hplain hmark]
    rfl

theorem labelAt?_eq_none {s : Text} (h : ¬ "label=".toList <+: s) : labelAt? s = none := by
  rw [labelAt?, after?_eq_none_iff.2 h]
  rfl

theorem labelAt?_label (rest : Text) :
    labelAt? (labelName ++ '=' :: rest) = ((quote? rest).bind quotedRun?).map (·.1) := rfl

/-! ## Names -/

theorem start_of_label {name rest : Text} (h : '=' ∉ name) (hs : "label=".toList <+: name ++ '=' :: rest) :
    name = labelName := by
  obtain ⟨more, hmore⟩ := hs
  have hkey : "label=".toList ++ more = labelName ++ '=' :: more := rfl
  exact (eq_of_append_cons (by decide) h (hkey.symm.trans hmore)).1.symm

theorem label?_name (rest : Text) : ∀ {name : Text}, '=' ∉ name → label? (name ++ '=' :: rest) =
    (if labelName <:+ name then labelAt? (labelName ++ '=' :: rest) else none).or (label? rest)
  | [], _ => rfl
  | c :: name, h => by
    have hrest : '=' ∉ name := fun hm => h (List.mem_cons_of_mem c hm)
    rw [List.cons_append, label?, label?_name rest hrest]
    by_cases hname : c :: name = labelName
    · have hnot : ¬ labelName <:+ name := by
        intro hs
        have hlength := hs.length_le
        rw [← hname, List.length_cons] at hlength
        omega
      rw [if_neg hnot, if_pos (hname ▸ List.suffix_rfl), ← List.cons_append, hname]
      rfl
    · have hat : labelAt? (c :: (name ++ '=' :: rest)) = none :=
        labelAt?_eq_none fun hs => hname (start_of_label h hs)
      have hiff : labelName <:+ c :: name ↔ labelName <:+ name := by
        rw [List.suffix_cons_iff, or_iff_right (Ne.symm hname)]
      simp only [hat, Option.none_or, hiff]

/-! ## Values -/

theorem label?_value (rest : Text) : ∀ {value : Text}, '"' ∉ value → label? (value ++ '"' :: rest) =
    (labelWithin? ((quotedRun? rest).map (·.1)) value).or (label? rest)
  | [], _ => rfl
  | c :: value, h => by
    have hvalue : '"' ∉ value := fun hm => h (List.mem_cons_of_mem c hm)
    rw [List.cons_append, label?, label?_value rest hvalue, labelWithin?, Option.or_assoc]
    congr 1
    by_cases hs : "label=".toList <+: c :: value
    · obtain ⟨more, hmore⟩ := hs
      have hafter : after? "label=".toList (c :: value) = some more := after?_eq_some_iff.2 hmore.symm
      have hat : labelAt? (c :: (value ++ '"' :: rest)) =
          ((quote? (more ++ '"' :: rest)).bind quotedRun?).map (·.1) := by
        rw [← List.cons_append, ← hmore, List.append_assoc]
        rfl
      rw [hat, hafter]
      cases more with
      | nil => rfl
      | cons d more =>
        have hmem : ∀ a ∈ d :: more, a ∈ c :: value := fun a ha => hmore ▸ List.mem_append_right _ ha
        by_cases hd : d = '\''
        · subst hd
          exact quotedRun?_value (fun hm => h (hmem _ (List.mem_cons_of_mem _ hm))) rest
        · have hquote : isQuote d = false := by
            have hd' : d ≠ '"' := fun he => h (he ▸ hmem d List.mem_cons_self)
            simp [isQuote, hd, hd']
          rw [List.cons_append, quote?, hquote]
          simp [hd]
    · have hat : ¬ "label=".toList <+: c :: (value ++ '"' :: rest) := fun hk =>
        hs (start_of_start_append (s := c :: value) (by decide) hk)
      rw [labelAt?_eq_none hat, after?_eq_none_iff.2 hs]

/-! ## Attributes in a row -/

theorem isQuote_of_isAttributeChar {c : Char} (h : isAttributeChar c = true) : isQuote c = false := by
  have hmarks : ∀ c ∈ ['"', '\''], isAttributeChar c = false := by decide
  refine Bool.eq_false_iff.2 fun hc => ?_
  rw [hmarks c (by simpa [isQuote] using hc)] at h
  cases h

theorem attributesSource_cons (a : Attribute) (rest : List Attribute) : attributesSource (a :: rest) =
    ' ' :: (a.name ++ '=' :: '"' :: (a.value ++ '"' :: attributesSource rest)) := by
  simp [attributesSource, Attribute.source]

theorem quotedRun?_source (attributes : List Attribute) :
    (quotedRun? (attributesSource attributes)).map (·.1) = between? attributes := by
  cases attributes with
  | nil => rfl
  | cons next rest =>
    have hplain : ∀ c ∈ ' ' :: (next.name ++ ['=']), isQuote c = false := by
      intro c hc
      rcases List.mem_cons.1 hc with rfl | hc
      · rfl
      rcases List.mem_append.1 hc with hc | hc
      · exact isQuote_of_isAttributeChar (next.named c hc)
      · rw [List.mem_singleton.1 hc]
        rfl
    have hsource : attributesSource (next :: rest) =
        ' ' :: (next.name ++ ['=']) ++ '"' :: (next.value ++ '"' :: attributesSource rest) := by
      simp [attributesSource_cons]
    rw [hsource, quotedRun?_append (List.cons_ne_nil _ _) hplain rfl]
    rfl

/-- **The label is found attribute by attribute.** -/
theorem label?_source : ∀ (attributes : List Attribute), label? (attributesSource attributes) = spotted? attributes
  | [] => rfl
  | a :: rest => by
    have hname : '=' ∉ a.name := fun hm => absurd (a.named _ hm) (by decide)
    have hvalue : '"' ∉ a.value := fun hm => a.clean _ hm (by decide)
    have hspace : ∀ s, label? (' ' :: s) = label? s := fun s => rfl
    have hquote : ∀ s, label? ('"' :: s) = label? s := fun s => rfl
    have hrun : ((quote? ('"' :: (a.value ++ '"' :: attributesSource rest))).bind quotedRun?).map (·.1) =
        untilApostrophe? a.value := quotedRun?_value hvalue _
    rw [attributesSource_cons, hspace, label?_name _ hname, hquote, label?_value _ hvalue, quotedRun?_source,
      label?_source rest, spotted?, labelAt?_label, hrun]

theorem not_mem_attributesSource {c : Char} (hc : c ∈ "<>".toList) (attributes : List Attribute) :
    c ∉ attributesSource attributes := by
  have hplain : ∀ c ∈ "<>".toList, c ≠ ' ' ∧ isAttributeChar c = false ∧ c ≠ '=' ∧ c ≠ '"' ∧ c ∈ "\"<>".toList := by
    decide
  obtain ⟨hspace, hname, hequals, hquote, hvalue⟩ := hplain c hc
  intro hm
  obtain ⟨a, -, hm⟩ := List.mem_flatMap.1 hm
  simp only [Attribute.source, List.mem_cons, List.mem_append, List.not_mem_nil, or_false] at hm
  rcases hm with hm | hm | hm | hm | hm | hm
  · exact hspace hm
  · exact absurd (a.named c hm) (by simp [hname])
  · exact hequals hm
  · exact hquote hm
  · exact a.clean c hm hvalue
  · exact hquote hm

/-! ## The attribute named label -/

/-- **An attribute that may be taken for the label**, by its name or by its value. -/
def Attribute.Misleads (a : Attribute) : Prop := labelName <:+ a.name ∨ "label=".toList <:+: a.value

instance (a : Attribute) : Decidable a.Misleads := inferInstanceAs (Decidable (_ ∨ _))

theorem labelWithin?_eq_none (following : Option Text) : ∀ {value : Text}, ¬ "label=".toList <:+: value →
    labelWithin? following value = none
  | [], _ => rfl
  | c :: value, h => by
    rw [List.infix_cons_iff, not_or] at h
    rw [labelWithin?, after?_eq_none_iff.2 h.1, labelWithin?_eq_none following h.2]
    rfl

theorem untilApostrophe?_self {s : Text} (hne : s ≠ []) (h : '\'' ∉ s) : untilApostrophe? s = some s := by
  have hrun : s.takeWhile (· != '\'') = s := List.takeWhile_eq_self_iff.2 fun c hc => by
    simpa using fun he : c = '\'' => h (he ▸ hc)
  simp [untilApostrophe?, hrun, Option.guard, hne]

theorem spotted?_eq_labelOf? : ∀ {attributes : List Attribute},
    (∀ a ∈ attributes.takeWhile (·.name ≠ labelName), ¬ a.Misleads) →
      (∀ a ∈ attributes, a.name = labelName → '\'' ∉ a.value) → spotted? attributes = labelOf? attributes
  | [], _, _ => rfl
  | a :: rest, hbefore, hlabel => by
    by_cases hname : a.name = labelName
    · have hvalue := untilApostrophe?_self a.nonempty (hlabel a List.mem_cons_self hname)
      have hsuffix : labelName <:+ a.name := hname ▸ List.suffix_rfl
      rw [spotted?, if_pos hsuffix, hvalue, labelOf?, List.find?_cons_of_pos (by simpa using hname)]
      rfl
    · have htake : (a :: rest).takeWhile (·.name ≠ labelName) = a :: rest.takeWhile (·.name ≠ labelName) :=
        List.takeWhile_cons_of_pos (by simpa using hname)
      rw [htake] at hbefore
      obtain ⟨hsuffix, hwithin⟩ := not_or.1 (hbefore a List.mem_cons_self)
      have hrest := spotted?_eq_labelOf? (fun b hb => hbefore b (List.mem_cons_of_mem a hb)) fun b hb =>
        hlabel b (List.mem_cons_of_mem a hb)
      rw [spotted?, if_neg hsuffix, labelWithin?_eq_none _ hwithin, Option.none_or, Option.none_or, hrest, labelOf?,
        labelOf?, List.find?_cons_of_neg (by simpa using hname)]

/-- **A tab item becomes a tab with the title that is found in its attributes**, whatever follows it.  This is its
label, if no attribute before it misleads and it has no apostrophe. -/
theorem rewrites_tabItem (attributes : List Attribute) :
    Rewrites convertTabs (itemTag (attributesSource attributes))
        (paragraph (tabTag ((spotted? attributes).getD "Tab".toList))) ∧
      ((∀ a ∈ attributes.takeWhile (·.name ≠ labelName), ¬ a.Misleads) →
        (∀ a ∈ attributes, a.name = labelName → '\'' ∉ a.value) → spotted? attributes = labelOf? attributes) := by
  refine ⟨?_, spotted?_eq_labelOf?⟩
  have hhead : ∀ c ∈ (attributesSource attributes).head?, isWordChar c = false := by
    cases attributes with
    | nil => nofun
    | cons a rest =>
      rw [attributesSource_cons]
      rintro _ ⟨⟩
      decide
  have htag := rewrites_itemTag hhead (not_mem_attributesSource (by decide) attributes)
    (not_mem_attributesSource (by decide) attributes)
  have hopening : tabOpening (attributesSource attributes) =
      paragraph (tabTag ((label? (attributesSource attributes)).getD "Tab".toList)) := rfl
  rwa [hopening, label?_source] at htag

/-- The value and the label of a tab. -/
def webTab : List Attribute :=
  [⟨"value".toList, "web".toList, by decide, by decide, by decide⟩,
    ⟨"label".toList, "Web SDK".toList, by decide, by decide, by decide⟩]

theorem rewrites_tabItem_webTab :
    ((∀ a ∈ webTab.takeWhile (·.name ≠ labelName), ¬ a.Misleads) ∧
      (∀ a ∈ webTab, a.name = labelName → '\'' ∉ a.value)) ∧
      Rewrites convertTabs "<TabItem value=\"web\" label=\"Web SDK\">".toList
        (paragraph (tabTag "Web SDK".toList)) := by
  have hbefore : ∀ a ∈ webTab.takeWhile (·.name ≠ labelName), ¬ a.Misleads := by decide
  have hlabel : ∀ a ∈ webTab, a.name = labelName → '\'' ∉ a.value := by decide
  obtain ⟨htag, htitle⟩ := rewrites_tabItem webTab
  rw [htitle hbefore hlabel] at htag
  exact ⟨⟨hbefore, hlabel⟩, htag⟩

/-- **A tab misses its label**: it has one, and its title is another text. -/
def MissesLabel (attributes : List Attribute) (title : Text) : Prop :=
  (labelOf? attributes).isSome ∧ labelOf? attributes ≠ some title ∧
    convertTabs (itemTag (attributesSource attributes)) = paragraph (tabTag title)

instance (attributes : List Attribute) (title : Text) : Decidable (MissesLabel attributes title) :=
  inferInstanceAs (Decidable (_ ∧ _))

/-- **A tab may miss its label**: one with an apostrophe, or one behind a longer name or a value that holds another. -/
theorem mistaken_labels :
    MissesLabel [⟨"label".toList, "What's new".toList, by decide, by decide, by decide⟩] "What".toList ∧
    MissesLabel [⟨"data-label".toList, "x".toList, by decide, by decide, by decide⟩,
      ⟨"label".toList, "y".toList, by decide, by decide, by decide⟩] "x".toList ∧
    MissesLabel [⟨"title".toList, "label='x'".toList, by decide, by decide, by decide⟩,
      ⟨"label".toList, "y".toList, by decide, by decide, by decide⟩] "x".toList := by
  decide +kernel

end DocFerry.Markup
