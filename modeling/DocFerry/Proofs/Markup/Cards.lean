import DocFerry.Proofs.Markup.Attributes
import DocFerry.Proofs.Markup.Tags
import DocFerry.Proofs.Text.Replacing
/-!
# Cards and their destinations

A card has attributes, each behind blanks and with its value between double quotes, and one of them may be its
destination.  The conversion of cards makes that one a link behind a single blank, and keeps every other attribute, also
one whose name ends like that of a destination, and all text between the cards; but the end of a list of cards becomes
that of a group wherever it stands (`convertCards_text`), and so does the opening of one inside a value
(`cards_of_lists`).
-/
namespace DocFerry.Markup

open Text

/-! ## Documents with cards -/

/-- **The name of a card's destination.** -/
def destinationName : Text := "to".toList

/-- **An attribute of a card**, with the blanks in front of it and its value between double quotes. -/
structure CardAttribute where
  gap : Text
  name : Text
  value : Text
  spaced : gap ≠ []
  blank : ∀ c ∈ gap, isBlank c = true
  named : ∀ c ∈ name, isAttributeChar c = true
  nonempty : value ≠ []
  clean : ∀ c ∈ value, isQuote c = false ∧ c ≠ '>'
  noDestination : ¬ "to=".toList <:+: value
  /-- Where a list of cards seems to open, the name goes on. -/
  noList : ∀ t ∈ value.tails, ∀ rest ∈ after? "<CardList".toList t, rest.head?.any isWordChar = true

namespace CardAttribute

def source (a : CardAttribute) : Text := a.gap ++ a.name ++ "=\"".toList ++ a.value ++ ['"']

/-- **The attribute after the conversion**: a destination is a link, and any other as it was. -/
def translation (a : CardAttribute) : Text :=
  if a.name = destinationName then " href=\"".toList ++ a.value ++ ['"'] else a.source

end CardAttribute

/-- **The tag of a card**, with at most one destination. -/
structure CardTag where
  attributes : List CardAttribute
  /-- The blanks behind the attributes. -/
  gap : Text
  /-- A slash stands in front of the end of the tag. -/
  closed : Bool
  single : (attributes.filter (·.name = destinationName)).length ≤ 1
  blank : ∀ c ∈ gap, isBlank c = true

namespace CardTag

/-- **What stands between the attributes and the end** of the tag. -/
def close (t : CardTag) : Text := t.gap ++ if t.closed then ['/'] else []

def source (t : CardTag) : Text :=
  "<Card".toList ++ t.attributes.flatMap CardAttribute.source ++ t.close ++ ['>']

def translation (t : CardTag) : Text :=
  "<Card".toList ++ t.attributes.flatMap CardAttribute.translation ++ t.close ++ ['>']

end CardTag

/-- **What a document of cards has between its texts**: cards, and ends of lists of cards. -/
inductive CardPiece where
  | card (tag : CardTag)
  | listEnd

namespace CardPiece

def source : CardPiece → Text
  | .card t => t.source
  | .listEnd => "</CardList>".toList

def translation : CardPiece → Text
  | .card t => t.translation
  | .listEnd => "</CardGroup>".toList

end CardPiece

/-- **A document with cards** and text between them. -/
abbrev CardDocument := Interspersed CardPiece ["<Card".toList, "</CardList>".toList]

/-! ## Attributes -/

theorem destination?_eq_none {s : Text} (h : ¬ "to=".toList <+: s) : destination? s = none := by
  rw [destination?, after?_eq_none_iff.2 h]
  rfl

namespace CardAttribute

variable (a : CardAttribute)

theorem source_eq : a.source = a.gap ++ (a.name ++ ('=' :: '"' :: a.value ++ ['"'])) := by
  have hmid : "=\"".toList = ['=', '"'] := by decide
  simp only [source, hmid, List.append_assoc, List.cons_append, List.nil_append]

theorem source_of_destination (h : a.name = destinationName) :
    a.source = a.gap ++ ("to=".toList ++ '"' :: (a.value ++ ['"'])) := by
  rw [source_eq, h]
  rfl

theorem not_mem_source {c : Char} (hblank : isBlank c = false) (hname : isAttributeChar c = false) (hequals : c ≠ '=')
    (hquote : c ≠ '"') (hvalue : c ∉ a.value) : c ∉ a.source := by
  rw [source_eq]
  simp only [List.mem_append, List.mem_cons, List.not_mem_nil, not_or, or_false]
  exact ⟨not_mem_of_blank a.blank hblank, fun hm => by simp [a.named c hm] at hname, ⟨hequals, hquote, hvalue⟩, hquote⟩

theorem end_not_mem_source : '>' ∉ a.source :=
  a.not_mem_source (by decide) (by decide) (by decide) (by decide) fun hm => (a.clean _ hm).2 rfl

theorem silent_gap (rest : Text) : Silent destination? a.gap rest :=
  silent_of_not_mem (fun _ => destination?_eq_none) (a := 't') (by decide) (not_mem_of_blank a.blank (by decide)) rest

/-- **No destination is found** in an attribute of another name. -/
theorem unanswered (hname : a.name ≠ destinationName) (rest : Text) (previous : Char) :
    Unanswered destination? rest previous a.source := by
  have hvalue : Silent destination? ('=' :: '"' :: a.value ++ ['"']) rest := by
    refine silent_of_not_within (fun _ => destination?_eq_none) (by decide) (fun h => ?_) rest
    rw [List.infix_cons_iff, List.infix_cons_iff] at h
    rcases h with h | h | h
    · exact absurd (List.cons_prefix_cons.1 h).1 (by decide)
    · exact absurd (List.cons_prefix_cons.1 h).1 (by decide)
    · exact a.noDestination h
  rw [source_eq]
  refine unanswered_append.2 ⟨(a.silent_gap _).unanswered _, unanswered_append.2 ⟨?_, hvalue.unanswered _⟩⟩
  cases hn : a.name with
  | nil => trivial
  | cons c name =>
    have hnamed : ∀ b ∈ c :: name, isAttributeChar b = true := hn ▸ a.named
    refine ⟨fun _ => destination?_eq_none fun hk => hname ?_,
      unanswered_of_name (hnamed c List.mem_cons_self) fun b hb => hnamed b (List.mem_cons_of_mem c hb)⟩
    obtain ⟨more, hmore⟩ := hk
    have hequals : '=' ∉ c :: name := fun hm => absurd (hnamed _ hm) (by decide)
    exact hn.trans (eq_of_append_cons (by decide) hequals hmore).1.symm

/-- **An attribute is kept** where lists of cards are opened. -/
theorem rewrites_listOpening (written : Text → Text) :
    Rewrites (substitute (openTag "CardList".toList written)) a.source a.source := by
  have hneeds := needs_openTag "CardList".toList written
  have hfront : Rewrites (substitute (openTag "CardList".toList written)) (a.gap ++ a.name ++ "=\"".toList)
      (a.gap ++ a.name ++ "=\"".toList) := by
    refine rewrites_of_not_mem hneeds ?_
    simp only [List.mem_append, not_or]
    exact ⟨⟨not_mem_of_blank a.blank (by decide), fun hm => absurd (a.named _ hm) (by decide)⟩, by decide⟩
  -- In the value no list of cards opens, as the name goes on, and no quotation mark is in the key.
  have hvalue : Rewrites (substitute (openTag "CardList".toList written)) (a.value ++ ['"']) (a.value ++ ['"']) := by
    refine rewrites_of_no_match fun t ht hne rest => ?_
    obtain ⟨u, rfl, hu⟩ := (List.suffix_concat_iff.1 ht).resolve_left hne
    rw [List.append_assoc, List.singleton_append]
    by_cases hk : '<' :: "CardList".toList <+: u ++ '"' :: rest
    · obtain ⟨more, rfl⟩ := start_of_start_append (by decide) hk
      have hgoes := a.noList _ ((List.mem_tails _ _).2 hu) more (after?_eq_some_iff.2 rfl)
      obtain ⟨c, more, rfl⟩ : ∃ c tail, more = c :: tail := List.exists_cons_of_ne_nil fun hm => by simp [hm] at hgoes
      have hword : isWordChar c = true := by simpa using hgoes
      rw [List.append_assoc, List.cons_append, List.cons_append, openTag, openTag?, tagStart?_of_word hword]
      rfl
    · exact hneeds.eq_none hk
  rw [source, List.append_assoc _ a.value]
  exact hfront.append hvalue

/-- **An attribute is kept** where lists of cards end. -/
theorem rewrites_listEnd (written : Text) :
    Rewrites (replaceAll "</CardList>".toList written) a.source a.source :=
  rewrites_of_not_within (needs_literal _ _) (by decide) (by decide) fun h =>
    a.end_not_mem_source (List.mem_append_left _ (h.subset (by decide)))

end CardAttribute

/-! ## Destinations -/

/-- **A destination is read** from its name to the end of its tag. -/
theorem destination?_append {value attributes : Text} (hne : value ≠ []) (hv : ∀ c ∈ value, isQuote c = false)
    (he : '>' ∉ attributes) (rest : Text) :
    destination? ("to=".toList ++ '"' :: (value ++ '"' :: (attributes ++ '>' :: rest))) =
      some ⟨'"' :: value ++ ['"'], attributes, rest⟩ := by
  have hafter : ∀ s, after? "to=".toList ("to=".toList ++ s) = some s := fun s => after?_eq_some_iff.2 rfl
  have hquote : ∀ s, quote? ('"' :: s) = some s := fun s => rfl
  have hrun := @quotedRun?_append value (attributes ++ '>' :: rest) '"' hne hv (by decide)
  rw [destination?, hafter]
  simp only [Option.bind_eq_bind, Option.bind_some, List.head?_cons, hquote, hrun, tagEnd?,
    cutAt?_singleton '>' rest he]

/-- **No card with a destination** opens where none is found up to the end of the tag. -/
theorem linkedCard_eq_none {s rest : Text} (hend : '>' ∉ s) (h : Unanswered destination? rest 'd' (s ++ ['>'])) :
    linkedCard ("<Card".toList ++ (s ++ '>' :: rest)) = none := by
  rw [linkedCard]
  cases hstart : tagStart? "Card".toList ("<Card".toList ++ (s ++ '>' :: rest)) with
  | none => rfl
  | some inner =>
    obtain ⟨he, -, -⟩ := tagStart?_eq_some hstart
    obtain rfl := List.append_cancel_left (show "<Card".toList ++ _ = "<Card".toList ++ inner from he)
    rw [Option.bind_eq_bind, Option.bind_some, seekAttribute_eq_none_of_unanswered hend h]
    rfl

section Attributes

variable {attributes : List CardAttribute}

theorem end_not_mem_attributes : '>' ∉ attributes.flatMap CardAttribute.source := fun hm => by
  obtain ⟨a, -, ha⟩ := List.mem_flatMap.1 hm
  exact a.end_not_mem_source ha

/-- **No destination is found** in attributes of other names. -/
theorem unanswered_attributes : ∀ {attributes : List CardAttribute}, (∀ a ∈ attributes, a.name ≠ destinationName) →
    ∀ rest previous, Unanswered destination? rest previous (attributes.flatMap CardAttribute.source)
  | [], _, _, _ => trivial
  | a :: _, h, rest, previous =>
    unanswered_append.2 ⟨a.unanswered (h a List.mem_cons_self) _ previous,
      unanswered_attributes (fun b hb => h b (List.mem_cons_of_mem a hb)) rest _⟩

/-- **A destination is found** behind attributes of other names. -/
theorem seekAttribute_destination (h : ∀ b ∈ attributes, b.name ≠ destinationName) {a : CardAttribute}
    (hname : a.name = destinationName) {behind : Text} (hbehind : '>' ∉ behind) (rest : Text) :
    seekAttribute destination? 'd' (attributes.flatMap CardAttribute.source ++ (a.source ++ (behind ++ '>' :: rest))) =
      some (attributes.flatMap CardAttribute.source ++ a.gap, ⟨'"' :: a.value ++ ['"'], behind, rest⟩) := by
  let front := attributes.flatMap CardAttribute.source ++ a.gap
  let found := "to=".toList ++ '"' :: (a.value ++ '"' :: (behind ++ '>' :: rest))
  have hsource : attributes.flatMap CardAttribute.source ++ (a.source ++ (behind ++ '>' :: rest)) = front ++ found := by
    simp only [a.source_of_destination hname, front, found, List.append_assoc, List.cons_append, List.nil_append]
  have hend : '>' ∉ front := by
    rw [List.mem_append, not_or]
    exact ⟨end_not_mem_attributes, not_mem_of_blank a.blank (by decide)⟩
  have hunanswered : Unanswered destination? found 'd' front :=
    unanswered_append.2 ⟨unanswered_attributes h _ _, (a.silent_gap _).unanswered _⟩
  have hlast : isAttributeChar (front.getLast?.getD 'd') = false := by
    rw [List.getLast?_append_of_ne_nil _ a.spaced, List.getLast?_eq_getLast_of_ne_nil a.spaced, Option.getD_some]
    exact isAttributeChar_of_isBlank (a.blank _ (List.getLast_mem a.spaced))
  have hfound : destination? found = some ⟨'"' :: a.value ++ ['"'], behind, rest⟩ :=
    destination?_append a.nonempty (fun c hc => (a.clean c hc).1) hbehind rest
  rw [hsource, seekAttribute_past hend hunanswered, seekAttribute_here (by simp [found]) hlast hfound, Option.map_some,
    List.append_nil]

theorem translation_of_no_destination (h : ∀ a ∈ attributes, a.name ≠ destinationName) :
    attributes.flatMap CardAttribute.translation = attributes.flatMap CardAttribute.source :=
  List.flatMap_congr fun a ha => if_neg (h a ha)

/-- **Attributes end with a quotation mark**, so trimming keeps them. -/
theorem trimEnd_attributes : trimEnd (attributes.flatMap CardAttribute.source) =
    attributes.flatMap CardAttribute.source := by
  refine trimEnd_of_last ?_
  rcases List.eq_nil_or_concat attributes with rfl | ⟨before, a, rfl⟩
  · nofun
  · rw [List.concat_eq_append, List.flatMap_append, List.flatMap_singleton, CardAttribute.source, ← List.append_assoc,
      List.getLast?_concat]
    rintro _ ⟨⟩
    decide

end Attributes

/-! ## Tags -/

namespace CardTag

variable (t : CardTag)

/-- **What stands behind the name** of a tag. -/
def body : Text := t.attributes.flatMap CardAttribute.source ++ t.close ++ ['>']

theorem source_eq : t.source = '<' :: ("Card".toList ++ t.body) := by
  unfold source body
  simp only [List.append_assoc]
  rfl

theorem not_mem_close {c : Char} (hblank : isBlank c = false) (hslash : c ≠ '/') : c ∉ t.close := by
  rw [close, List.mem_append, not_or]
  refine ⟨not_mem_of_blank t.blank hblank, ?_⟩
  split <;> simp [hslash]

/-- **The name of a tag ends** where its attributes begin. -/
theorem head_body : ∀ c ∈ t.body.head?, isWordChar c = false := by
  have hgap : ∀ gap rest : Text, (∀ c ∈ gap, isBlank c = true) → (∀ c ∈ rest.head?, isWordChar c = false) →
      ∀ c ∈ (gap ++ rest).head?, isWordChar c = false := by
    intro gap rest hb hr c hc
    cases gap with
    | nil => exact hr c hc
    | cons b gap =>
      obtain rfl : b = c := by simpa using hc
      exact isWordChar_of_isBlank (hb b List.mem_cons_self)
  rw [body]
  cases ha : t.attributes with
  | nil =>
    rw [List.flatMap_nil, List.nil_append, close, List.append_assoc]
    refine hgap t.gap _ t.blank ?_
    cases t.closed <;> (rintro _ ⟨⟩; decide)
  | cons a attributes =>
    obtain ⟨b, gap, hb⟩ := List.exists_cons_of_ne_nil a.spaced
    rw [List.flatMap_cons, CardAttribute.source, hb]
    rintro _ ⟨⟩
    exact isWordChar_of_isBlank (a.blank b (hb ▸ List.mem_cons_self))

/-- **The end of a tag is kept** by a matcher of tags. -/
theorem rewrites_end {name : Text} {m : Matcher} (hm : Needs ('<' :: name) m) :
    Rewrites (substitute m) (t.close ++ ['>']) (t.close ++ ['>']) := by
  refine rewrites_of_not_mem hm ?_
  rw [List.mem_append, not_or]
  exact ⟨t.not_mem_close (by decide) (by decide), by decide⟩

/-- **A tag is kept** where lists of cards are opened. -/
theorem rewrites_listOpening (written : Text → Text) :
    Rewrites (substitute (openTag "CardList".toList written)) t.source t.source := by
  have hneeds := needs_openTag "CardList".toList written
  have hattributes := Rewrites.flatMap (fun a : CardAttribute => a.rewrites_listOpening written) t.attributes
  have hname : Rewrites (substitute (openTag "CardList".toList written)) "Card".toList "Card".toList :=
    rewrites_of_not_mem hneeds (by decide)
  have hbody := hname.append (hattributes.append (t.rewrites_end hneeds))
  rw [← List.append_assoc _ t.close] at hbody
  rw [source_eq]
  refine rewrites_cons (fun rest => hneeds.eq_none fun hk => ?_) hbody
  -- The name goes no further than that of a card.
  have hlist : "List".toList <+: t.body ++ rest :=
    (List.prefix_append_right_inj "<Card".toList).1 (List.append_assoc "<Card".toList t.body rest ▸ hk)
  obtain ⟨c, body, hb⟩ : ∃ c tail, t.body = c :: tail := List.exists_cons_of_ne_nil (by simp [body])
  have hword := t.head_body c (by rw [hb]; rfl)
  rw [hb] at hlist
  rw [← (List.cons_prefix_cons.1 hlist).1] at hword
  exact absurd hword (by decide)

/-- **A tag is kept** where lists of cards end. -/
theorem rewrites_listEnd (written : Text) :
    Rewrites (replaceAll "</CardList>".toList written) t.source t.source := by
  have hneeds : Needs ('<' :: "/CardList>".toList) (literal "</CardList>".toList written) := needs_literal _ _
  have hdiffer : Differ "</CardList>".toList "<Card".toList := by decide
  have hname : Rewrites (replaceAll "</CardList>".toList written) "<Card".toList "<Card".toList :=
    rewrites_of_opens hneeds ⟨rfl, by decide⟩ (hneeds.eq_none_of_differ hdiffer)
  have hattributes := Rewrites.flatMap (fun a : CardAttribute => a.rewrites_listEnd written) t.attributes
  unfold source
  rw [List.append_assoc _ t.close]
  exact (hname.append hattributes).append (t.rewrites_end hneeds)

theorem unanswered_body (h : ∀ a ∈ t.attributes, a.name ≠ destinationName) (rest : Text) :
    Unanswered destination? rest 'd' t.body := by
  have hclose : Silent destination? (t.close ++ ['>']) rest := by
    refine silent_of_not_mem (fun _ => destination?_eq_none) (a := 't') (by decide) ?_ rest
    rw [List.mem_append, not_or]
    exact ⟨t.not_mem_close (by decide) (by decide), by decide⟩
  rw [body, List.append_assoc]
  exact unanswered_append.2 ⟨unanswered_attributes h _ _, hclose.unanswered _⟩

/-- **A card without a destination** is kept. -/
theorem rewrites_plain (h : ∀ a ∈ t.attributes, a.name ≠ destinationName) :
    Rewrites (substitute linkedCard) t.source t.source := by
  let inside := t.attributes.flatMap CardAttribute.source ++ t.close
  have hend : '>' ∉ inside := by
    rw [List.mem_append, not_or]
    exact ⟨end_not_mem_attributes, t.not_mem_close (by decide) (by decide)⟩
  have hsource : t.source = "<Card".toList ++ inside ++ ['>'] := by
    unfold source
    simp only [inside, List.append_assoc]
  rw [hsource]
  -- A value may hold the opening of a card: from there too, the seeking goes on to the end of the tag.
  refine rewrites_of_no_match fun s hs hne rest => ?_
  obtain ⟨u, rfl, hu⟩ := (List.suffix_concat_iff.1 hs).resolve_left hne
  rw [List.append_assoc, List.singleton_append]
  by_cases hk : "<Card".toList <+: u ++ '>' :: rest
  · obtain ⟨v, rfl⟩ := start_of_start_append (by decide) hk
    obtain ⟨w, hw⟩ := suffix_of_append_suffix_append hu
    have hbody : Unanswered destination? rest 'd' (w ++ (v ++ ['>'])) := by
      rw [← List.append_assoc, hw]
      exact t.unanswered_body h rest
    have hv : '>' ∉ v := fun hm => hend (hw ▸ List.mem_append_right w hm)
    rw [List.append_assoc]
    exact linkedCard_eq_none hv ((unanswered_append.1 hbody).2.behind (by decide))
  · exact needs_linkedCard.eq_none hk

/-- **The attributes of a card with a destination**, in front of it and behind it. -/
theorem exists_destination (h : ∃ a ∈ t.attributes, a.name = destinationName) :
    ∃ before a after, t.attributes = before ++ a :: after ∧ a.name = destinationName ∧
      (∀ b ∈ before, b.name ≠ destinationName) ∧ ∀ b ∈ after, b.name ≠ destinationName := by
  obtain ⟨a, ha, hname⟩ := h
  obtain ⟨before, after, hsplit⟩ := List.append_of_mem ha
  have hlength := t.single
  rw [hsplit, List.filter_append, List.filter_cons_of_pos (by simp [hname]), List.length_append,
    List.length_cons] at hlength
  have hothers : ∀ {bs : List CardAttribute}, (bs.filter (·.name = destinationName)).length = 0 →
      ∀ b ∈ bs, b.name ≠ destinationName := fun hbs b hb hn => by
    simpa [hn] using List.filter_eq_nil_iff.1 (List.eq_nil_of_length_eq_zero hbs) b hb
  exact ⟨before, a, after, hsplit, hname, hothers (by omega), hothers (by omega)⟩

/-- **A card with a destination** gets a link in its place. -/
theorem rewrites_linked (h : ∃ a ∈ t.attributes, a.name = destinationName) :
    Rewrites (substitute linkedCard) t.source t.translation := by
  obtain ⟨before, a, after, hsplit, hname, hbefore, hafter⟩ := t.exists_destination h
  let front := before.flatMap CardAttribute.source
  let behind := after.flatMap CardAttribute.source ++ t.close
  have hbehind : '>' ∉ behind := by
    rw [List.mem_append, not_or]
    exact ⟨end_not_mem_attributes, t.not_mem_close (by decide) (by decide)⟩
  have hwritten : t.translation =
      "<Card".toList ++ front ++ " href=".toList ++ ('"' :: a.value ++ ['"']) ++ behind ++ ['>'] := by
    have hlink : " href=\"".toList = " href=".toList ++ ['"'] := by decide
    unfold translation
    simp only [hsplit, List.flatMap_append, List.flatMap_cons, translation_of_no_destination hbefore,
      translation_of_no_destination hafter, CardAttribute.translation, if_pos hname, hlink, List.append_assoc,
      List.cons_append, List.nil_append, front, behind]
  refine rewrites_of_match (by simp [source_eq]) fun rest => ?_
  have hbody : t.body ++ rest = front ++ (a.source ++ (behind ++ '>' :: rest)) := by
    simp only [body, hsplit, List.flatMap_append, List.flatMap_cons, List.append_assoc, List.cons_append,
      List.nil_append, front, behind]
  have hstart : tagStart? "Card".toList (t.source ++ rest) = some (t.body ++ rest) := by
    have hhead : ∀ c ∈ (t.body ++ rest).head?, isWordChar c = false := by
      rw [List.head?_append_of_ne_nil t.body (by simp [body])]
      exact t.head_body
    rw [source_eq, List.cons_append, List.append_assoc]
    exact tagStart?_append (by simp [body]) hhead
  simp only [linkedCard, hstart, Option.bind_eq_bind, Option.bind_some]
  rw [hbody, seekAttribute_destination hbefore hname hbehind, Option.bind_some, trimEnd_append_of_blank a.blank,
    trimEnd_attributes, hwritten]

theorem rewrites_linkedCard : Rewrites (substitute linkedCard) t.source t.translation := by
  by_cases h : ∃ a ∈ t.attributes, a.name = destinationName
  · exact t.rewrites_linked h
  · have hnone : ∀ a ∈ t.attributes, a.name ≠ destinationName := fun a ha hname => h ⟨a, ha, hname⟩
    have hkept : t.translation = t.source := by
      unfold translation source
      rw [translation_of_no_destination hnone]
    rw [hkept]
    exact t.rewrites_plain hnone

end CardTag

/-! ## Documents -/

namespace CardPiece

/-- **A piece once the lists of cards are groups.** -/
def grouped : CardPiece → Text
  | .card t => t.source
  | .listEnd => "</CardGroup>".toList

variable (p : CardPiece)

theorem head_source : p.source.head? = some '<' := by
  cases p <;> rfl

theorem head_grouped : p.grouped.head? = some '<' := by
  cases p <;> rfl

theorem rewrites_listOpening (written : Text → Text) :
    Rewrites (substitute (openTag "CardList".toList written)) p.source p.source := by
  cases p with
  | card t => exact t.rewrites_listOpening written
  | listEnd =>
    have hclear : Clear ["CardList".toList] "</CardList>".toList := .inr ⟨⟨rfl, by decide⟩, by decide⟩
    exact hclear.rewrites (by decide) (needs_openTag _ _)

theorem rewrites_listEnd : Rewrites (replaceAll "</CardList>".toList "</CardGroup>".toList) p.source p.grouped := by
  cases p with
  | card t => exact t.rewrites_listEnd _
  | listEnd => exact rewrites_of_match (by decide) fun rest => rfl

theorem rewrites_linkedCard : Rewrites (substitute linkedCard) p.grouped p.translation := by
  cases p with
  | card t => exact t.rewrites_linkedCard
  | listEnd =>
    have hclear : Clear ["Card".toList] "</CardGroup>".toList := .inr ⟨⟨rfl, by decide⟩, by decide⟩
    exact hclear.rewrites (by decide) needs_linkedCard

end CardPiece

/-- **The conversion of cards changes destinations and lists of cards**: in each card that has a destination, the
attribute becomes a link behind a single blank, and the end of a list of cards becomes that of a group.  Everything else
stays, the text between the cards and all other attributes of a card with their values, blanks and order. -/
theorem convertCards_text (d : CardDocument) :
    convertCards (d.text CardPiece.source) = d.text CardPiece.translation := by
  have hneeds : Needs ('<' :: "/CardList>".toList) (literal "</CardList>".toList "</CardGroup>".toList) :=
    needs_literal _ _
  simp only [convertCards, replaceAll]
  rw [d.substitute_text (needs_openTag "CardList".toList _) (by decide) ⟨"<Card".toList, by decide⟩
      CardPiece.head_source fun p => p.rewrites_listOpening _,
    d.substitute_text hneeds (by decide) ⟨"</CardList>".toList, by decide⟩ CardPiece.head_source
      CardPiece.rewrites_listEnd,
    d.substitute_text needs_linkedCard (by decide) ⟨"<Card".toList, by decide⟩ CardPiece.head_grouped
      CardPiece.rewrites_linkedCard]

/-- **The end of a list of cards is renamed** on its own in a text, and the opening of one inside a value. -/
theorem cards_of_lists :
    (¬ "<Card".toList <:+: "a</CardList>b".toList ∧
        convertCards "a</CardList>b".toList = "a</CardGroup>b".toList) ∧
      convertCards "<Card title=\"a <CardList b\" to=\"/x\">".toList =
        "<Card title=\"a <CardGroup cols=\x7b2\x7d>".toList := by
  decide +kernel

end DocFerry.Markup
