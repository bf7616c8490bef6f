import DocFerry.Markup.Tag
import DocFerry.Proofs.Text.Trimming
/-!
# Seeking an attribute in a tag

A stretch of text is passed over in which a recogniser recognises nothing where a name may start (`Unanswered`,
`seekAttribute_past`), as inside a longer name or at any place at all (`unanswered_of_name`, `Silent`); a tag like that
up to its end has no such attribute (`seekAttribute_eq_none_of_unanswered`).
-/
namespace DocFerry.Markup

open Text

/-- **A blank ends a name**: no attribute name goes on with it. -/
theorem isAttributeChar_of_isBlank {c : Char} (h : isBlank c = true) : isAttributeChar c = false := by
  have hcodes := isBlank_iff.1 h
  -- The blanks are finitely many, so what holds of each is computed from its code.
  rw [← Char.ofNat_toNat c]
  revert hcodes
  generalize c.toNat = n
  revert n
  decide +kernel

theorem isWordChar_of_isBlank {c : Char} (h : isBlank c = true) : isWordChar c = false := by
  have hname := isAttributeChar_of_isBlank h
  rw [isAttributeChar, Bool.or_eq_false_iff] at hname
  exact hname.1

section Recogniser

variable {α : Type} {recognise : Text → Option α}

/-- **Nothing is recognised** at any place of a text, with the rest behind it. -/
def Silent (recognise : Text → Option α) (s rest : Text) : Prop :=
  ∀ t, t <:+ s → t ≠ [] → recognise (t ++ rest) = none

theorem Silent.cons {c : Char} {s rest : Text} (hc : recognise (c :: (s ++ rest)) = none)
    (h : Silent recognise s rest) : Silent recognise (c :: s) rest := by
  intro t ht hne
  rcases List.suffix_cons_iff.1 ht with rfl | ht
  · exact hc
  · exact h t ht hne

theorem Silent.append {rest : Text} : ∀ {s s' : Text}, Silent recognise s (s' ++ rest) → Silent recognise s' rest →
    Silent recognise (s ++ s') rest
  | [], _, _, h => h
  | c :: s, s', hs, h => by
    have hfirst : recognise (c :: (s ++ s' ++ rest)) = none := by
      have hwhole := hs (c :: s) List.suffix_rfl (by simp)
      rwa [List.cons_append, ← List.append_assoc] at hwhole
    have htail : Silent recognise s (s' ++ rest) := fun t ht => hs t (ht.trans (List.suffix_cons c s))
    exact (htail.append h).cons hfirst

section Key

variable {key : Text} (hkey : ∀ s, ¬ key <+: s → recognise s = none)

include hkey

theorem silent_of_not_within {c : Char} (hc : c ∉ key) {s : Text} (h : ¬ key <:+: s) (rest : Text) :
    Silent recognise (s ++ [c]) rest := by
  intro t ht hne
  obtain ⟨u, rfl, hu⟩ := (List.suffix_concat_iff.1 ht).resolve_left hne
  rw [List.append_assoc]
  exact hkey _ fun hk => h ((start_of_start_append hc hk).isInfix.trans hu.isInfix)

theorem silent_of_not_mem {a : Char} (ha : key.head? = some a) {s : Text} (h : a ∉ s) (rest : Text) :
    Silent recognise s rest := by
  obtain ⟨tail, rfl⟩ := List.head?_eq_some_iff.1 ha
  intro t ht hne
  obtain ⟨c, t, rfl⟩ := List.exists_cons_of_ne_nil hne
  refine hkey _ fun hk => h ?_
  rw [(List.cons_prefix_cons.1 hk).1]
  exact ht.subset List.mem_cons_self

end Key

/-- **An attribute is found** where a name may start. -/
theorem seekAttribute_here {previous : Char} {s : Text} {found : α} (hne : s ≠ [])
    (hp : isAttributeChar previous = false) (h : recognise s = some found) :
    seekAttribute recognise previous s = some ([], found) := by
  obtain ⟨c, s, rfl⟩ := List.exists_cons_of_ne_nil hne
  rw [seekAttribute, hp, if_neg (by simp), h]

theorem seekAttribute_eq_none_iff {previous c : Char} {s : Text} :
    seekAttribute recognise previous (c :: s) = none ↔
      (isAttributeChar previous = false → recognise (c :: s) = none) ∧
        (c ≠ '>' → seekAttribute recognise c s = none) := by
  cases hp : isAttributeChar previous with
  | true => simp [seekAttribute, hp]
  | false =>
    cases hr : recognise (c :: s) with
    | none => simp [seekAttribute, hp, hr]
    | some found => simp [seekAttribute, hp, hr]

/-- **No attribute is found** in a text, with the rest behind it: where the name of one may start, nothing is
recognised.  `previous` is the character before the text. -/
def Unanswered (recognise : Text → Option α) (rest : Text) : (previous : Char) → Text → Prop
  | _, [] => True
  | previous, c :: s =>
    (isAttributeChar previous = false → recognise (c :: (s ++ rest)) = none) ∧ Unanswered recognise rest c s

theorem Silent.unanswered {rest : Text} : ∀ {s : Text}, Silent recognise s rest → ∀ previous,
    Unanswered recognise rest previous s
  | [], _, _ => trivial
  | c :: s, h, _ => by
    have htail : Silent recognise s rest := fun t ht => h t (ht.trans (List.suffix_cons c s))
    exact ⟨fun _ => h (c :: s) List.suffix_rfl (by simp), htail.unanswered c⟩

/-- **Inside a name** no attribute is found, as none starts there. -/
theorem unanswered_of_name {rest : Text} : ∀ {s : Text} {previous : Char}, isAttributeChar previous = true →
    (∀ c ∈ s, isAttributeChar c = true) → Unanswered recognise rest previous s
  | [], _, _, _ => trivial
  | c :: _, _, hp, hs =>
    ⟨fun hstart => absurd hp (by simp [hstart]),
      unanswered_of_name (hs c List.mem_cons_self) fun a ha => hs a (List.mem_cons_of_mem c ha)⟩

theorem unanswered_append {rest s' : Text} : ∀ {s : Text} {previous : Char},
    Unanswered recognise rest previous (s ++ s') ↔
      Unanswered recognise (s' ++ rest) previous s ∧ Unanswered recognise rest (s.getLast?.getD previous) s'
  | [], _ => by simp [Unanswered]
  | c :: s, previous => by
    rw [List.cons_append, Unanswered, Unanswered, unanswered_append, List.getLast?_cons, and_assoc, List.append_assoc]
    rfl

/-- **Behind a character of a name** less is found than elsewhere. -/
theorem Unanswered.behind {rest s : Text} {previous next : Char} (h : Unanswered recognise rest previous s)
    (hn : isAttributeChar next = true) : Unanswered recognise rest next s := by
  cases s with
  | nil => trivial
  | cons c s => exact ⟨fun hstart => absurd hn (by simp [hstart]), h.2⟩

/-- **A text without attributes that are found is passed over.** -/
theorem seekAttribute_past {rest : Text} : ∀ {s : Text} {previous : Char}, '>' ∉ s →
    Unanswered recognise rest previous s → seekAttribute recognise previous (s ++ rest) =
      (seekAttribute recognise (s.getLast?.getD previous) rest).map fun found => (s ++ found.1, found.2)
  | [], previous, _, _ => by simp
  | c :: s, previous, hend, h => by
    rw [List.mem_cons, not_or] at hend
    have hnone : (if isAttributeChar previous then none else recognise (c :: (s ++ rest))) = none := by
      split
      · rfl
      · exact h.1 (by simpa using ‹¬ isAttributeChar previous = true›)
    have hc : ¬ (c == '>') = true := by simpa using Ne.symm hend.1
    rw [List.cons_append, seekAttribute, hnone]
    simp only [if_neg hc]
    rw [seekAttribute_past hend.2 h.2, Option.map_map, List.getLast?_cons]
    rfl

/-- **A tag without attributes that are found**, up to its end. -/
theorem seekAttribute_eq_none_of_unanswered {s rest : Text} {previous : Char} (hend : '>' ∉ s)
    (h : Unanswered recognise rest previous (s ++ ['>'])) :
    seekAttribute recognise previous (s ++ '>' :: rest) = none := by
  obtain ⟨hs, hlast⟩ := unanswered_append.1 h
  have hnone : seekAttribute recognise (s.getLast?.getD previous) ('>' :: rest) = none :=
    seekAttribute_eq_none_iff.2 ⟨hlast.1, fun hc => absurd rfl hc⟩
  have hpast := seekAttribute_past hend hs
  rw [List.singleton_append] at hpast
  rw [hpast, hnone, Option.map_none]

/-- **A stretch of text is passed over** in which nothing is recognised. -/
theorem seekAttribute_append {rest s : Text} (previous : Char) (hend : '>' ∉ s) (h : Silent recognise s rest) :
    seekAttribute recognise previous (s ++ rest) =
      (seekAttribute recognise (s.getLast?.getD previous) rest).map fun found => (s ++ found.1, found.2) :=
  seekAttribute_past hend (h.unanswered previous)

/-- **A tag without the attribute**: nothing is recognised up to its end. -/
theorem seekAttribute_eq_none {s rest : Text} (previous : Char) (hend : '>' ∉ s)
    (h : Silent recognise (s ++ ['>']) rest) : seekAttribute recognise previous (s ++ '>' :: rest) = none :=
  seekAttribute_eq_none_of_unanswered hend (h.unanswered previous)

end Recogniser

end DocFerry.Markup
