import Mathlib.Data.List.Infix
import DocFerry.Text.Basic
/-!
# Rewriting a text piece by piece

A function rewrites a piece of text (`Rewrites`) if it does so whatever follows the piece.  Pieces one after the other
are rewritten one after the other (`Rewrites.append`), by one function after another (`Rewrites.comp`).  Replacing
matches rewrites a match (`rewrites_of_match`), and keeps a text in which what the matcher needs does not begin
(`rewrites_of_not_mem`, `rewrites_of_opens`, `rewrites_of_not_within`).

A document alternates text with constructs, and the text holds none of the keys that the constructs begin with (`Free`,
`Interspersed`).  Replacing matches rewrites it construct by construct and keeps the text (`substitute_text`).  A key
that overlaps no other occurrence of itself is found where it is written behind a text exactly if the text is free of
it (`cutAt?_append_key_iff`).
-/
namespace DocFerry.Text

/-! ## Needles -/

theorem after?_eq_none_iff {key s : Text} : after? key s = none ↔ ¬ key <+: s := by
  constructor
  · rintro h ⟨rest, hrest⟩
    rw [after?_eq_some_iff.2 hrest.symm] at h
    cases h
  · intro h
    cases ha : after? key s with
    | none => rfl
    | some rest => exact absurd ⟨rest, (after?_eq_some_iff.1 ha).symm⟩ h

/-- **A text that lacks a character does not reach past it.** -/
theorem start_of_start_append {key s rest : Text} {c : Char} (hc : c ∉ key) (h : key <+: s ++ c :: rest) :
    key <+: s := by
  rcases List.prefix_or_prefix_of_prefix h (List.prefix_append s (c :: rest)) with hk | ⟨more, rfl⟩
  · exact hk
  · rcases List.prefix_cons_iff.1 ((List.prefix_append_right_inj s).1 h) with rfl | ⟨t, rfl, _⟩
    · simp
    · simp at hc

theorem suffix_of_append_suffix_append {start s t : Text} (h : start ++ s <:+ start ++ t) : s <:+ t := by
  refine List.suffix_of_suffix_length_le ((List.suffix_append start s).trans h) (List.suffix_append start t) ?_
  simpa using h.length_le

theorem infix_of_infix_append {key rest : Text} {c : Char} (hc : c ∉ key) : ∀ {s : Text}, key <:+: s ++ c :: rest →
    key <:+: s ∨ key <:+: rest
  | [], h => by
    rcases List.infix_cons_iff.1 h with h | h
    · exact .inl (start_of_start_append (s := []) hc h).isInfix
    · exact .inr h
  | a :: s, h => by
    rcases List.infix_cons_iff.1 h with h | h
    · exact .inl (start_of_start_append (s := a :: s) hc h).isInfix
    · exact (infix_of_infix_append hc h).imp_left fun hs => hs.trans (List.suffix_cons a s).isInfix

/-- **Two texts that differ** somewhere in what both have. -/
def Differ (key s : Text) : Prop := ¬ key <+: s ∧ ¬ s <+: key

instance (key s : Text) : Decidable (Differ key s) := inferInstanceAs (Decidable (_ ∧ _))

theorem Differ.append {key s : Text} (h : Differ key s) (rest : Text) : Differ key (s ++ rest) :=
  ⟨fun hk => (List.prefix_or_prefix_of_prefix hk (List.prefix_append s rest)).elim h.1 h.2,
    fun hk => h.2 ((List.prefix_append s rest).trans hk)⟩

theorem cutAt?_singleton (c : Char) (rest : Text) : ∀ {s : Text}, c ∉ s → cutAt? [c] (s ++ c :: rest) = some (s, rest)
  | [], _ => by simp [cutAt?, after?]
  | a :: s, h => by
    rw [List.mem_cons, not_or] at h
    simp [cutAt?, after?, h.1, cutAt?_singleton c rest h.2]

/-! ## Pieces -/

/-- **A function rewrites a piece of text** if it does so whatever follows. -/
def Rewrites (f : Text → Text) (s s' : Text) : Prop := ∀ rest, f (s ++ rest) = s' ++ f rest

namespace Rewrites

variable {f g : Text → Text} {s s' t t' : Text}

theorem nil (f : Text → Text) : Rewrites f [] [] := fun _ => rfl

theorem append (h : Rewrites f s s') (k : Rewrites f t t') : Rewrites f (s ++ t) (s' ++ t') := fun rest => by
  rw [List.append_assoc, h, k, List.append_assoc]

theorem flatMap {α : Type} {source written : α → Text} (h : ∀ a, Rewrites f (source a) (written a)) :
    ∀ as : List α, Rewrites f (as.flatMap source) (as.flatMap written)
  | [] => .nil f
  | a :: as => (h a).append (flatMap h as)

theorem comp (h : Rewrites f s s') (k : Rewrites g s' t) : Rewrites (fun x => g (f x)) s t := fun rest => by
  show g (f (s ++ rest)) = t ++ g (f rest)
  rw [h, k]

theorem eq (h : Rewrites f s s') (hf : f [] = []) : f s = s' := by
  have hs := h []
  rwa [hf, List.append_nil, List.append_nil] at hs

end Rewrites

/-! ## Replacing matches -/

theorem substituteFrom_skip (m : Matcher) (rest : Text) : ∀ (s : Text),
    substituteFrom m s.length (s ++ rest) = substituteFrom m 0 rest
  | [] => rfl
  | _ :: s => substituteFrom_skip m rest s

/-- **A match is rewritten**, if it is one whatever follows. -/
theorem rewrites_of_match {m : Matcher} {found written : Text} (hne : found ≠ [])
    (h : ∀ rest, m (found ++ rest) = some (written, rest)) : Rewrites (substitute m) found written := by
  intro rest
  cases found with
  | nil => exact absurd rfl hne
  | cons c found =>
    have hm := h rest
    rw [List.cons_append] at hm
    have hlength : (found ++ rest).length - rest.length = found.length := by simp
    rw [substitute, List.cons_append, substituteFrom, hm]
    simp only [hlength, substituteFrom_skip]
    rfl

theorem substitute_cons_of_some {m : Matcher} {c : Char} {rest written after : Text}
    (h : m (c :: rest) = some (written, after)) : ∃ more, substitute m (c :: rest) = written ++ more := by
  rw [substitute, substituteFrom, h]
  exact ⟨_, rfl⟩

theorem substitute_cons_of_none {m : Matcher} {c : Char} {rest : Text} (h : m (c :: rest) = none) :
    substitute m (c :: rest) = c :: substitute m rest := by
  rw [substitute, substituteFrom, h]
  rfl

/-- **What a matcher needs**: nothing is a match that does not begin with the key. -/
def Needs (key : Text) (m : Matcher) : Prop := ∀ s, m s ≠ none → key <+: s

theorem Needs.eq_none {key s : Text} {m : Matcher} (h : Needs key m) (hs : ¬ key <+: s) : m s = none := by
  cases hm : m s with
  | none => rfl
  | some found => exact absurd (h s (by simp [hm])) hs

theorem Needs.eq_none_of_differ {key s : Text} {m : Matcher} (h : Needs key m) (hd : Differ key s) (rest : Text) :
    m (s ++ rest) = none := h.eq_none (hd.append rest).1

theorem needs_of_after {key : Text} {m : Matcher} (h : ∀ s, after? key s = none → m s = none) : Needs key m := fun s hs =>
  Classical.byContradiction fun hk => hs (h s (after?_eq_none_iff.2 hk))

theorem needs_literal (found written : Text) : Needs found (literal found written) :=
  needs_of_after fun s hs => by simp [literal, hs]

variable {m : Matcher} {c : Char} {key : Text}

theorem rewrites_cons {a : Char} {s : Text} (hn : ∀ rest, m (a :: (s ++ rest)) = none)
    (h : Rewrites (substitute m) s s) : Rewrites (substitute m) (a :: s) (a :: s) := fun rest => by
  rw [List.cons_append, substitute_cons_of_none (hn rest), h, List.cons_append]

/-- **A text in which nothing is a match**, whatever follows it, is kept. -/
theorem rewrites_of_no_match : ∀ {s : Text}, (∀ t, t <:+ s → t ≠ [] → ∀ rest, m (t ++ rest) = none) →
    Rewrites (substitute m) s s
  | [], _ => .nil _
  | a :: s, h =>
    rewrites_cons (h (a :: s) List.suffix_rfl (by simp))
      (rewrites_of_no_match fun t ht => h t (ht.trans (List.suffix_cons a s)))

/-- **A text without the first character of the key** is kept. -/
theorem rewrites_of_not_mem (hm : Needs (c :: key) m) : ∀ {s : Text}, c ∉ s → Rewrites (substitute m) s s
  | [], _ => .nil _
  | a :: s, h => by
    rw [List.mem_cons, not_or] at h
    exact rewrites_cons (fun _ => hm.eq_none fun hk => h.1 (List.cons_prefix_cons.1 hk).1) (rewrites_of_not_mem hm h.2)

/-- **A text that begins with a character**, and does not hold it again. -/
structure Opens (c : Char) (s : Text) : Prop where
  head : s.head? = some c
  tail : c ∉ s.tail

/-- **A text in which the key can begin only at the start** is kept, if it is no match there. -/
theorem rewrites_of_opens (hm : Needs (c :: key) m) {s : Text} (hs : Opens c s) (hn : ∀ rest, m (s ++ rest) = none) :
    Rewrites (substitute m) s s := by
  obtain ⟨tail, rfl⟩ := List.head?_eq_some_iff.1 hs.head
  exact rewrites_cons hn (rewrites_of_not_mem hm hs.tail)

/-- **A text in which the key does not occur** is kept, if what follows cannot go on with a key begun in it. -/
theorem substitute_append_of_not_within (hm : Needs key m) {rest : Text} (hr : ∀ a ∈ rest.head?, a ∉ key.tail) :
    ∀ {s : Text}, ¬ key <:+: s → substitute m (s ++ rest) = s ++ substitute m rest
  | [], _ => rfl
  | a :: s, h => by
    have hwithin := h
    rw [List.infix_cons_iff, not_or] at hwithin
    have hn : ¬ key <+: a :: (s ++ rest) := by
      intro hk
      rcases List.prefix_or_prefix_of_prefix hk (List.prefix_append (a :: s) rest) with hk' | ⟨more, rfl⟩
      · exact hwithin.1 hk'
      · obtain ⟨after, hafter⟩ := (List.prefix_append_right_inj (a :: s)).1 hk
        cases more with
        | nil => exact h (List.append_nil _ ▸ List.infix_rfl)
        | cons d more =>
          subst hafter
          exact hr d rfl (List.mem_append_right s List.mem_cons_self)
    rw [List.cons_append, substitute_cons_of_none (hm.eq_none hn), substitute_append_of_not_within hm hr hwithin.2,
      List.cons_append]

/-- **A text in which the key does not occur** is kept, if it ends with a character that the key lacks. -/
theorem rewrites_of_not_within (hm : Needs key m) (hne : key ≠ []) (hc : c ∉ key) {s : Text} (h : ¬ key <:+: s) :
    Rewrites (substitute m) (s ++ [c]) (s ++ [c]) := fun rest => by
  have htail : ∀ a ∈ (c :: rest).head?, a ∉ key.tail := fun a ha => by
    obtain rfl : c = a := by simpa using ha
    exact fun hmem => hc (List.mem_of_mem_tail hmem)
  have hn : ¬ key <+: c :: rest := fun hk => hne (List.prefix_nil.1 (start_of_start_append (s := []) hc hk))
  rw [List.append_assoc, List.singleton_append, substitute_append_of_not_within hm htail h,
    substitute_cons_of_none (hm.eq_none hn), List.append_cons]

/-! ## First occurrences -/

theorem cutAt?_cons_of_not_start {key s : Text} {c : Char} (h : ¬ key <+: c :: s) :
    cutAt? key (c :: s) = (cutAt? key s).map fun cut => (c :: cut.1, cut.2) := by
  rw [cutAt?, after?_eq_none_iff.2 h]

theorem cutAt?_of_start {key s rest : Text} (hne : key ≠ []) (h : s = key ++ rest) :
    cutAt? key s = some ([], rest) := by
  obtain ⟨c, tail, rfl⟩ := List.exists_cons_of_ne_nil hne
  have hafter : after? (c :: tail) (c :: (tail ++ rest)) = some rest := after?_eq_some_iff.2 rfl
  rw [h, List.cons_append, cutAt?, hafter]

/-- **A cut is at the first occurrence.** -/
theorem not_within_of_cutAt? {key after : Text} (hne : key ≠ []) : ∀ {s before : Text},
    cutAt? key s = some (before, after) → ¬ key <:+: before
  | [], _, h => by simp [cutAt?, hne] at h
  | c :: s, before, h => by
    by_cases hstart : key <+: c :: s
    · obtain ⟨rest, hrest⟩ := hstart
      rw [cutAt?_of_start hne hrest.symm] at h
      cases h
      simpa using hne
    · rw [cutAt?_cons_of_not_start hstart] at h
      obtain ⟨cut, hcut, he⟩ := Option.map_eq_some_iff.1 h
      obtain ⟨rfl, rfl⟩ := Prod.mk.inj he
      have hs : cut.1 <+: s := ⟨key ++ cut.2, by rw [cutAt?_eq_some hcut, List.append_assoc]⟩
      rw [List.infix_cons_iff, not_or]
      exact ⟨fun hk => hstart (hk.trans (List.cons_prefix_cons.2 ⟨rfl, hs⟩)), not_within_of_cutAt? hne hcut⟩

/-- **A key that overlaps no other occurrence of itself**: none of its beginnings is one of its ends, but for nothing
and the key as a whole. -/
def Unbordered (key : Text) : Prop := ∀ v ∈ key.tails, v <+: key → v = [] ∨ v = key

instance (key : Text) : Decidable (Unbordered key) := inferInstanceAs (Decidable (∀ v ∈ key.tails, _))

theorem cutAt?_append_key {key rest : Text} (hne : key ≠ []) (hkey : Unbordered key) : ∀ {s : Text}, ¬ key <:+: s →
    cutAt? key (s ++ (key ++ rest)) = some (s, rest)
  | [], _ => cutAt?_of_start hne rfl
  | c :: s, h => by
    have hstart : ¬ key <+: c :: (s ++ (key ++ rest)) := by
      intro hk
      rcases List.prefix_or_prefix_of_prefix hk (List.prefix_append (c :: s) (key ++ rest)) with hk' | ⟨v, hv⟩
      · exact h hk'.isInfix
      · -- The end of the key that reaches into the key behind is one of its beginnings.
        obtain ⟨w, hw⟩ := hk
        have hboth : (c :: s) ++ (v ++ w) = (c :: s) ++ (key ++ rest) := by
          rw [← List.append_assoc, hv, hw, List.cons_append]
        have hend : v <+: key ++ rest := ⟨w, List.append_cancel_left hboth⟩
        have hlength : v.length < key.length := by
          have hk := congrArg List.length hv
          rw [List.length_append, List.length_cons] at hk
          omega
        have hbegin : v <+: key := List.prefix_of_prefix_length_le hend (List.prefix_append key rest) hlength.le
        rcases hkey v ((List.mem_tails _ _).2 ⟨c :: s, hv⟩) hbegin with rfl | rfl
        · exact h (List.append_nil (c :: s) ▸ hv ▸ List.infix_rfl)
        · exact lt_irrefl _ hlength
    rw [List.infix_cons_iff, not_or] at h
    rw [List.cons_append, cutAt?_cons_of_not_start hstart, cutAt?_append_key hne hkey h.2]
    rfl

/-- **A key is found where it is written** behind a text, exactly if the text is free of it. -/
theorem cutAt?_append_key_iff {key s rest : Text} (hne : key ≠ []) (hkey : Unbordered key) :
    cutAt? key (s ++ (key ++ rest)) = some (s, rest) ↔ ¬ key <:+: s :=
  ⟨not_within_of_cutAt? hne, cutAt?_append_key hne hkey⟩

/-! ## Documents -/

/-- **A text without some others** in it. -/
structure Free (keys : List Text) where
  text : Text
  lacks : ∀ key ∈ keys, ¬ key <:+: text

/-- **A document**: a text free of the keys, and constructs, each with the text behind it. -/
structure Interspersed (κ : Type) (keys : List Text) where
  first : Free keys
  rest : List (κ × Free keys)

variable {κ : Type} {keys : List Text} {m : Matcher} {c : Char} {key : Text} {source translation : κ → Text}

/-- **The text of a document**, with a text for each construct. -/
def Interspersed.text (construct : κ → Text) (d : Interspersed κ keys) : Text :=
  d.first.text ++ d.rest.flatMap fun p => construct p.1 ++ p.2.text

/-- **Replacing rewrites a document construct by construct**, if a match begins with a character that begins each
construct, and with something that the text is free of. -/
theorem Interspersed.substitute_text (hm : Needs (c :: key) m) (hc : c ∉ key)
    (hkeys : ∃ k ∈ keys, k <:+: c :: key) (hhead : ∀ k, (source k).head? = some c)
    (hr : ∀ k, Rewrites (substitute m) (source k) (translation k)) (d : Interspersed κ keys) :
    substitute m (d.text source) = d.text translation := by
  obtain ⟨k, hk, hwithin⟩ := hkeys
  -- A text is kept up to the next construct, as no match that begins in the text reaches into the construct.
  have htext : ∀ (s : Free keys) (rest : Text), (∀ a ∈ rest.head?, a = c) →
      substitute m (s.text ++ rest) = s.text ++ substitute m rest := fun s rest hrest =>
    substitute_append_of_not_within hm (fun a ha => hrest a ha ▸ hc) fun h => s.lacks k hk (hwithin.trans h)
  have hpieces : ∀ pieces : List (κ × Free keys),
      (∀ a ∈ (pieces.flatMap fun p => source p.1 ++ p.2.text).head?, a = c) ∧
        substitute m (pieces.flatMap fun p => source p.1 ++ p.2.text) =
          pieces.flatMap fun p => translation p.1 ++ p.2.text := by
    intro pieces
    induction pieces with
    | nil => exact ⟨nofun, rfl⟩
    | cons p pieces ih =>
      refine ⟨fun a ha => ?_, ?_⟩
      · simpa [hhead, eq_comm] using ha
      · rw [List.flatMap_cons, List.flatMap_cons, List.append_assoc, hr, htext p.2 _ ih.1, ih.2, List.append_assoc]
  rw [text, text, htext d.first _ (hpieces d.rest).1, (hpieces d.rest).2]

end DocFerry.Text
