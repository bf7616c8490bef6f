import DocFerry.Page.Metadata
import DocFerry.Proofs.Text.Pieces
/-!
# Where a metadata block ends

A block that has a line ends at the first delimiter line after its opening, and the body is what follows that line.  A
block without lines does so only if no delimiter line follows in the body (`split_ends_first_iff`): otherwise the block
goes on to the next delimiter line, and what stands before that is lost to the body (`split_takes_body`).
-/
namespace DocFerry.Page

open Text

theorem cutAtDelimiter?_eq_none : ∀ {ls : List Text}, (∀ l ∈ ls, isDelimiter l = false) → cutAtDelimiter? ls = none
  | [], _ => rfl
  | l :: ls, h => by
    rw [cutAtDelimiter?, h l List.mem_cons_self, cutAtDelimiter?_eq_none fun k hk => h k (List.mem_cons_of_mem _ hk)]
    rfl

/-- **Lines are cut at the first delimiter line.** -/
theorem cutAtDelimiter?_append {closing : Text} {after : List Text} (hc : isDelimiter closing = true) :
    ∀ {before : List Text}, (∀ l ∈ before, isDelimiter l = false) →
      cutAtDelimiter? (before ++ closing :: after) = some (before, after)
  | [], _ => by rw [List.nil_append, cutAtDelimiter?, if_pos hc]
  | l :: before, h => by
    rw [List.cons_append, cutAtDelimiter?, if_neg (by rw [h l List.mem_cons_self]; simp),
      cutAtDelimiter?_append hc fun k hk => h k (List.mem_cons_of_mem _ hk)]
    rfl

/-- **Lines with a delimiter line have a first one.** -/
theorem exists_first_delimiter {ls : List Text} (h : ∃ l ∈ ls, isDelimiter l = true) :
    ∃ before closing after, ls = before ++ closing :: after ∧ (∀ l ∈ before, isDelimiter l = false) ∧
      isDelimiter closing = true := by
  obtain ⟨closing, hfirst⟩ := Option.isSome_iff_exists.1 (List.find?_isSome.2 h)
  obtain ⟨hc, before, after, rfl, hb⟩ := List.find?_eq_some_iff_append.1 hfirst
  exact ⟨before, closing, after, rfl, by simpa using hb, hc⟩

theorem isDelimiter_ne_nil {l : Text} (h : isDelimiter l = true) : l ≠ [] := by
  rintro rfl
  revert h
  decide

theorem mem_of_isDelimiter {line : Text} (h : isDelimiter line = true) {c : Char} (hc : c ∈ line) :
    c ∈ ['-', ' ', '\t'] := by
  obtain ⟨blanks, hstart, hblank⟩ := (Option.any_eq_true _ _).1 h
  rw [after?_eq_some_iff.1 hstart, List.mem_append] at hc
  rcases hc with hc | hc
  · exact List.mem_of_elem_eq_true (by revert hc c; decide)
  · have hspace : c = ' ' ∨ c = '\t' := by simpa [isSpaceOrTab] using List.all_eq_true.1 hblank c hc
    rcases hspace with rfl | rfl <;> decide

/-- **A line closes a block** with these lines inside and these after it. -/
structure Closes (inside : List Text) (closing : Text) (after : List Text) : Prop where
  delimiter : isDelimiter closing = true
  /-- No line inside but the first is a delimiter. -/
  first : ∀ l ∈ inside.tail, isDelimiter l = false
  only : inside = [] → ∀ l ∈ after, isDelimiter l = false

theorem cutBlock?_of_closes {inside after : List Text} {closing : Text} (h : Closes inside closing after) :
    cutBlock? (inside ++ closing :: after) = some (inside, after) := by
  cases inside with
  | nil => rw [List.nil_append, cutBlock?, cutAtDelimiter?_eq_none (h.only rfl), if_pos h.delimiter]
  | cons first inside =>
    have hcut := @cutAtDelimiter?_append closing after h.delimiter inside h.first
    rw [List.cons_append, cutBlock?, hcut]

section Block

variable {s opening closing : Text} {inside after : List Text}

/-- **A text that opens with a delimiter line** has the block that a later line closes. -/
theorem block?_of_closes (h : lines s = opening :: (inside ++ closing :: after)) (ho : isDelimiter opening = true)
    (hc : Closes inside closing after) : block? s = some (unlines inside, unlines after) := by
  simp [block?, h, ho, cutBlock?_of_closes hc]

theorem split_of_closes (h : lines s = opening :: (inside ++ closing :: after)) (ho : isDelimiter opening = true)
    (hc : Closes inside closing after) : split s = (parseBlock (unlines inside), unlines after) := by
  rw [split, block?_of_closes h ho hc]

/-- **A block with a line in it** ends at the first delimiter line after its opening. -/
theorem split_of_lines_inside (h : lines s = opening :: (inside ++ closing :: after)) (ho : isDelimiter opening = true)
    (hi : ∀ l ∈ inside, isDelimiter l = false) (hc : isDelimiter closing = true) (hne : inside ≠ []) :
    split s = (parseBlock (unlines inside), unlines after) :=
  split_of_closes h ho ⟨hc, fun l hl => hi l (List.mem_of_mem_tail hl), fun hnil => absurd hnil hne⟩

/-- **A block without lines** ends at once if no delimiter line follows. -/
theorem split_of_empty (h : lines s = opening :: closing :: after) (ho : isDelimiter opening = true)
    (hc : isDelimiter closing = true) (ha : ∀ l ∈ after, isDelimiter l = false) :
    split s = (parseBlock (unlines []), unlines after) :=
  @split_of_closes s opening closing [] after h ho ⟨hc, by simp, fun _ => ha⟩

/-- **A delimiter line right after the opening does not end the block** if another one follows: the block takes it in,
with everything up to the next one. -/
theorem split_takes_body {more rest : List Text} {next : Text}
    (h : lines s = opening :: closing :: (more ++ next :: rest)) (ho : isDelimiter opening = true)
    (hm : ∀ l ∈ more, isDelimiter l = false) (hn : isDelimiter next = true) :
    split s = (parseBlock (unlines (closing :: more)), unlines rest) :=
  @split_of_closes s opening next (closing :: more) rest h ho ⟨hn, hm, by simp⟩

end Block

/-- **Lines from a later one on are shorter.** -/
theorem unlines_ne_of_later {more rest : List Text} {next : Text} (hn : next ≠ []) :
    unlines rest ≠ unlines (more ++ next :: rest) := by
  intro he
  have hlength := congrArg List.length he
  have hpos := List.length_pos_iff.2 hn
  by_cases hr : rest = []
  · subst hr
    rw [unlines_append (by simp)] at hlength
    simp only [unlines, join, List.length_nil, List.length_append] at hlength
    omega
  · rw [List.append_cons, unlines_append hr, rows_append, rows_singleton] at hlength
    simp only [List.length_append, List.length_singleton] at hlength
    omega

/-- **When a block ends at its first delimiter line.**  Of a text that opens with a delimiter line and has another one,
the block is the lines between the two and the body what follows, exactly if there is a line between them or no
delimiter line follows.  In the case that is left the block takes in the second delimiter line and all of the body up to
the third. -/
theorem split_ends_first_iff {s opening closing : Text} {inside after : List Text}
    (h : lines s = opening :: (inside ++ closing :: after)) (ho : isDelimiter opening = true)
    (hi : ∀ l ∈ inside, isDelimiter l = false) (hc : isDelimiter closing = true) :
    (split s = (parseBlock (unlines inside), unlines after) ↔ inside ≠ [] ∨ ∀ l ∈ after, isDelimiter l = false) ∧
      ∀ more next rest, inside = [] → after = more ++ next :: rest → (∀ l ∈ more, isDelimiter l = false) →
        isDelimiter next = true → split s = (parseBlock (unlines (closing :: more)), unlines rest) := by
  have htaken : ∀ more next rest, inside = [] → after = more ++ next :: rest → (∀ l ∈ more, isDelimiter l = false) →
      isDelimiter next = true → split s = (parseBlock (unlines (closing :: more)), unlines rest) := by
    rintro more next rest rfl rfl hm hn
    exact split_takes_body h ho hm hn
  refine ⟨⟨fun hsplit => ?_, ?_⟩, htaken⟩
  · rcases inside with _ | ⟨first, inside⟩
    · refine .inr fun l hl => Bool.eq_false_iff.2 fun hd => ?_
      obtain ⟨more, next, rest, rfl, hm, hn⟩ := exists_first_delimiter ⟨l, hl, hd⟩
      rw [htaken more next rest rfl rfl hm hn] at hsplit
      exact unlines_ne_of_later (isDelimiter_ne_nil hn) (congrArg Prod.snd hsplit)
    · exact .inl (by simp)
  · rintro (hne | hnone)
    · exact split_of_lines_inside h ho hi hc hne
    · by_cases hne : inside = []
      · subst hne
        exact split_of_empty h ho hc hnone
      · exact split_of_lines_inside h ho hi hc hne

theorem split_ends_first_iff_titled :
    lines "---\ntitle: A\n--- \nB\n---".toList = ["---".toList, "title: A".toList, "--- ".toList, "B".toList, "---".toList] ∧
      split "---\ntitle: A\n--- \nB\n---".toList = (parseBlock "title: A".toList, "B\n---".toList) := by
  have h : lines "---\ntitle: A\n--- \nB\n---".toList =
      "---".toList :: (["title: A".toList] ++ "--- ".toList :: ["B".toList, "---".toList]) := by decide
  exact ⟨h, (split_ends_first_iff h (by decide) (by decide) (by decide)).1.2 (.inl (by simp))⟩

/-- **An empty block in front of a body with a delimiter line** takes body text: the line before the rule is read as
metadata, and the body begins after the rule. -/
theorem split_loses_body :
    split "---\n---\nNote: read this\n\n---\nThe end".toList =
        ([("Note".toList, "read this".toList)], "The end".toList) ∧
      split "---\n---\nNote: read this\n\n---\nThe end".toList ≠
        (parseBlock (unlines []), "Note: read this\n\n---\nThe end".toList) := by
  decide

end DocFerry.Page
