import Mathlib.Data.List.Basic
import DocFerry.Text.Blank
import DocFerry.Text.Lines
/-!
# Pieces of a text

A text is split at a character into pieces that do not hold it (`not_mem_of_mem_splitWhere`), and pieces that
do not hold a character are what their join is split into (`splitWhere_join`).

A word is what separators leave of a text (`IsWord`, `isWord_of_mem`).  The words of two texts with separators between
them are those of the one and those of the other (`wordsBy_append`).  Words put together with single spaces are read
back (`wordsBy_join`), and no two spaces stand in a row there (`not_doubled_join`).

Lines of which each ends with its newline (`rows`) are the first lines of any text that begins with them
(`lines_rows_append`), and are put back where they were (`unlines_append`).
-/
namespace DocFerry.Text

theorem not_mem_of_mem_splitWhere {sep : Char → Bool} {c : Char} (hc : sep c = true) :
    ∀ (s : Text), ∀ piece ∈ splitWhere sep s, c ∉ piece
  | [], piece, hp => by simp_all [splitWhere]
  | a :: rest, piece, hp => by
    rw [splitWhere] at hp
    have ih := not_mem_of_mem_splitWhere hc rest
    split at hp
    · rcases List.mem_cons.1 hp with rfl | hp
      · simp
      · exact ih piece hp
    · rename_i ha
      have hac : c ≠ a := fun h => ha (h ▸ hc)
      cases hs : splitWhere sep rest with
      | nil => exact absurd hs (splitWhere_ne_nil _ _)
      | cons first pieces =>
        rw [hs] at hp ih
        rcases List.mem_cons.1 hp with rfl | hp
        · simpa [hac] using ih first List.mem_cons_self
        · exact ih piece (List.mem_cons_of_mem _ hp)

/-- **A piece is made of characters of the text.** -/
theorem mem_of_mem_splitWhere (sep : Char → Bool) (c : Char) :
    ∀ (s : Text), ∀ piece ∈ splitWhere sep s, c ∈ piece → c ∈ s
  | [], piece, hp, hc => by simp_all [splitWhere]
  | a :: rest, piece, hp, hc => by
    rw [splitWhere] at hp
    have ih := mem_of_mem_splitWhere sep c rest
    split at hp
    · rcases List.mem_cons.1 hp with rfl | hp
      · cases hc
      · exact List.mem_cons_of_mem a (ih piece hp hc)
    · cases hs : splitWhere sep rest with
      | nil => exact absurd hs (splitWhere_ne_nil _ _)
      | cons first pieces =>
        rw [hs] at hp ih
        rcases List.mem_cons.1 hp with rfl | hp
        · exact (List.mem_cons.1 hc).elim (fun he => he ▸ List.mem_cons_self) fun hc =>
            List.mem_cons_of_mem a (ih first List.mem_cons_self hc)
        · exact List.mem_cons_of_mem a (ih piece (List.mem_cons_of_mem _ hp) hc)

theorem infix_join_of_mem (glue : Text) : ∀ {pieces : List Text} {piece : Text}, piece ∈ pieces →
    piece <:+: join glue pieces
  | [piece], _, h => by rw [List.mem_singleton.1 h]; exact List.infix_rfl
  | piece :: next :: pieces, _, h => by
    rw [join_cons_cons, List.append_assoc]
    rcases List.mem_cons.1 h with rfl | h
    · exact List.infix_append' [] _ _
    · exact (infix_join_of_mem glue h).trans ((List.suffix_append _ _).trans (List.suffix_append _ _)).isInfix

/-- **A character that is no separator** is in a piece. -/
theorem exists_piece_of_mem {sep : Char → Bool} {c : Char} (hc : sep c = false) : ∀ {s : Text}, c ∈ s →
    ∃ piece ∈ splitWhere sep s, c ∈ piece
  | a :: rest, h => by
    rw [splitWhere]
    by_cases hca : c = a
    · subst hca
      rw [if_neg (by simp [hc])]
      split
      · exact ⟨_, List.mem_cons_self, List.mem_cons_self⟩
      · exact ⟨_, List.mem_cons_self, List.mem_cons_self⟩
    · obtain ⟨piece, hpiece, hmem⟩ := exists_piece_of_mem hc ((List.mem_cons.1 h).resolve_left hca)
      split
      · exact ⟨piece, List.mem_cons_of_mem _ hpiece, hmem⟩
      · cases hs : splitWhere sep rest with
        | nil => exact absurd hs (splitWhere_ne_nil _ _)
        | cons first pieces =>
          rw [hs] at hpiece
          rcases List.mem_cons.1 hpiece with rfl | hpiece
          · exact ⟨_, List.mem_cons_self, List.mem_cons_of_mem a hmem⟩
          · exact ⟨piece, List.mem_cons_of_mem _ hpiece, hmem⟩

/-- **Pieces on both sides of a separator.** -/
theorem splitWhere_append_cons {sep : Char → Bool} {c : Char} (hc : sep c = true) (rest : Text) : ∀ (s : Text),
    splitWhere sep (s ++ c :: rest) = splitWhere sep s ++ splitWhere sep rest
  | [] => by simp [splitWhere, hc]
  | a :: s => by
    have ih := splitWhere_append_cons hc rest s
    rw [List.cons_append, splitWhere, splitWhere, ih]
    cases hs : splitWhere sep s with
    | nil => exact absurd hs (splitWhere_ne_nil _ _)
    | cons first pieces => split <;> rfl

theorem splitWhere_of_free {sep : Char → Bool} : ∀ {piece : Text}, (∀ c ∈ piece, sep c = false) →
    splitWhere sep piece = [piece]
  | [], _ => rfl
  | c :: piece, h => by
    have ih := splitWhere_of_free fun a ha => h a (List.mem_cons_of_mem c ha)
    rw [splitWhere, if_neg (by simp [h c List.mem_cons_self]), ih]

theorem splitWhere_of_not_mem {sep : Char} {piece : Text} (h : sep ∉ piece) : splitWhere (· == sep) piece = [piece] :=
  splitWhere_of_free fun c hc => by simpa using fun he : c = sep => h (he ▸ hc)

/-- **The first piece** goes up to the first separator. -/
theorem splitWhere_append_sep {sep : Char} (rest : Text) {piece : Text} (h : sep ∉ piece) :
    splitWhere (· == sep) (piece ++ sep :: rest) = piece :: splitWhere (· == sep) rest := by
  rw [splitWhere_append_cons (by simp), splitWhere_of_not_mem h, List.singleton_append]

/-- **Splitting undoes joining** where no piece holds the separator. -/
theorem splitWhere_join (sep : Char) : ∀ (pieces : List Text), pieces ≠ [] → (∀ piece ∈ pieces, sep ∉ piece) →
    splitWhere (· == sep) (join [sep] pieces) = pieces
  | [], hne, _ => absurd rfl hne
  | [piece], _, h => splitWhere_of_not_mem (h piece List.mem_cons_self)
  | piece :: next :: pieces, _, h => by
    rw [join_cons_cons, List.append_assoc, List.singleton_append,
      splitWhere_append_sep _ (h piece List.mem_cons_self),
      splitWhere_join sep (next :: pieces) (by simp) fun p hp => h p (List.mem_cons_of_mem _ hp)]

/-- **What a join holds** comes from the glue or from a piece. -/
theorem mem_join {c : Char} {glue : Text} : ∀ {pieces : List Text}, c ∈ join glue pieces →
    c ∈ glue ∨ ∃ piece ∈ pieces, c ∈ piece
  | [], h => absurd h (by simp [join])
  | [piece], h => .inr ⟨piece, List.mem_cons_self, h⟩
  | piece :: next :: pieces, h => by
    rw [join_cons_cons, List.mem_append, List.mem_append] at h
    rcases h with (h | h) | h
    · exact .inr ⟨piece, List.mem_cons_self, h⟩
    · exact .inl h
    · rcases mem_join h with h | ⟨p, hp, h⟩
      · exact .inl h
      · exact .inr ⟨p, List.mem_cons_of_mem _ hp, h⟩

theorem join_append (glue : Text) {more : List Text} (hm : more ≠ []) : ∀ {pieces : List Text}, pieces ≠ [] →
    join glue (pieces ++ more) = join glue pieces ++ glue ++ join glue more
  | [], hne => absurd rfl hne
  | [first], _ => by
    obtain ⟨next, more, rfl⟩ := List.exists_cons_of_ne_nil hm
    rw [List.singleton_append, join_cons_cons]
    rfl
  | first :: next :: pieces, _ => by
    have ih := join_append glue hm (List.cons_ne_nil next pieces)
    rw [List.cons_append, List.cons_append, join_cons_cons, join_cons_cons, ← List.cons_append, ih]
    simp only [List.append_assoc]

theorem join_append_singleton (glue piece : Text) (pieces : List Text) (h : pieces ≠ []) :
    join glue (pieces ++ [piece]) = join glue pieces ++ glue ++ piece := join_append glue (List.cons_ne_nil piece []) h

/-! ## Words -/

section Words

variable {sep : Char → Bool}

/-- **A word**: some characters, none of them a separator. -/
structure IsWord (sep : Char → Bool) (w : Text) : Prop where
  ne_nil : w ≠ []
  free : ∀ c ∈ w, sep c = false

theorem isWord_of_mem {s w : Text} (h : w ∈ wordsBy sep s) : IsWord sep w := by
  obtain ⟨hpiece, hne⟩ := List.mem_filter.1 h
  refine ⟨by simpa using hne, fun c hc => Bool.eq_false_iff.2 fun hsep => ?_⟩
  exact not_mem_of_mem_splitWhere hsep s w hpiece hc

theorem wordsBy_ne_nil {s : Text} (h : ∃ c ∈ s, sep c = false) : wordsBy sep s ≠ [] := by
  obtain ⟨c, hc, hsep⟩ := h
  obtain ⟨piece, hpiece, hmem⟩ := exists_piece_of_mem hsep hc
  exact List.ne_nil_of_mem (List.mem_filter.2 ⟨hpiece, by simpa using List.ne_nil_of_mem hmem⟩)

theorem IsWord.wordsBy_eq {w : Text} (h : IsWord sep w) : wordsBy sep w = [w] := by
  rw [wordsBy, splitWhere_of_free h.free]
  simp [h.ne_nil]

theorem wordsBy_append_cons {c : Char} (hc : sep c = true) (a b : Text) :
    wordsBy sep (a ++ c :: b) = wordsBy sep a ++ wordsBy sep b := by
  rw [wordsBy, splitWhere_append_cons hc, List.filter_append]
  rfl

theorem wordsBy_separators_append (b : Text) : ∀ {s : Text}, (∀ c ∈ s, sep c = true) →
    wordsBy sep (s ++ b) = wordsBy sep b
  | [], _ => rfl
  | c :: s, h => by
    have hfirst := wordsBy_append_cons (h c List.mem_cons_self) [] (s ++ b)
    rw [List.nil_append] at hfirst
    rw [List.cons_append, hfirst, wordsBy_separators_append b fun a ha => h a (List.mem_cons_of_mem c ha)]
    rfl

/-- **The words of two texts with separators between them.** -/
theorem wordsBy_append (a b : Text) {s : Text} (hne : s ≠ []) (h : ∀ c ∈ s, sep c = true) :
    wordsBy sep (a ++ s ++ b) = wordsBy sep a ++ wordsBy sep b := by
  obtain ⟨c, rest, rfl⟩ := List.exists_cons_of_ne_nil hne
  rw [List.append_assoc, List.cons_append, wordsBy_append_cons (h c List.mem_cons_self),
    wordsBy_separators_append b fun d hd => h d (List.mem_cons_of_mem c hd)]

/-- **Words put together** with a separator between neighbours are read back. -/
theorem wordsBy_join {c : Char} (hc : sep c = true) : ∀ {ws : List Text}, (∀ w ∈ ws, IsWord sep w) →
    wordsBy sep (join [c] ws) = ws
  | [], _ => rfl
  | [w], h => (h w List.mem_cons_self).wordsBy_eq
  | w :: next :: ws, h => by
    rw [join_cons_cons, List.append_assoc, List.singleton_append, wordsBy_append_cons hc,
      (h w List.mem_cons_self).wordsBy_eq, wordsBy_join hc fun v hv => h v (List.mem_cons_of_mem w hv),
      List.singleton_append]

theorem head_join {glue : Text} {ws : List Text} (h : ∀ w ∈ ws, IsWord sep w) :
    ∀ c ∈ (join glue ws).head?, sep c = false := by
  intro c hc
  cases ws with
  | nil => cases hc
  | cons w ws =>
    have hword := h w List.mem_cons_self
    have hfirst : (join glue (w :: ws)).head? = w.head? := by
      cases ws with
      | nil => rfl
      | cons next ws => rw [join_cons_cons, List.append_assoc, List.head?_append_of_ne_nil _ hword.ne_nil]
    rw [hfirst] at hc
    exact hword.free c (List.mem_of_head? hc)

theorem last_join {glue : Text} {ws : List Text} (h : ∀ w ∈ ws, IsWord sep w) :
    ∀ c ∈ (join glue ws).getLast?, sep c = false := by
  intro c hc
  by_cases hws : ws = []
  · subst hws
    cases hc
  · obtain ⟨init, w, rfl⟩ : ∃ init w, ws = init ++ [w] := ⟨_, _, (List.dropLast_concat_getLast hws).symm⟩
    have hword := h w (by simp)
    have hlast : (join glue (init ++ [w])).getLast? = w.getLast? := by
      by_cases hinit : init = []
      · subst hinit
        rfl
      · rw [join_append_singleton _ _ _ hinit, List.getLast?_append_of_ne_nil _ hword.ne_nil]
    rw [hlast] at hc
    exact hword.free c (List.mem_of_getLast? hc)

/-- **Words put together with single spaces** have no two spaces in a row. -/
theorem not_doubled_join (hspace : sep ' ' = true) : ∀ {ws : List Text}, (∀ w ∈ ws, IsWord sep w) →
    ¬ [' ', ' '] <:+: join [' '] ws
  | [], _ => by simp [join]
  | w :: ws, h => by
    have hword : ' ' ∉ w := fun hm => by simp [(h w List.mem_cons_self).free ' ' hm] at hspace
    cases ws with
    | nil => exact fun hd => hword (hd.subset List.mem_cons_self)
    | cons next ws =>
      have hrest := fun v hv => h v (List.mem_cons_of_mem w hv)
      have ih := not_doubled_join hspace hrest
      have hpast : ∀ {v : Text}, ' ' ∉ v → [' ', ' '] <:+: v ++ ' ' :: join [' '] (next :: ws) →
          [' ', ' '] <:+: ' ' :: join [' '] (next :: ws) := by
        intro v hv hd
        induction v with
        | nil => exact hd
        | cons a v ihv =>
          rw [List.mem_cons, not_or] at hv
          rcases List.infix_cons_iff.1 hd with hd | hd
          · exact absurd (List.cons_prefix_cons.1 hd).1 hv.1
          · exact ihv hv.2 hd
      rw [join_cons_cons, List.append_assoc, List.singleton_append]
      intro hd
      rcases List.infix_cons_iff.1 (hpast hword hd) with hd | hd
      · -- A second space would be the first character of a word.
        obtain ⟨rest, hrest'⟩ := (List.cons_prefix_cons.1 hd).2
        have hfirst : ' ' ∈ (join [' '] (next :: ws)).head? := by rw [← hrest']; rfl
        rw [head_join hrest ' ' hfirst] at hspace
        cases hspace
      · exact ih hd

end Words

/-! ## Lines that end -/

/-- **Lines, each with its newline.** -/
def rows (ls : List Text) : Text := ls.flatMap (· ++ ['\n'])

theorem rows_cons (l : Text) (ls : List Text) : rows (l :: ls) = l ++ '\n' :: rows ls := by
  simp [rows]

theorem rows_singleton (l : Text) : rows [l] = l ++ ['\n'] := rows_cons l []

theorem rows_append (ls more : List Text) : rows (ls ++ more) = rows ls ++ rows more := List.flatMap_append

/-- **The lines of a text that begins with lines.** -/
theorem lines_rows_append (rest : Text) : ∀ {ls : List Text}, (∀ l ∈ ls, '\n' ∉ l) →
    lines (rows ls ++ rest) = ls ++ lines rest
  | [], _ => rfl
  | l :: ls, h => by
    have ih := lines_rows_append rest fun k hk => h k (List.mem_cons_of_mem l hk)
    unfold lines at ih ⊢
    rw [rows_cons, List.append_assoc, List.cons_append,
      splitWhere_append_sep _ (h l List.mem_cons_self), ih, List.cons_append]

theorem lines_unlines {ls : List Text} (hne : ls ≠ []) (h : ∀ l ∈ ls, '\n' ∉ l) : lines (unlines ls) = ls :=
  splitWhere_join '\n' ls hne h

theorem unlines_cons (l : Text) {more : List Text} (h : more ≠ []) :
    unlines (l :: more) = l ++ '\n' :: unlines more := by
  cases more with
  | nil => exact absurd rfl h
  | cons k more => simp [unlines, join_cons_cons]

/-- **Lines put back** in front of others. -/
theorem unlines_append {more : List Text} (h : more ≠ []) : ∀ (ls : List Text),
    unlines (ls ++ more) = rows ls ++ unlines more
  | [] => rfl
  | l :: ls => by
    rw [List.cons_append, unlines_cons l (by simp [h]), unlines_append h ls, rows_cons, List.append_assoc,
      List.cons_append]

theorem rows_eq_unlines {ls : List Text} (h : ls ≠ []) : rows ls = unlines ls ++ ['\n'] := by
  obtain ⟨start, l, rfl⟩ : ∃ start l, ls = start ++ [l] := ⟨_, _, (List.dropLast_concat_getLast h).symm⟩
  rw [rows_append, unlines_append (by simp), List.append_assoc]
  simp [rows, unlines, join]

end DocFerry.Text
