import Mathlib.Data.List.TakeWhile
import DocFerry.Proofs.Text.Rewriting
import DocFerry.Text.Blank
/-!
# Blanks and trimming

The blanks are finitely many characters (`isBlank_iff`).  Trimming leaves something to be seen of a text that is not
blank (`isBlankText_trim_iff`), and changes nothing where no blank stands at either end (`trim_of_ends`).  Where a
function keeps single characters and rewrites solid pieces, pieces without blanks at either end, it rewrites the trimmed
text to the trimmed result (`Piecewise.trim`).
-/
namespace DocFerry.Text

/-- The code points of the blanks. -/
def blankCodes : List Nat :=
  [9, 10, 11, 12, 13, 28, 29, 30, 31, 32, 0x85, 0xa0, 0x1680, 0x2000, 0x2001, 0x2002, 0x2003, 0x2004, 0x2005, 0x2006,
    0x2007, 0x2008, 0x2009, 0x200a, 0x2028, 0x2029, 0x202f, 0x205f, 0x3000]

theorem isBlank_iff {c : Char} : isBlank c = true ↔ c.toNat ∈ blankCodes := by
  simp only [isBlank, blankCodes, Bool.or_eq_true, Bool.and_eq_true, decide_eq_true_eq, beq_iff_eq, List.mem_cons,
    List.not_mem_nil, or_false]
  omega

theorem isBlank_of_isSpaceOrTab {c : Char} (h : isSpaceOrTab c = true) : isBlank c = true := by
  rw [isSpaceOrTab, Bool.or_eq_true, beq_iff_eq, beq_iff_eq] at h
  rcases h with rfl | rfl <;> decide

theorem not_mem_of_blank {s : Text} (h : ∀ c ∈ s, isBlank c = true) {c : Char} (hc : isBlank c = false) : c ∉ s :=
  fun hm => by simp [h c hm] at hc

theorem trimStart_append_of_blank {blanks : Text} (hb : ∀ c ∈ blanks, isBlank c = true) (s : Text) :
    trimStart (blanks ++ s) = trimStart s := List.dropWhile_append_of_pos hb

theorem head_trimStart (s : Text) : ∀ c ∈ (trimStart s).head?, isBlank c = false := by
  intro c hc
  have hhead := List.head?_dropWhile_not isBlank s
  rw [trimStart] at hc
  rw [hc] at hhead
  simpa using hhead

theorem trimStart_of_head {s : Text} (h : ∀ c ∈ s.head?, isBlank c = false) : trimStart s = s := by
  cases s with
  | nil => rfl
  | cons c rest => exact List.dropWhile_cons_of_neg (by simp [h c rfl])

theorem trimEnd_append (s t : Text) : trimEnd (s ++ t) = if trimEnd t = [] then trimEnd s else s ++ trimEnd t := by
  unfold trimEnd dropEndWhile
  rw [List.reverse_append, List.dropWhile_append]
  by_cases ht : t.reverse.dropWhile isBlank = []
  · simp [ht]
  · rw [if_neg (by simpa using ht), if_neg (by simpa using ht), List.reverse_append, List.reverse_reverse]

theorem trimEnd_append_of_blank {blanks : Text} (hb : ∀ c ∈ blanks, isBlank c = true) (s : Text) :
    trimEnd (s ++ blanks) = trimEnd s := by
  have hstart := trimStart_append_of_blank (fun c hc => hb c (List.mem_reverse.1 hc)) []
  rw [List.append_nil, trimStart, trimStart, List.dropWhile_nil] at hstart
  rw [trimEnd_append, if_pos (by rw [trimEnd, dropEndWhile, hstart, List.reverse_nil])]

theorem last_trimEnd (s : Text) : ∀ c ∈ (trimEnd s).getLast?, isBlank c = false := by
  intro c hc
  rw [trimEnd, dropEndWhile, List.getLast?_reverse] at hc
  exact head_trimStart s.reverse c hc

theorem trimEnd_of_last {s : Text} (h : ∀ c ∈ s.getLast?, isBlank c = false) : trimEnd s = s := by
  have hkept : s.reverse.dropWhile isBlank = s.reverse := by
    cases hs : s.reverse with
    | nil => rfl
    | cons c rest =>
      have hlast : s.getLast? = some c := by rw [← List.head?_reverse, hs, List.head?_cons]
      exact List.dropWhile_cons_of_neg (by simp [h c hlast])
  rw [trimEnd, dropEndWhile, hkept, List.reverse_reverse]

theorem trimEnd_of_no_blank {s : Text} (h : ∀ c ∈ s, isBlank c = false) : trimEnd s = s :=
  trimEnd_of_last fun c hc => h c (List.mem_of_getLast? hc)

/-- **A text without blanks at its ends** is trimmed. -/
theorem trim_of_ends {s : Text} (h : ∀ c ∈ s.head?, isBlank c = false) (h' : ∀ c ∈ s.getLast?, isBlank c = false) :
    trim s = s := by
  rw [trim, trimStart_of_head h, trimEnd_of_last h']

theorem trim_blank_append {blanks : Text} (hb : ∀ c ∈ blanks, isBlank c = true) (s : Text) :
    trim (blanks ++ s) = trim s := by
  rw [trim, trimStart_append_of_blank hb, trim]

/-- **Blanks at the end** make no difference to the trimmed text. -/
theorem trim_append_blank {blanks : Text} (hb : ∀ c ∈ blanks, isBlank c = true) (s : Text) :
    trim (s ++ blanks) = trim s := by
  have hnone : blanks.dropWhile isBlank = [] := by
    have hstart := trimStart_append_of_blank hb []
    rwa [List.append_nil] at hstart
  unfold trim trimStart
  rw [List.dropWhile_append]
  by_cases hs : s.dropWhile isBlank = []
  · simp [hs, hnone]
  · rw [if_neg (by simpa using hs), trimEnd_append_of_blank hb]

theorem trim_concat_newline (s : Text) : trim (s ++ ['\n']) = trim s := trim_append_blank (by decide) s

theorem trimEnd_isPrefix (s : Text) : trimEnd s <+: s := by
  obtain ⟨rest, hrest⟩ := List.dropWhile_suffix (l := s.reverse) isBlank
  exact ⟨rest.reverse, by rw [trimEnd, dropEndWhile, ← List.reverse_append, hrest, List.reverse_reverse]⟩

theorem trim_within (s : Text) : trim s <:+: s :=
  (trimEnd_isPrefix _).isInfix.trans (List.dropWhile_suffix isBlank).isInfix

/-! ## Blank texts -/

/-- **A blank text**: all its characters are blanks, if it has any. -/
def IsBlankText (s : Text) : Prop := ∀ c ∈ s, isBlank c = true

instance (s : Text) : Decidable (IsBlankText s) := inferInstanceAs (Decidable (∀ c ∈ s, isBlank c = true))

theorem not_isBlankText_iff {s : Text} : ¬ IsBlankText s ↔ ∃ c ∈ s, isBlank c = false := by
  simp [IsBlankText]

/-- **What can be seen** is not trimmed away. -/
theorem mem_trim {c : Char} (hc : isBlank c = false) {s : Text} (h : c ∈ s) : c ∈ trim s := by
  have hdrop : ∀ {u : Text}, c ∈ u → c ∈ u.dropWhile isBlank := by
    intro u hu
    rw [← List.takeWhile_append_dropWhile (p := isBlank) (l := u), List.mem_append] at hu
    exact hu.resolve_left fun ht => by simp [List.mem_takeWhile_imp ht] at hc
  rw [trim, trimEnd, dropEndWhile, List.mem_reverse]
  exact hdrop (List.mem_reverse.2 (hdrop h))

/-- **Trimming leaves something that can be seen**, if there is anything of the kind. -/
theorem isBlankText_trim_iff {s : Text} : IsBlankText (trim s) ↔ IsBlankText s := by
  refine ⟨fun h c hc => ?_, fun h c hc => h c ((trim_within s).subset hc)⟩
  by_cases hb : isBlank c = true
  · exact hb
  · exact h c (mem_trim (Bool.eq_false_iff.2 hb) hc)

theorem trim_eq_nil_iff {s : Text} : trim s = [] ↔ IsBlankText s := by
  refine ⟨fun h => isBlankText_trim_iff.1 (h ▸ nofun), fun h => ?_⟩
  have hnil : trimStart s = [] := List.dropWhile_eq_nil_iff.2 h
  rw [trim, hnil]
  rfl

theorem head_trim (s : Text) : ∀ c ∈ (trim s).head?, isBlank c = false := by
  intro c hc
  obtain ⟨rest, hrest⟩ := trimEnd_isPrefix (trimStart s)
  have hhead : (trimStart s).head? = some c := by
    rw [← hrest, List.head?_append, ← trim, Option.mem_def.1 hc, Option.some_or]
  exact head_trimStart s c hhead

/-- **A trimmed text** has no blanks at its ends. -/
theorem trim_trim (s : Text) : trim (trim s) = trim s := trim_of_ends (head_trim s) (last_trimEnd (trimStart s))

/-! ## Solid pieces -/

/-- **A solid piece** of text: something, with no blank at either end. -/
structure Solid (s : Text) : Prop where
  first : s.head?.any (!isBlank ·) = true
  last : s.getLast?.any (!isBlank ·) = true

theorem Solid.ne_nil {s : Text} (h : Solid s) : s ≠ [] := by
  rintro rfl
  exact absurd h.first (by simp)

theorem Solid.trimStart_append {s : Text} (h : Solid s) (rest : Text) : trimStart (s ++ rest) = s ++ rest := by
  cases s with
  | nil => exact absurd rfl h.ne_nil
  | cons c s =>
    have hc : ¬ isBlank c = true := by simpa using h.first
    rw [trimStart, List.cons_append, List.dropWhile_cons, if_neg hc]

theorem Solid.trimEnd_eq {s : Text} (h : Solid s) : trimEnd s = s := by
  obtain ⟨start, c, rfl⟩ : ∃ start c, s = start ++ [c] := ⟨_, _, (List.dropLast_concat_getLast h.ne_nil).symm⟩
  have hc : isBlank c = false := by simpa using h.last
  have hlast : trimEnd [c] = [c] := by simp [trimEnd, dropEndWhile, hc]
  rw [trimEnd_append, hlast, if_neg (by simp)]

/-- **A solid piece** may hold anything between two solid pieces. -/
theorem Solid.around {a b : Text} (ha : Solid a) (hb : Solid b) (s : Text) : Solid (a ++ s ++ b) := by
  constructor
  · cases a with
    | nil => exact absurd rfl ha.ne_nil
    | cons c a => exact ha.first
  · have hlast := hb.last
    rw [List.getLast?_append]
    cases hb' : b.getLast? with
    | none => exact absurd (List.getLast?_eq_none_iff.1 hb') hb.ne_nil
    | some c => rwa [hb'] at hlast

/-- **Rewriting piece by piece**: characters are kept, and solid pieces become solid pieces. -/
inductive Piecewise (f : Text → Text) : Text → Text → Prop where
  | nil : Piecewise f [] []
  | char {c : Char} {s s' : Text} (hc : Rewrites f [c] [c]) (h : Piecewise f s s') : Piecewise f (c :: s) (c :: s')
  | solid {t t' s s' : Text} (ht : Rewrites f t t') (hs : Solid t) (hs' : Solid t') (h : Piecewise f s s') :
    Piecewise f (t ++ s) (t' ++ s')

namespace Piecewise

variable {f : Text → Text} {s s' t t' : Text}

theorem rewrites (h : Piecewise f s s') : Rewrites f s s' := by
  induction h with
  | nil => exact .nil f
  | char hc _ ih => exact hc.append ih
  | solid ht _ _ _ ih => exact ht.append ih

theorem append (h : Piecewise f s s') (k : Piecewise f t t') : Piecewise f (s ++ t) (s' ++ t') := by
  induction h with
  | nil => exact k
  | char hc _ ih => exact ih.char hc
  | solid ht hs hs' _ ih =>
    rw [List.append_assoc, List.append_assoc]
    exact ih.solid ht hs hs'

theorem of_chars : ∀ {s : Text}, (∀ c ∈ s, Rewrites f [c] [c]) → Piecewise f s s
  | [], _ => .nil
  | c :: _, h => (of_chars fun a ha => h a (List.mem_cons_of_mem c ha)).char (h c List.mem_cons_self)

theorem of_solid (ht : Rewrites f t t') (hs : Solid t) (hs' : Solid t') : Piecewise f t t' := by
  have h := Piecewise.nil.solid ht hs hs'
  rwa [List.append_nil, List.append_nil] at h

theorem eq_nil_iff (h : Piecewise f s s') : s = [] ↔ s' = [] := by
  cases h with
  | nil => simp
  | char => simp
  | solid _ hs hs' => simp [hs.ne_nil, hs'.ne_nil]

theorem trimStart (h : Piecewise f s s') : Piecewise f (Text.trimStart s) (Text.trimStart s') := by
  induction h with
  | nil => exact .nil
  | @char c s s' hc h ih =>
    unfold Text.trimStart at ih ⊢
    rw [List.dropWhile_cons, List.dropWhile_cons]
    split
    · exact ih
    · exact h.char hc
  | solid ht hs hs' h =>
    rw [hs.trimStart_append, hs'.trimStart_append]
    exact h.solid ht hs hs'

theorem trimEnd (h : Piecewise f s s') : Piecewise f (Text.trimEnd s) (Text.trimEnd s') := by
  induction h with
  | nil => exact .nil
  | @char c s s' hc h ih =>
    have hsplit : ∀ u : Text, Text.trimEnd (c :: u) =
        if Text.trimEnd u = [] then Text.trimEnd [c] else c :: Text.trimEnd u := trimEnd_append [c]
    rw [hsplit s, hsplit s']
    simp only [ih.eq_nil_iff]
    split
    · by_cases hb : isBlank c
      · simpa [Text.trimEnd, dropEndWhile, hb] using Piecewise.nil
      · simpa [Text.trimEnd, dropEndWhile, hb] using Piecewise.nil.char hc
    · exact ih.char hc
  | solid ht hs hs' h ih =>
    rw [trimEnd_append, trimEnd_append]
    simp only [ih.eq_nil_iff]
    split
    · rw [hs.trimEnd_eq, hs'.trimEnd_eq]
      exact of_solid ht hs hs'
    · exact ih.solid ht hs hs'

/-- **The trimmed text** is rewritten to the trimmed result. -/
theorem trim (h : Piecewise f s s') : Piecewise f (Text.trim s) (Text.trim s') := h.trimStart.trimEnd

end Piecewise

end DocFerry.Text
