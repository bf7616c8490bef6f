import Mathlib.Data.List.TakeWhile
import DocFerry.Text.Lines
import DocFerry.Yaml.Scalar
/-!
# What stands between double quotes

Between double quotes a character stands for itself, unless it is a quote or a backslash; a backslash opens an escape,
by a letter or by the number of a character (`Stands`).  Each quote and each backslash that is stood for takes one more
character to write (`Stands.length_le`).  A text of one line is read up to its closing quote as what it stands for
(`quotedScalar_of_stands`).
-/
namespace DocFerry.Yaml

/-- **What a text between double quotes stands for**, if none of its lines is folded. -/
inductive Stands : (inside meant : Text) → Prop where
  | nil : Stands [] []
  | char {c : Char} {inside meant : Text} (hq : c ≠ '"') (hb : c ≠ '\\') (h : Stands inside meant) :
      Stands (c :: inside) (c :: meant)
  | letter {c : Char} {n : Nat} {inside meant : Text} (hn : letterEscapes.lookup c = some n) (h : Stands inside meant) :
      Stands ('\\' :: c :: inside) (Char.ofNat n :: meant)
  | code {c : Char} {digits : Text} {n : Nat} {inside meant : Text} (hw : codeEscapes.lookup c = some digits.length)
      (hn : hexNumber? digits = some n) (hv : n.isValidChar) (h : Stands inside meant) :
      Stands ('\\' :: c :: (digits ++ inside)) (Char.ofNat n :: meant)

variable {inside meant after : Text}

theorem Stands.of_append (start : Text) (hs : ∀ c ∈ start, c ≠ '"' ∧ c ≠ '\\')
    (h : Stands (start ++ inside) meant) : ∃ rest, meant = start ++ rest ∧ Stands inside rest := by
  induction start generalizing meant with
  | nil => exact ⟨meant, rfl, h⟩
  | cons a start ih =>
    rw [List.cons_append] at h
    generalize hfollowing : start ++ inside = following at h
    cases h with
    | char hq hb h =>
      obtain ⟨rest, rfl, hrest⟩ := ih (fun c hc => hs c (List.mem_cons_of_mem a hc)) (hfollowing ▸ h)
      exact ⟨rest, rfl, hrest⟩
    | letter => exact absurd rfl (hs _ List.mem_cons_self).2
    | code => exact absurd rfl (hs _ List.mem_cons_self).2

theorem ne_quote_of_codeEscapes {c : Char} {width : Nat} (h : codeEscapes.lookup c = some width) : c ≠ '"' := by
  rintro rfl
  cases h

theorem ne_quote_of_letterEscapes {c : Char} {n : Nat} (h : letterEscapes.lookup c = some n)
    (hn : Char.ofNat n = '\\') : c ≠ '"' := by
  rintro rfl
  have hquote : letterEscapes.lookup '"' = some 34 := rfl
  obtain rfl : 34 = n := Option.some.inj (hquote.symm.trans h)
  exact absurd hn (by decide)

/-- **Each quote and each backslash takes one more character** than it stands for. -/
theorem Stands.length_le (h : Stands inside meant) :
    meant.length + meant.count '\\' + inside.count '"' ≤ inside.length := by
  have hslash : '\\' ≠ '"' := by decide
  induction h with
  | nil => simp
  | char hq hb h ih =>
    simp only [List.length_cons, List.count_cons_of_ne hq, List.count_cons_of_ne hb]
    omega
  | @letter c n inside meant hn h ih =>
    simp only [List.length_cons, List.count_cons_of_ne hslash]
    by_cases hmeant : Char.ofNat n = '\\'
    · rw [hmeant, List.count_cons_self, List.count_cons_of_ne (ne_quote_of_letterEscapes hn hmeant)]
      omega
    · have hcount : (c :: inside).count '"' ≤ inside.count '"' + 1 := by
        rw [List.count_cons]
        split <;> omega
      rw [List.count_cons_of_ne hmeant]
      omega
  | @code c digits n inside meant hw hn hv h ih =>
    have hdigits := List.count_le_length (a := '"') (l := digits)
    have hcount : (Char.ofNat n :: meant).count '\\' ≤ meant.count '\\' + 1 := by
      rw [List.count_cons]
      split <;> omega
    simp only [List.length_cons, List.length_append, List.count_cons_of_ne hslash,
      List.count_cons_of_ne (ne_quote_of_codeEscapes hw), List.count_append]
    omega

theorem letterEscapes_of_codeEscapes {c : Char} {width : Nat} (h : codeEscapes.lookup c = some width) :
    letterEscapes.lookup c = none := by
  have hmem : (c, width) ∈ codeEscapes := by
    obtain ⟨before, rest, hsplit, -⟩ := List.lookup_eq_some_iff.1 h
    rw [hsplit]
    exact List.mem_append_right _ List.mem_cons_self
  have hall : ∀ p ∈ codeEscapes, letterEscapes.lookup p.1 = none := by decide
  exact hall _ hmem

/-! ## A word -/

namespace Cursor

variable {c : Cursor} {a : Char}

theorem rest_next (h : c.rest = a :: after) : c.next.rest = after := by
  unfold next
  simp only [h]
  split <;> rfl

theorem rest_skip : ∀ (n : Nat) (c : Cursor), (c.skip n).rest = c.rest.drop n
  | 0, c => rfl
  | n + 1, c => by
    rw [skip, rest_skip n]
    cases hc : c.rest with
    | nil => simp [next, hc]
    | cons a rest => rw [rest_next hc, List.drop_succ_cons]

theorem peek_eq (h : c.rest = a :: after) : c.peek = a := by rw [peek, h, List.headD_cons]

theorem run_append {p : Char → Bool} {found rest : Text} (h : c.rest = found ++ rest)
    (hf : ∀ ch ∈ found, p ch = true) (hr : ∀ ch ∈ rest.head?, p ch = false) :
    (c.run p).1 = found ∧ (c.run p).2.rest = rest := by
  have hrest : rest.takeWhile p = [] := by
    cases rest with
    | nil => rfl
    | cons a rest => simp [hr a rfl]
  have hfound : c.rest.takeWhile p = found := by
    rw [h, List.takeWhile_append_of_pos hf, hrest, List.append_nil]
  refine ⟨hfound, ?_⟩
  rw [run, hfound, rest_skip, h, List.drop_left]

theorem run_of_not {p : Char → Bool} (h : c.rest = a :: after) (ha : p a = false) : c.run p = ([], c) := by
  simp [run, h, ha, skip]

theorem run_of {p : Char → Bool} (h : c.rest = a :: after) (ha : p a = true) :
    c.run p = (a :: (c.next.run p).1, (c.next.run p).2) := by
  simp [run, h, ha, skip, rest_next h]

end Cursor

/-- **What is read at a stop inside a word**, if the word goes on there. -/
def quotedPiece (fuel : Nat) (c : Cursor) : Except Fault (Option (Text × Cursor)) :=
  if c.peek == '\'' then .ok (some (['\''], c.next))
  else if c.peek == '\\' then (quotedEscape fuel c.next).map some
  else .ok none

section

variable {c c' : Cursor} {a : Char} {more : Text} {fuel : Nat}

theorem quotedWord_eq (fuel : Nat) (c : Cursor) : quotedWord true (fuel + 1) c =
    (quotedPiece fuel (c.run (!isQuotedStop ·)).2).bind fun piece =>
      match piece with
      | none => .ok (c.run (!isQuotedStop ·))
      | some (more, c') =>
        (quotedWord true fuel c').map fun r => ((c.run (!isQuotedStop ·)).1 ++ more ++ r.1, r.2) := by
  rw [quotedWord]
  generalize c.run (!isQuotedStop ·) = found
  obtain ⟨word, c⟩ := found
  unfold quotedPiece
  by_cases hmark : c.peek = '\''
  · simp [hmark]
    rfl
  by_cases hescape : c.peek = '\\'
  · simp [hescape]
    rfl
  · simp [hmark, hescape]
    rfl

theorem quotedWord_of_plain (h : c.rest = a :: after) (ha : isQuotedStop a = false) :
    quotedWord true (fuel + 1) c = (quotedWord true (fuel + 1) c.next).map fun r => (a :: r.1, r.2) := by
  rw [quotedWord_eq, quotedWord_eq, Cursor.run_of (p := (!isQuotedStop ·)) h (by simp [ha])]
  rcases quotedPiece fuel (c.next.run (!isQuotedStop ·)).2 with fault | _ | ⟨more, c'⟩
  · rfl
  · rfl
  · simp only [Except.bind]
    rcases quotedWord true fuel c' with fault | r
    · rfl
    · rfl

theorem quotedWord_of_piece (h : c.rest = a :: after) (ha : isQuotedStop a = true)
    (hp : quotedPiece fuel c = .ok (some (more, c'))) :
    quotedWord true (fuel + 1) c = (quotedWord true fuel c').map fun r => (more ++ r.1, r.2) := by
  rw [quotedWord_eq, Cursor.run_of_not h (by simp [ha]), hp]
  rfl

theorem quotedWord_of_end (h : c.rest = a :: after) (ha : a = ' ' ∨ a = '\t' ∨ a = '"') :
    quotedWord true (fuel + 1) c = .ok ([], c) := by
  have hpiece : quotedPiece fuel c = .ok none := by
    rw [quotedPiece, Cursor.peek_eq h]
    rcases ha with rfl | rfl | rfl <;> rfl
  have hstop : isQuotedStop a = true := by rcases ha with rfl | rfl | rfl <;> rfl
  rw [quotedWord_eq, Cursor.run_of_not h (by simp [hstop]), hpiece]
  rfl

theorem quotedPiece_of_mark (h : c.rest = '\'' :: after) : quotedPiece fuel c = .ok (some (['\''], c.next)) := by
  rw [quotedPiece, Cursor.peek_eq h, if_pos (by decide)]

theorem quotedPiece_of_letter {n : Nat} (h : c.rest = '\\' :: a :: after) (hn : letterEscapes.lookup a = some n) :
    quotedPiece fuel c = .ok (some ([Char.ofNat n], c.next.next)) := by
  rw [quotedPiece, Cursor.peek_eq h, if_neg (by decide), if_pos (by decide), quotedEscape,
    Cursor.peek_eq (Cursor.rest_next h), hn]
  rfl

theorem escapedCharacter_of_valid {n : Nat} (hv : n.isValidChar) (c : Cursor) :
    escapedCharacter n c = .ok ([Char.ofNat n], c) := by
  have hhalf : (0xd800 ≤ n && n ≤ 0xdbff) = false := by
    rcases hv with hv | hv <;> simp <;> omega
  have hsmall : n < 0x110000 := by rcases hv with hv | hv <;> omega
  simp only [escapedCharacter, hhalf, Bool.false_eq_true, if_false, character, if_neg (by omega : ¬ 0x80000000 ≤ n),
    if_neg (by omega : ¬ 0x110000 ≤ n)]
  rfl

theorem quotedPiece_of_code (fuel : Nat) {digits : Text} {n : Nat} (h : c.rest = '\\' :: a :: (digits ++ after))
    (hw : codeEscapes.lookup a = some digits.length) (hn : hexNumber? digits = some n) (hv : n.isValidChar) :
    ∃ c', quotedPiece fuel c = .ok (some ([Char.ofNat n], c')) ∧ c'.rest = after := by
  have hletter := Cursor.rest_next h
  have hdigits := Cursor.rest_next hletter
  have hcode : escapeCode? c.next = some (some (n, c.next.next.skip digits.length)) := by
    simp [escapeCode?, Cursor.peek_eq hletter, hw, hdigits, hn]
  refine ⟨c.next.next.skip digits.length, ?_, by rw [Cursor.rest_skip, hdigits, List.drop_left]⟩
  rw [quotedPiece, Cursor.peek_eq h, if_neg (by decide), if_pos (by decide), quotedEscape, Cursor.peek_eq hletter,
    letterEscapes_of_codeEscapes hw, hcode]
  simp only [escapedCharacter_of_valid hv]
  rfl

theorem isBreakOrEnd_eq_false {a : Char} (ha : Text.isLineBreak a = false) (he : a ≠ endMark) :
    isBreakOrEnd a = false := by
  have hnewline : a ≠ '\n' := by
    rintro rfl
    exact absurd ha (by decide)
  simp_all [Text.isLineBreak, isBreakOrEnd, isBreak]

/-! ## Words and blanks -/

def IsSpaceOrTab (ch : Char) : Prop := ch = ' ' ∨ ch = '\t'

/-- **A word is read as what it stands for**, up to blanks or the closing quote. -/
def ReadsWord (after inside meant : Text) (fuel : Nat) (c : Cursor) : Prop :=
  ∃ word left rest c', quotedWord true fuel c = .ok (word, c') ∧ meant = word ++ rest ∧ Stands left rest ∧
    left <:+ inside ∧ c'.rest = left ++ '"' :: after ∧ ∀ ch ∈ left.head?, IsSpaceOrTab ch

theorem ReadsWord.step {whole : Text} {fuel' : Nat} (h : ReadsWord after inside meant fuel c')
    (hword : quotedWord true fuel' c = (quotedWord true fuel c').map fun r => (a :: r.1, r.2)) (hs : inside <:+ whole) :
    ReadsWord after whole (a :: meant) fuel' c := by
  obtain ⟨word, left, rest, c', hread, rfl, hstands, hsuffix, hc', hhead⟩ := h
  refine ⟨a :: word, left, rest, c', ?_, rfl, hstands, hsuffix.trans hs, hc', hhead⟩
  rw [hword, hread]
  rfl

theorem readsWord (h : Stands inside meant) (hb : ∀ ch ∈ inside, isBreakOrEnd ch = false) :
    ∀ {fuel : Nat} {c : Cursor}, c.rest = inside ++ '"' :: after → inside.length ≤ fuel →
      ReadsWord after inside meant (fuel + 1) c := by
  induction h with
  | nil =>
    intro fuel c hc _
    exact ⟨[], [], [], c, quotedWord_of_end hc (by simp), rfl, .nil, List.suffix_rfl, hc, by simp⟩
  | @char a inside meant hq he h ih =>
    intro fuel c hc hfuel
    have hrest := Cursor.rest_next hc
    have hsuffix : inside <:+ a :: inside := List.suffix_cons a inside
    replace ih := fun {fuel} => @ih (fun ch hch => hb ch (List.mem_cons_of_mem a hch)) fuel _ hrest
    rw [List.length_cons] at hfuel
    by_cases hblank : IsSpaceOrTab a
    · have hend : quotedWord true (fuel + 1) c = .ok ([], c) := quotedWord_of_end hc (hblank.imp_right .inl)
      exact ⟨[], _, _, c, hend, rfl, .char hq he h, List.suffix_rfl, hc, by simpa using hblank⟩
    by_cases hmark : a = '\''
    · subst hmark
      obtain ⟨fuel, rfl⟩ := Nat.exists_eq_add_of_le' (by omega : 1 ≤ fuel)
      exact (ih (by omega)).step (quotedWord_of_piece hc rfl (quotedPiece_of_mark hc)) hsuffix
    · have hplain : isQuotedStop a = false := by simp_all [isQuotedStop, IsSpaceOrTab]
      exact (ih (by omega)).step (quotedWord_of_plain hc hplain) hsuffix
  | @letter a n inside meant hn h ih =>
    intro fuel c hc hfuel
    have hrest := Cursor.rest_next (Cursor.rest_next hc)
    simp only [List.length_cons] at hfuel
    obtain ⟨fuel, rfl⟩ := Nat.exists_eq_add_of_le' (by omega : 1 ≤ fuel)
    have hread := ih (fun ch hch => hb ch (by simp [hch])) hrest (by omega : inside.length ≤ fuel)
    exact hread.step (quotedWord_of_piece hc rfl (quotedPiece_of_letter hc hn)) ⟨['\\', a], rfl⟩
  | @code a digits n inside meant hw hn hv h ih =>
    intro fuel c hc hfuel
    simp only [List.cons_append, List.append_assoc] at hc
    simp only [List.length_cons, List.length_append] at hfuel
    obtain ⟨fuel, rfl⟩ := Nat.exists_eq_add_of_le' (by omega : 1 ≤ fuel)
    obtain ⟨c', hpiece, hrest⟩ := quotedPiece_of_code (fuel + 1) hc hw hn hv
    have hread := ih (fun ch hch => hb ch (by simp [hch])) hrest (by omega : inside.length ≤ fuel)
    exact hread.step (quotedWord_of_piece hc rfl hpiece) ⟨'\\' :: a :: digits, rfl⟩

theorem lineBreak?_eq_none (h : isBreakOrEnd c.peek = false) : c.lineBreak? = none := by
  have hbreak : isBreak c.peek = false := (Bool.or_eq_false_iff.1 h).1
  have hnone : (c.peek == '\n' || c.peek.toNat == 0x85) = false := by
    simp only [isBreak, Bool.or_assoc, Bool.or_eq_false_iff] at hbreak ⊢
    exact ⟨hbreak.1, hbreak.2.1⟩
  simp [Cursor.lineBreak?, hbreak, hnone]

/-- **Blanks inside a line stand for themselves.** -/
theorem exists_blanks (fuel : Nat) (h : Stands inside meant) (hb : ∀ ch ∈ inside, isBreakOrEnd ch = false)
    (hc : c.rest = inside ++ '"' :: after) :
    ∃ blanks left rest c', quotedSpaces? fuel c = some (blanks, c') ∧ meant = blanks ++ rest ∧ Stands left rest ∧
      left <:+ inside ∧ c'.rest = left ++ '"' :: after ∧ ∀ ch ∈ left.head?, ¬ IsSpaceOrTab ch := by
  let p : Char → Bool := fun ch => ch == ' ' || ch == '\t'
  have hp : ∀ ch, p ch = true ↔ IsSpaceOrTab ch := fun ch => by simp [p, IsSpaceOrTab]
  obtain ⟨blanks, left, rfl, hblanks, hleft⟩ : ∃ blanks left, inside = blanks ++ left ∧
      (∀ ch ∈ blanks, p ch = true) ∧ ∀ ch ∈ left.head?, ¬ IsSpaceOrTab ch := by
    refine ⟨_, _, List.takeWhile_append_dropWhile.symm, fun ch hch => List.mem_takeWhile_imp (p := p) hch, ?_⟩
    intro ch hch hblank
    have hhead := List.head?_dropWhile_not p inside
    rw [Option.mem_def.1 hch] at hhead
    simp [(hp ch).2 hblank] at hhead
  have hplain : ∀ ch ∈ blanks, ch ≠ '"' ∧ ch ≠ '\\' := by
    intro ch hch
    rcases (hp ch).1 (hblanks ch hch) with rfl | rfl <;> decide
  have hhead : ∀ ch ∈ (left ++ '"' :: after).head?, p ch = false ∧ isBreakOrEnd ch = false := by
    cases left with
    | nil => rintro _ ⟨⟩; exact ⟨rfl, rfl⟩
    | cons a left =>
      rintro _ ⟨⟩
      exact ⟨Bool.eq_false_iff.2 fun ha => hleft a rfl ((hp a).1 ha), hb a (by simp)⟩
  obtain ⟨rest, rfl, hstands⟩ := h.of_append _ hplain
  obtain ⟨hfound, hrest⟩ :=
    Cursor.run_append (hc.trans (List.append_assoc _ _ _)) hblanks fun ch hch => (hhead ch hch).1
  generalize hrun : c.run p = found at hfound hrest
  obtain ⟨found, c'⟩ := found
  obtain rfl : found = blanks := hfound
  refine ⟨found, left, rest, c', ?_, rfl, hstands, List.suffix_append _ _, hrest, hleft⟩
  have hpeek : isBreakOrEnd c'.peek = false := by
    rw [Cursor.peek, hrest]
    cases left with
    | nil => rfl
    | cons a left => exact (hhead a rfl).2
  have hend : (c'.peek == endMark) = false := (Bool.or_eq_false_iff.1 hpeek).2
  rw [quotedSpaces?, show c.run (fun ch => ch == ' ' || ch == '\t') = _ from hrun]
  simp only [hend, lineBreak?_eq_none hpeek, Bool.false_eq_true, if_false]

theorem quotedRest_of_stands (h : Stands inside meant) (hb : ∀ ch ∈ inside, isBreakOrEnd ch = false)
    (hc : c.rest = inside ++ '"' :: after) (hfuel : inside.length ≤ fuel) :
    ∃ c', quotedRest true (fuel + 1) c = .ok (meant, c') ∧ c'.rest = after := by
  induction fuel using Nat.strongRecOn generalizing inside meant c with
  | ind fuel ih =>
    obtain ⟨word, left, rest, c₁, hword, rfl, hstands, hsuffix, hc₁, hhead⟩ := readsWord h hb hc hfuel
    have hleft : ∀ ch ∈ left, isBreakOrEnd ch = false := fun ch hch => hb ch (hsuffix.subset hch)
    rw [quotedRest, hword]
    cases left with
    | nil =>
      cases hstands
      refine ⟨c₁.next, ?_, Cursor.rest_next hc₁⟩
      have hclose : (c₁.peek == '"') = true := by rw [Cursor.peek_eq hc₁]; rfl
      show (if (c₁.peek == '"') = true then _ else _) = _
      rw [if_pos hclose, List.append_nil]
    | cons a left =>
      obtain ⟨blanks, more, rest, c₂, hblanks, rfl, hmore, hwithin, hc₂, hstop⟩ :=
        exists_blanks (fuel + 1) hstands hleft hc₁
      have hclose : ¬ (c₁.peek == '"') = true := by
        rw [Cursor.peek_eq hc₁]
        rcases hhead a rfl with rfl | rfl <;> decide
      have hshorter : more.length < (a :: left).length :=
        Nat.lt_of_le_of_ne hwithin.length_le fun he => hstop a (by rw [hwithin.eq_of_length he]; rfl) (hhead a rfl)
      have hlength := hsuffix.length_le
      have hpositive : 1 ≤ fuel := by
        rw [List.length_cons] at hlength
        omega
      obtain ⟨fuel, rfl⟩ := Nat.exists_eq_add_of_le' hpositive
      obtain ⟨c', hrest, hc'⟩ :=
        ih fuel (Nat.lt_succ_self fuel) hmore (fun ch hch => hleft ch (hwithin.subset hch)) hc₂ (by omega)
      refine ⟨c', ?_, hc'⟩
      show (if (c₁.peek == '"') = true then _ else (formed (quotedSpaces? (fuel + 1 + 1) c₁)).bind _) = _
      rw [if_neg hclose, hblanks]
      show (quotedRest true (fuel + 1) c₂).bind _ = _
      rw [hrest, ← List.append_assoc]
      rfl

end

/-- **A text between double quotes is read as what it stands for**, up to its closing quote, if it is of one line. -/
theorem quotedScalar_of_stands {c : Cursor} (h : Stands inside meant) (hb : ∀ ch ∈ inside, isBreakOrEnd ch = false)
    (hc : c.rest = '"' :: (inside ++ '"' :: after)) :
    ∃ c', quotedScalar true c = .ok (meant, c') ∧ c'.rest = after := by
  have hlength : inside.length ≤ c.rest.length := by
    simp only [hc, List.length_cons, List.length_append]
    omega
  exact quotedRest_of_stands h hb (Cursor.rest_next hc) hlength

end DocFerry.Yaml
