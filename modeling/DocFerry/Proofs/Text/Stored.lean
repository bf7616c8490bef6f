import DocFerry.Text.Lines
import DocFerry.Text.Utf8
/-!
# Texts as they are stored

The octets of a character, whatever its length, lead the reading machine back to where a character may start, with that
character read (`piecesFrom_utf8EncodeChar`).  So every text is read back from its octets, by a strict reader and by a
lenient one (`decode?_encode`, `decodeLossy_encode`).

Newlines are written with a line feed, a carriage return, or both (`Newline`), and are read back as newlines if the text
has no carriage return of its own (`unifyNewlines_write`).  Reading them changes nothing but line ends: a text is read
piece by piece unless it is cut inside a line end (`unifyNewlines_append`), and nothing of one line is found that was
not there before (`infix_of_unifyNewlines`).
-/
namespace DocFerry.Text.Utf8

theorem toNat_octet {n : Nat} (h : n < 256) : (UInt8.ofNat n).toNat = n := by
  rw [UInt8.toNat_ofNat']
  omega

section Machine

variable {b : Nat} {p : Partial} {rest : Octets}

theorem start_two (h : 0xc2 ≤ b) (h' : b < 0xe0) : start b = .lead ⟨1, 0x80, 0xbf, b - 0xc0⟩ := by
  rw [start, if_neg (by omega), if_neg (by omega), if_pos h']

theorem start_three (h : 0xe0 ≤ b) (h' : b < 0xf0) :
    start b = .lead ⟨2, if b = 0xe0 then 0xa0 else 0x80, if b = 0xed then 0x9f else 0xbf, b - 0xe0⟩ := by
  rw [start, if_neg (by omega), if_neg (by omega), if_neg (by omega), if_pos h']

theorem start_four (h : 0xf0 ≤ b) (h' : b < 0xf5) :
    start b = .lead ⟨3, if b = 0xf0 then 0x90 else 0x80, if b = 0xf4 then 0x8f else 0xbf, b - 0xf0⟩ := by
  rw [start, if_neg (by omega), if_neg (by omega), if_neg (by omega), if_neg (by omega), if_pos h']

theorem piecesFrom_lead (hb : b < 256) (h : start b = .lead p) :
    piecesFrom none (UInt8.ofNat b :: rest) = piecesFrom (some p) rest := by
  rw [piecesFrom, toNat_octet hb, h]

/-- **An octet in range that is not the last one** goes on with the sequence. -/
theorem piecesFrom_more (hb : b < 256) (hrange : p.low ≤ b ∧ b ≤ p.high) (hleft : p.left ≠ 1) :
    piecesFrom (some p) (UInt8.ofNat b :: rest) =
      piecesFrom (some ⟨p.left - 1, 0x80, 0xbf, p.value * 64 + (b - 0x80)⟩) rest := by
  rw [piecesFrom, toNat_octet hb, if_pos hrange]
  exact if_neg hleft

/-- **The last octet of a sequence** completes its character. -/
theorem piecesFrom_last (c : Char) (hb : b < 256) (hrange : p.low ≤ b ∧ b ≤ p.high) (hleft : p.left = 1)
    (hc : p.value * 64 + (b - 0x80) = c.toNat) :
    piecesFrom (some p) (UInt8.ofNat b :: rest) = some c :: piecesFrom none rest := by
  rw [piecesFrom, toNat_octet hb, if_pos hrange]
  simp only [hleft, if_true, hc, Char.ofNat_toNat]

end Machine

/-- **A character is read back from its octets**, which leave nothing begun. -/
theorem piecesFrom_utf8EncodeChar (c : Char) (rest : Octets) :
    piecesFrom none (String.utf8EncodeChar c ++ rest) = some c :: piecesFrom none rest := by
  -- What is no code point of a character is what the ranges of the second octets rule out.
  have hvalid : c.toNat < 0xd800 ∨ 0xdfff < c.toNat ∧ c.toNat < 0x110000 := c.valid
  rw [String.utf8EncodeChar]
  simp only [Char.toNat_val]
  split
  · rename_i hone
    rw [List.singleton_append, piecesFrom, toNat_octet (by omega), start, if_pos (by omega), Char.ofNat_toNat]
  split
  · rename_i hone htwo
    rw [List.cons_append, List.singleton_append, piecesFrom_lead (by omega) (start_two (by omega) (by omega)),
      piecesFrom_last c (by omega) (by simp only; omega) rfl (by simp only; omega)]
  split
  · rename_i hone htwo hthree
    rw [List.cons_append, List.cons_append, List.singleton_append,
      piecesFrom_lead (by omega) (start_three (by omega) (by omega)),
      piecesFrom_more (by omega) (by simp only; split <;> split <;> omega) (by simp),
      piecesFrom_last c (by omega) (by simp only; omega) rfl (by simp only; omega)]
  · rename_i hone htwo hthree
    rw [List.cons_append, List.cons_append, List.cons_append, List.singleton_append,
      piecesFrom_lead (by omega) (start_four (by omega) (by omega)),
      piecesFrom_more (by omega) (by simp only; split <;> split <;> omega) (by simp),
      piecesFrom_more (by omega) (by simp only; omega) (by simp),
      piecesFrom_last c (by omega) (by simp only; omega) rfl (by simp only; omega)]

/-- **Every text is read back from its octets**, and nothing in them is ill formed. -/
theorem pieces_encode : ∀ s : Text, pieces (encode s) = s.map some
  | [] => rfl
  | c :: rest => by
    have ih := pieces_encode rest
    unfold pieces encode at ih ⊢
    rw [List.flatMap_cons, piecesFrom_utf8EncodeChar, ih, List.map_cons]

theorem decode?_encode (s : Text) : decode? (encode s) = some s := by
  rw [decode?, pieces_encode]
  induction s with
  | nil => rfl
  | cons c rest ih =>
    rw [List.map_cons, List.mapM_cons, ih]
    rfl

theorem decodeLossy_encode (s : Text) : decodeLossy (encode s) = s := by
  rw [decodeLossy, pieces_encode, List.map_map]
  exact List.map_id s

end DocFerry.Text.Utf8

namespace DocFerry.Text

/-- **How a newline is written.** -/
inductive Newline where
  | lineFeed
  | both
  | carriageReturn
  deriving DecidableEq, Repr

def Newline.text : Newline → Text
  | .lineFeed => ['\n']
  | .both => ['\r', '\n']
  | .carriageReturn => ['\r']

/-- **A text with its newlines written in one way.** -/
def Newline.write (n : Newline) (t : Text) : Text := t.flatMap fun c => if c = '\n' then n.text else [c]

/-! ## Reading newlines -/

/-- **Along the line ends of a text**: a carriage return with its line feed is taken at once. -/
@[elab_as_elim]
theorem lineEnds_induction {P : Text → Prop} (nil : P []) (both : ∀ rest, P rest → P ('\r' :: '\n' :: rest))
    (char : ∀ c rest, (c = '\r' → rest.head? ≠ some '\n') → P rest → P (c :: rest)) : ∀ s, P s
  | [] => nil
  | [c] => char c [] (fun _ => by simp) nil
  | c :: d :: rest => by
    by_cases h : c = '\r' ∧ d = '\n'
    · obtain ⟨rfl, rfl⟩ := h
      exact both rest (lineEnds_induction nil both char rest)
    · exact char c (d :: rest) (fun hc he => h ⟨hc, by simpa using he⟩) (lineEnds_induction nil both char (d :: rest))

theorem unifyNewlines_both (rest : Text) : unifyNewlines ('\r' :: '\n' :: rest) = '\n' :: unifyNewlines rest := by
  rw [unifyNewlines]

theorem unifyNewlines_char {c : Char} {rest : Text} (h : c = '\r' → rest.head? ≠ some '\n') :
    unifyNewlines (c :: rest) = (if c = '\r' then '\n' else c) :: unifyNewlines rest := by
  rw [unifyNewlines]
  · simp
  · exact fun more hc he => h hc (by rw [he]; rfl)

theorem unifyNewlines_cons {c : Char} (h : c ≠ '\r') (s : Text) : unifyNewlines (c :: s) = c :: unifyNewlines s := by
  rw [unifyNewlines_char fun hc => absurd hc h, if_neg h]

theorem unifyNewlines_append_of_not_mem (t : Text) : ∀ {s : Text}, '\r' ∉ s →
    unifyNewlines (s ++ t) = s ++ unifyNewlines t
  | [], _ => rfl
  | c :: s, h => by
    rw [List.mem_cons, not_or] at h
    rw [List.cons_append, unifyNewlines_cons (Ne.symm h.1), unifyNewlines_append_of_not_mem t h.2, List.cons_append]

/-- **Texts put together** are read one by one, if the second does not begin with a line feed. -/
theorem unifyNewlines_append {t : Text} (h : t.head? ≠ some '\n') (s : Text) :
    unifyNewlines (s ++ t) = unifyNewlines s ++ unifyNewlines t := by
  induction s using lineEnds_induction with
  | nil => rfl
  | both rest ih =>
    rw [List.cons_append, List.cons_append, unifyNewlines_both, unifyNewlines_both, ih, List.cons_append]
  | char c rest hc ih =>
    have hnext : c = '\r' → (rest ++ t).head? ≠ some '\n' := by
      intro hr
      cases rest with
      | nil => exact h
      | cons d rest => exact hc hr
    rw [List.cons_append, unifyNewlines_char hnext, unifyNewlines_char hc, ih, List.cons_append]

theorem mem_unifyNewlines {c : Char} {s : Text} (h : c ∈ unifyNewlines s) : c ∈ s ∨ c = '\n' := by
  induction s using lineEnds_induction with
  | nil => cases h
  | both rest ih =>
    rw [unifyNewlines_both] at h
    rcases List.mem_cons.1 h with rfl | h
    · exact .inr rfl
    · exact (ih h).imp_left fun hm => List.mem_cons_of_mem _ (List.mem_cons_of_mem _ hm)
  | char d rest hd ih =>
    rw [unifyNewlines_char hd] at h
    rcases List.mem_cons.1 h with rfl | h
    · split
      · exact .inr rfl
      · exact .inl List.mem_cons_self
    · exact (ih h).imp_left (List.mem_cons_of_mem d)

theorem prefix_of_unifyNewlines {key s : Text} (hkey : '\n' ∉ key) (h : key <+: unifyNewlines s) : key <+: s := by
  induction s using lineEnds_induction generalizing key with
  | nil => exact h
  | both rest ih =>
    cases key with
    | nil => exact List.nil_prefix
    | cons a key =>
      rw [unifyNewlines_both] at h
      exact absurd (List.mem_cons.2 (.inl (List.cons_prefix_cons.1 h).1.symm)) hkey
  | char c rest hc ih =>
    cases key with
    | nil => exact List.nil_prefix
    | cons a key =>
      rw [unifyNewlines_char hc] at h
      rw [List.mem_cons, not_or] at hkey
      obtain ⟨rfl, hrest⟩ := List.cons_prefix_cons.1 h
      split at hkey
      · exact absurd rfl hkey.1
      · rename_i hr
        rw [if_neg hr]
        exact List.cons_prefix_cons.2 ⟨rfl, ih hkey.2 hrest⟩

/-- **What is found of one line** has been there before. -/
theorem infix_of_unifyNewlines {key s : Text} (hkey : '\n' ∉ key) (h : key <:+: unifyNewlines s) : key <:+: s := by
  induction s using lineEnds_induction with
  | nil => exact h
  | both rest ih =>
    rw [unifyNewlines_both] at h
    rcases List.infix_cons_iff.1 h with hstart | h
    · exact (prefix_of_unifyNewlines hkey (unifyNewlines_both rest ▸ hstart)).isInfix
    · exact (ih h).trans ((List.suffix_cons _ _).trans (List.suffix_cons _ _)).isInfix
  | char c rest hc ih =>
    rw [unifyNewlines_char hc] at h
    rcases List.infix_cons_iff.1 h with hstart | h
    · exact (prefix_of_unifyNewlines hkey (unifyNewlines_char hc ▸ hstart)).isInfix
    · exact (ih h).trans (List.suffix_cons _ _).isInfix

/-! ## Reading what was written -/

theorem newline_not_mem_write_carriageReturn (t : Text) : '\n' ∉ Newline.carriageReturn.write t := by
  intro h
  obtain ⟨c, -, hc⟩ := List.mem_flatMap.1 h
  split at hc
  · exact absurd hc (by decide)
  · rename_i hne
    exact hne (List.mem_singleton.1 hc).symm

theorem Newline.write_cons (n : Newline) (c : Char) (t : Text) :
    n.write (c :: t) = (if c = '\n' then n.text else [c]) ++ n.write t := List.flatMap_cons

/-- **Newlines written in one way** are read back as newlines. -/
theorem unifyNewlines_write (n : Newline) : ∀ {t : Text}, '\r' ∉ t → unifyNewlines (n.write t) = t
  | [], _ => rfl
  | c :: t, h => by
    rw [List.mem_cons, not_or] at h
    have ih := unifyNewlines_write n h.2
    rw [Newline.write_cons]
    split
    · rename_i hc
      subst hc
      cases n with
      | lineFeed => rw [Newline.text, List.singleton_append, unifyNewlines_cons (by decide), ih]
      | both => rw [Newline.text, List.cons_append, List.singleton_append, unifyNewlines_both, ih]
      | carriageReturn =>
        -- The return is taken for a newline of its own, as no line feed can follow it.
        have hnext : (Newline.carriageReturn.write t).head? ≠ some '\n' := fun he =>
          newline_not_mem_write_carriageReturn t (List.mem_of_head? he)
        rw [Newline.text, List.singleton_append, unifyNewlines_char fun _ => hnext, if_pos rfl, ih]
    · rw [List.singleton_append, unifyNewlines_cons (Ne.symm h.1), ih]

end DocFerry.Text
