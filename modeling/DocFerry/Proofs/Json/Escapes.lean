import DocFerry.Json.Parse
import DocFerry.Json.Print
/-!
# Strings written and read

A string that is written is read as itself, whatever characters it holds: a character beyond the first
sixteen-bit plane is written as two units, which the reader puts together again.

Main facts: the reader finds a written string and stops behind it (`string?_printString`), and a written string
is pure ASCII (`printString_ascii`).
-/
namespace DocFerry.Json

open Text

/-- **A text of ASCII characters only.** -/
def IsAscii (s : Text) : Prop := ∀ c ∈ s, c.toNat < 0x80

@[simp] theorem isAscii_nil : IsAscii [] := fun _ h => (List.not_mem_nil h).elim

@[simp] theorem isAscii_cons {c : Char} {s : Text} : IsAscii (c :: s) ↔ c.toNat < 0x80 ∧ IsAscii s := by
  simp [IsAscii]

@[simp] theorem isAscii_append {s t : Text} : IsAscii (s ++ t) ↔ IsAscii s ∧ IsAscii t := by
  simp [IsAscii, or_imp, forall_and]

/-! ## Sixteen-bit units -/

theorem hexValue?_digitChar : ∀ n < 16, hexValue? n.digitChar = some n := by decide

theorem digitChar_ascii : ∀ n < 16, n.digitChar.toNat < 0x80 := by decide

/-- **A padded number ends with its last digit**, before which stands the rest of it. -/
theorem hexPadded_succ {width : Nat} (hw : 0 < width) (n : Nat) :
    hexPadded (width + 1) n = hexPadded width (n / 16) ++ [(n % 16).digitChar] := by
  simp only [hexPadded]
  rcases Nat.lt_or_ge n 16 with h | h
  · rw [Nat.toDigits_of_lt_base h, Nat.div_eq_of_lt h, Nat.mod_eq_of_lt h, Nat.toDigits_of_lt_base (by omega)]
    obtain ⟨k, rfl⟩ := Nat.exists_eq_succ_of_ne_zero (Nat.pos_iff_ne_zero.1 hw)
    simp [List.replicate_succ']
  · rw [Nat.toDigits_of_base_le (by omega) h]
    simp

theorem hexPadded_one {n : Nat} (h : n < 16) : hexPadded 1 n = [n.digitChar] := by
  simp [hexPadded, Nat.toDigits_of_lt_base h]

theorem hexPadded_four {n : Nat} (h : n < 0x10000) : hexPadded 4 n =
    [(n / 16 / 16 / 16).digitChar, (n / 16 / 16 % 16).digitChar, (n / 16 % 16).digitChar, (n % 16).digitChar] := by
  rw [hexPadded_succ (by omega), hexPadded_succ (by omega), hexPadded_succ (by omega), hexPadded_one (by omega)]
  rfl

/-- **A unit that is written is read as itself.** -/
theorem unit?_hexPadded {n : Nat} (h : n < 0x10000) (rest : Text) : unit? (hexPadded 4 n ++ rest) = some (n, rest) := by
  rw [hexPadded_four h]
  have hvalue : ((n / 16 / 16 / 16 * 16 + n / 16 / 16 % 16) * 16 + n / 16 % 16) * 16 + n % 16 = n := by omega
  simp only [List.cons_append, List.nil_append, unit?, hexValue?_digitChar _ (show n / 16 / 16 / 16 < 16 by omega),
    hexValue?_digitChar _ (Nat.mod_lt _ (show 16 > 0 by omega)), Option.bind_eq_bind, Option.bind_some, hvalue]

theorem hexPadded_ascii {n : Nat} (h : n < 0x10000) : IsAscii (hexPadded 4 n) := by
  rw [hexPadded_four h]
  intro c hc
  simp only [List.mem_cons, List.not_mem_nil, or_false] at hc
  rcases hc with rfl | rfl | rfl | rfl <;> exact digitChar_ascii _ (by omega)

theorem unitEscape_append (n : Nat) (s : Text) : unitEscape n ++ s = '\\' :: 'u' :: (hexPadded 4 n ++ s) := rfl

/-! ## Characters and strings -/

theorem toNat_valid (c : Char) : c.toNat < 0xd800 ∨ 0xdfff < c.toNat ∧ c.toNat < 0x110000 := c.valid

/-- **An escape of a character**, after its backslash: ASCII that the reader takes for the character. -/
def IsEscapeOf (c : Char) (e : Text) : Prop := IsAscii e ∧ ∀ rest, escape? (e ++ rest) = some (c, rest)

theorem isEscapeOf_letter {c l : Char} (hl : l.toNat < 0x80) (h : ∀ rest, escape? (l :: rest) = some (c, rest)) :
    IsEscapeOf c [l] := ⟨by simpa using hl, h⟩

/-- **A unit that is no part of a pair** is the escape of its character. -/
theorem isEscapeOf_unit {c : Char} (h : c.toNat < 0x10000) : IsEscapeOf c ('u' :: hexPadded 4 c.toNat) := by
  refine ⟨isAscii_cons.2 ⟨by decide, hexPadded_ascii h⟩, fun rest => ?_⟩
  have hc := toNat_valid c
  have hhigh : ¬ (0xd800 ≤ c.toNat ∧ c.toNat ≤ 0xdbff) := by omega
  have hpart : ¬ (0xd800 ≤ c.toNat ∧ c.toNat ≤ 0xdfff) := by omega
  rw [List.cons_append, escape?, unit?_hexPadded h]
  simp only [Option.map_some, Bool.and_eq_true, decide_eq_true_eq, if_neg hhigh, if_neg hpart, Char.ofNat_toNat]

theorem lowUnit?_unitEscape {n : Nat} (hlow : 0xdc00 ≤ n) (hhigh : n ≤ 0xdfff) (rest : Text) :
    lowUnit? (unitEscape n ++ rest) = some (n, rest) := by
  have hafter : after? ['\\', 'u'] ('\\' :: 'u' :: (hexPadded 4 n ++ rest)) = some (hexPadded 4 n ++ rest) := rfl
  rw [lowUnit?, unitEscape_append, hafter, Option.bind_some, unit?_hexPadded (by omega)]
  simp [Option.filter, hlow, hhigh]

/-- **Two units are put together** to the character that they are the parts of. -/
theorem isEscapeOf_pair {c : Char} (h : 0x10000 ≤ c.toNat) : IsEscapeOf c
    ('u' :: (hexPadded 4 (0xd800 + (c.toNat - 0x10000) / 0x400) ++
      unitEscape (0xdc00 + (c.toNat - 0x10000) % 0x400))) := by
  have hc := toNat_valid c
  refine ⟨?_, fun rest => ?_⟩
  · have hhigh : IsAscii (hexPadded 4 (0xd800 + (c.toNat - 0x10000) / 0x400)) := hexPadded_ascii (by omega)
    have hlow : IsAscii (hexPadded 4 (0xdc00 + (c.toNat - 0x10000) % 0x400)) := hexPadded_ascii (by omega)
    simp [unitEscape, hhigh, hlow]
  · have hhigh : 0xd800 ≤ 0xd800 + (c.toNat - 0x10000) / 0x400 ∧ 0xd800 + (c.toNat - 0x10000) / 0x400 ≤ 0xdbff := by
      omega
    have hvalue : 0x10000 + (0xd800 + (c.toNat - 0x10000) / 0x400 - 0xd800) * 0x400 +
        (0xdc00 + (c.toNat - 0x10000) % 0x400 - 0xdc00) = c.toNat := by omega
    rw [List.cons_append, List.append_assoc, escape?, unit?_hexPadded (by omega)]
    simp only [Option.map_some, Bool.and_eq_true, decide_eq_true_eq, if_pos hhigh,
      lowUnit?_unitEscape (n := 0xdc00 + (c.toNat - 0x10000) % 0x400) (by omega) (by omega), hvalue, Char.ofNat_toNat]

/-- **How a character is written**: as it is, or as an escape of it. -/
theorem escapeChar_cases (c : Char) :
    (escapeChar c = [c] ∧ c ≠ '"' ∧ c ≠ '\\' ∧ 0x20 ≤ c.toNat ∧ c.toNat < 0x7f) ∨
      ∃ e, escapeChar c = '\\' :: e ∧ IsEscapeOf c e := by
  by_cases hq : c = '"'
  · subst hq; exact .inr ⟨['"'], rfl, isEscapeOf_letter (by decide) fun _ => rfl⟩
  by_cases hb : c = '\\'
  · subst hb; exact .inr ⟨['\\'], rfl, isEscapeOf_letter (by decide) fun _ => rfl⟩
  by_cases hn : c = '\n'
  · subst hn; exact .inr ⟨['n'], rfl, isEscapeOf_letter (by decide) fun _ => rfl⟩
  by_cases hr : c = '\r'
  · subst hr; exact .inr ⟨['r'], rfl, isEscapeOf_letter (by decide) fun _ => rfl⟩
  by_cases ht : c = '\t'
  · subst ht; exact .inr ⟨['t'], rfl, isEscapeOf_letter (by decide) fun _ => rfl⟩
  by_cases h8 : c.toNat = 0x8
  · obtain rfl : c = Char.ofNat 8 := by rw [← h8, Char.ofNat_toNat]
    exact .inr ⟨['b'], rfl, isEscapeOf_letter (by decide) fun _ => rfl⟩
  by_cases hc : c.toNat = 0xc
  · obtain rfl : c = Char.ofNat 12 := by rw [← hc, Char.ofNat_toNat]
    exact .inr ⟨['f'], rfl, isEscapeOf_letter (by decide) fun _ => rfl⟩
  by_cases hp : 0x20 ≤ c.toNat ∧ c.toNat < 0x7f
  · exact .inl ⟨by simp [escapeChar, hq, hb, hn, hr, ht, h8, hc, hp], hq, hb, hp⟩
  have hunits : escapeChar c = if c.toNat < 0x10000 then unitEscape c.toNat else
      unitEscape (0xd800 + (c.toNat - 0x10000) / 0x400) ++ unitEscape (0xdc00 + (c.toNat - 0x10000) % 0x400) := by
    simp [escapeChar, hq, hb, hn, hr, ht, h8, hc, hp]
  by_cases hu : c.toNat < 0x10000
  · exact .inr ⟨_, by rw [hunits, if_pos hu, unitEscape], isEscapeOf_unit hu⟩
  · exact .inr ⟨_, by rw [hunits, if_neg hu, unitEscape_append], isEscapeOf_pair (by omega)⟩

theorem escapeChar_ne_nil (c : Char) : escapeChar c ≠ [] := by
  rcases escapeChar_cases c with ⟨he, -⟩ | ⟨e, he, -⟩ <;> simp [he]

theorem escapeChar_ascii (c : Char) : IsAscii (escapeChar c) := by
  rcases escapeChar_cases c with ⟨he, -, -, -, hc⟩ | ⟨e, he, hascii, -⟩
  · simpa [he] using (show c.toNat < 0x80 by omega)
  · simpa [he] using hascii

/-- **One step of the reader** reads the character that was written. -/
theorem string?_escapeChar (fuel : Nat) (c : Char) (rest : Text) : string? (fuel + 1) (escapeChar c ++ rest) =
    (string? fuel rest).map fun found => (c :: found.1, found.2) := by
  rcases escapeChar_cases c with ⟨he, hq, hb, hlow, -⟩ | ⟨e, he, -, hread⟩
  · have hlow : ¬ c.toNat < 0x20 := by omega
    simp [he, string?, hq, hb, hlow]
  · simp [he, string?, hread]

/-- **A string that is written is read as itself**, up to its closing quotation mark. -/
theorem string?_printString (rest : Text) : ∀ (s : Text) {fuel : Nat}, s.length < fuel →
    string? fuel (s.flatMap escapeChar ++ '"' :: rest) = some (s, rest)
  | [], fuel + 1, _ => by simp [string?]
  | c :: s, fuel + 1, h => by
    rw [List.length_cons, Nat.add_lt_add_iff_right] at h
    rw [List.flatMap_cons, List.append_assoc, string?_escapeChar, string?_printString rest s h, Option.map_some]

theorem printString_ascii (s : Text) : IsAscii (printString s) := by
  have hs : IsAscii (s.flatMap escapeChar) := by
    intro c hc
    obtain ⟨d, -, hd⟩ := List.mem_flatMap.1 hc
    exact escapeChar_ascii d c hd
  simpa [printString] using hs

theorem length_le_escape : ∀ (s : Text), s.length ≤ (s.flatMap escapeChar).length
  | [] => Nat.le_refl 0
  | c :: s => by
    have hc : 0 < (escapeChar c).length := List.length_pos_iff.2 (escapeChar_ne_nil c)
    have ih := length_le_escape s
    rw [List.flatMap_cons, List.length_append, List.length_cons]
    omega

end DocFerry.Json
