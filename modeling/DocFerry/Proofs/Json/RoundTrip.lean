import Mathlib.Data.List.TakeWhile
import DocFerry.Proofs.Json.Escapes
import DocFerry.Proofs.Table
/-!
# Values written and read

A value without numbers, in whose objects no key is given twice, is read back as itself from what is written for it,
indented or compact, by a reader that may open as many levels as the value has.  The bound on levels is the only thing
in which that reader differs from the one of this library (`parse_eq`).

Main facts: the reader finds a written value and stops behind it (`value?_printAt`), so it reads a file that holds
the value (`parseWithin_printAt`), and what is written is pure ASCII (`printAt_ascii`).
-/
namespace DocFerry.Json

open Text

/-- **The value that a text holds**, of at most so many levels of arrays and objects. -/
def parseWithin (levels : Nat) (s : Text) : Except Fault Json := do
  let (value, rest) ← value? (2 * s.length + 1) levels (skip s)
  if (skip rest).isEmpty then .ok value else .error .malformed

theorem parse_eq : parse = parseWithin mostLevels := rfl

mutual
/-- **How many levels of arrays and objects a value has.** -/
def levels : Json → Nat
  | .array items => levelsOfItems items + 1
  | .object fields => levelsOfFields fields + 1
  | _ => 0
def levelsOfItems : List Json → Nat
  | [] => 0
  | item :: items => max item.levels (levelsOfItems items)
def levelsOfFields : List (Text × Json) → Nat
  | [] => 0
  | (_, value) :: fields => max value.levels (levelsOfFields fields)
end

mutual
/-- **A value without numbers**, in whose objects no key is given twice. -/
def Wordy : Json → Prop
  | .null => True
  | .bool _ => True
  | .int _ => False
  | .number _ => False
  | .text _ => True
  | .array items => WordyItems items
  | .object fields => (Table.keys fields).Nodup ∧ WordyFields fields
def WordyItems : List Json → Prop
  | [] => True
  | item :: items => item.Wordy ∧ WordyItems items
def WordyFields : List (Text × Json) → Prop
  | [] => True
  | (_, value) :: fields => value.Wordy ∧ WordyFields fields
end

theorem wordyItems_iff : ∀ {items : List Json}, WordyItems items ↔ ∀ item ∈ items, item.Wordy
  | [] => by simp [WordyItems]
  | item :: items => by simp [WordyItems, @wordyItems_iff items]

theorem wordyFields_iff : ∀ {fields : List (Text × Json)}, WordyFields fields ↔ ∀ field ∈ fields, field.2.Wordy
  | [] => by simp [WordyFields]
  | (key, value) :: fields => by simp [WordyFields, @wordyFields_iff fields]

/-! ## Layout -/

variable (depth : Option Nat) (rest : Text)

theorem skip_of_not_space {s : Text} {c : Char} (h : isSpace c = false) : skip (c :: s) = c :: s := by
  simp [skip, h]

/-- **A new line is passed over**, at any depth of indentation. -/
theorem skip_newLine_append (s : Text) : skip (newLine depth ++ s) = skip s := by
  cases depth with
  | none => rfl
  | some n =>
    have hspaces : ∀ c ∈ newLine (some n), isSpace c = true := by
      intro c hc
      rcases List.mem_cons.1 hc with rfl | hc
      · decide
      · rw [List.eq_of_mem_replicate hc]; decide
    exact List.dropWhile_append_of_pos hspaces

theorem colon_append (s : Text) : ∃ gap, colon depth ++ s = ':' :: gap ∧ skip gap = skip s := by
  cases depth with
  | none => exact ⟨s, rfl, rfl⟩
  | some n => exact ⟨' ' :: s, rfl, rfl⟩

/-- **How a value begins**: with nothing to pass over, and not with the end of an array. -/
theorem printAt_head : ∀ {j : Json}, j.Wordy → ∃ c s, printAt depth j = c :: s ∧ isSpace c = false ∧ c ≠ ']'
  | .null, _ => ⟨'n', _, by rw [printAt]; rfl, by decide, by decide⟩
  | .bool true, _ => ⟨'t', _, by rw [printAt]; rfl, by decide, by decide⟩
  | .bool false, _ => ⟨'f', _, by rw [printAt]; rfl, by decide, by decide⟩
  | .int _, h => by simp [Wordy] at h
  | .number _, h => by simp [Wordy] at h
  | .text s, _ => ⟨'"', _, by rw [printAt]; rfl, by decide, by decide⟩
  | .array [], _ => ⟨'[', _, by rw [printAt]; rfl, by decide, by decide⟩
  | .array (item :: items), _ => ⟨'[', _, by rw [printAt]; rfl, by decide, by decide⟩
  | .object [], _ => ⟨'\x7b', _, by rw [printAt], by decide, by decide⟩
  | .object ((key, value) :: fields), _ => ⟨'\x7b', _, by rw [printAt]; rfl, by decide, by decide⟩

theorem skip_printAt_append {j : Json} (h : j.Wordy) : skip (printAt depth j ++ rest) = printAt depth j ++ rest := by
  obtain ⟨c, s, hj, hc, -⟩ := printAt_head depth h
  rw [hj, List.cons_append, skip_of_not_space hc]

/-! ## The reader on what is written

The reader may open `levels` levels and has `fuel` steps left.  A value of a text takes at most twice as many steps as
the text has characters, and the items or fields of a container at most one step more.  The induction is on the steps,
as in the reader itself. -/

theorem skip_newLine_close {c : Char} (h : isSpace c = false) : skip (newLine depth ++ c :: rest) = c :: rest := by
  rw [skip_newLine_append, skip_of_not_space h]

/-- **An array is read** if its items are. -/
theorem value?_array {item : Json} {items : List Json} {fuel levels : Nat} (h : item.Wordy)
    (hread : items? fuel levels (printAt (depth.map (· + 1)) item ++ (printItems (depth.map (· + 1)) items ++
      (newLine depth ++ ']' :: rest))) = .ok (item :: items, rest)) :
    value? (fuel + 1) (levels + 1) (printAt depth (.array (item :: items)) ++ rest) =
      .ok (.array (item :: items), rest) := by
  obtain ⟨c, s, hc, hspace, hclose⟩ := printAt_head (depth.map (· + 1)) h
  simp only [printAt, List.cons_append, List.append_assoc, List.nil_append, value?, skip_newLine_append,
    Nat.add_sub_cancel, if_neg (Nat.succ_ne_zero levels)]
  rw [hc, List.cons_append] at hread ⊢
  rw [skip_of_not_space hspace]
  split
  · rename_i heq; cases heq; exact absurd rfl hclose
  · rw [hread]; rfl

/-- **An object is read** if its fields are, none of which has the key of another. -/
theorem value?_object {key : Text} {value : Json} {fields : List (Text × Json)} {fuel levels : Nat}
    (h : (Table.keys ((key, value) :: fields)).Nodup)
    (hread : fields? fuel levels (printString key ++ (colon (depth.map (· + 1)) ++ (printAt (depth.map (· + 1)) value ++
      (printFields (depth.map (· + 1)) fields ++ (newLine depth ++ '\x7d' :: rest))))) =
        .ok ((key, value) :: fields, rest)) :
    value? (fuel + 1) (levels + 1) (printAt depth (.object ((key, value) :: fields)) ++ rest) =
      .ok (.object ((key, value) :: fields), rest) := by
  simp only [printAt, List.cons_append, List.append_assoc, List.nil_append, value?, skip_newLine_append,
    Nat.add_sub_cancel, if_neg (Nat.succ_ne_zero levels)]
  rw [printString, List.cons_append, List.cons_append] at hread ⊢
  rw [skip_of_not_space (by decide)]
  split
  · rename_i heq; cases heq
  · rw [hread]
    simp only [Except.map, Table.ofEntries_of_nodup h]

/-- **A key and its colon** stand before a value. -/
theorem fields?_key {key : Text} {value : Json} {s : Text} {fuel levels : Nat} (hf : key.length < fuel)
    (hskip : skip s = s) (hread : value? fuel levels s = .ok (value, rest)) :
    fields? (fuel + 1) levels (printString key ++ (colon depth ++ s)) =
      match skip rest with
      | '\x7d' :: rest => .ok ([(key, value)], rest)
      | ',' :: rest => (fields? fuel levels (skip rest)).map fun found => ((key, value) :: found.1, found.2)
      | _ => .error .malformed := by
  obtain ⟨gap, hgap, hskipGap⟩ := colon_append depth s
  rw [hgap, printString, List.cons_append, List.cons_append, List.append_assoc, List.singleton_append, fields?]
  simp only [string?_printString _ key hf, skip_of_not_space (show isSpace ':' = false by decide), hskipGap, hskip,
    hread]
  rfl

mutual

/-- **A value that is written is read as itself**, up to where it ends. -/
theorem value?_printAt : ∀ (fuel : Nat) {levels : Nat} (depth : Option Nat) (rest : Text) {j : Json}, j.Wordy →
    2 * (printAt depth j).length ≤ fuel → j.levels ≤ levels →
    value? fuel levels (printAt depth j ++ rest) = .ok (j, rest)
  | 0, _, depth, _, j, h, hf, _ => by
    obtain ⟨c, s, hc, -⟩ := printAt_head depth h
    rw [hc, List.length_cons] at hf
    omega
  | fuel + 1, levels, depth, rest, j, h, hf, hl => by
    cases j with
    | null => rfl
    | bool b => cases b <;> rfl
    | int i => simp [Wordy] at h
    | number x => simp [Wordy] at h
    | text s =>
      have hs := length_le_escape s
      simp only [printAt, printString, List.length_append, List.length_cons, List.length_nil] at hf
      simp only [printAt, printString, List.cons_append, List.append_assoc, List.nil_append, value?,
        string?_printString rest s (show s.length < fuel by omega)]
    | array items =>
      rw [Wordy] at h
      rw [Json.levels] at hl
      obtain ⟨levels, rfl⟩ : ∃ k, levels = k + 1 := Nat.exists_eq_add_one.2 (by omega)
      cases items with
      | nil => simp [printAt, value?, skip, isSpace]
      | cons item items =>
        simp only [printAt, List.length_append, List.length_cons, List.length_nil] at hf
        exact value?_array depth rest h.1 (items?_printItems fuel _ depth rest h (by omega) (by omega))
    | object fields =>
      rw [Wordy] at h
      rw [Json.levels] at hl
      obtain ⟨levels, rfl⟩ : ∃ k, levels = k + 1 := Nat.exists_eq_add_one.2 (by omega)
      cases fields with
      | nil => simp [printAt, value?, skip, isSpace]
      | cons field fields =>
        simp only [printAt, List.length_append, List.length_cons, List.length_nil] at hf
        exact value?_object depth rest h.1
          (fields?_printFields fuel _ depth rest h.2 (by omega) (Nat.le_of_succ_le_succ hl))

theorem items?_printItems : ∀ (fuel : Nat) {levels : Nat} (depth outer : Option Nat) (rest : Text) {item : Json}
    {items : List Json}, WordyItems (item :: items) →
    2 * ((printAt depth item).length + (printItems depth items).length) < fuel →
    levelsOfItems (item :: items) ≤ levels →
    items? fuel levels (printAt depth item ++ (printItems depth items ++ (newLine outer ++ ']' :: rest))) =
      .ok (item :: items, rest)
  | 0, _, _, _, _, _, _, _, hf, _ => by omega
  | fuel + 1, levels, depth, outer, rest, item, items, h, hf, hl => by
    rw [levelsOfItems] at hl
    rw [items?, value?_printAt fuel depth _ h.1 (by omega) (by omega)]
    cases items with
    | nil =>
      simp only [bind, Except.bind, printItems, List.nil_append,
        skip_newLine_close outer rest (show isSpace ']' = false by decide)]
    | cons next items =>
      simp only [printItems, List.length_append, List.length_cons] at hf
      have hnext := @items?_printItems fuel levels depth outer rest _ _ h.2 (by omega) (by omega)
      simp only [bind, Except.bind, printItems, List.cons_append, List.append_assoc,
        skip_of_not_space (show isSpace ',' = false by decide), skip_newLine_append,
        skip_printAt_append depth _ h.2.1, hnext, Except.map]

theorem fields?_printFields : ∀ (fuel : Nat) {levels : Nat} (depth outer : Option Nat) (rest : Text) {key : Text}
    {value : Json} {fields : List (Text × Json)}, WordyFields ((key, value) :: fields) →
    2 * ((printString key).length + (colon depth).length + (printAt depth value).length +
      (printFields depth fields).length) < fuel →
    levelsOfFields ((key, value) :: fields) ≤ levels →
    fields? fuel levels (printString key ++ (colon depth ++ (printAt depth value ++ (printFields depth fields ++
      (newLine outer ++ '\x7d' :: rest))))) = .ok ((key, value) :: fields, rest)
  | 0, _, _, _, _, _, _, _, _, hf, _ => by omega
  | fuel + 1, levels, depth, outer, rest, key, value, fields, h, hf, hl => by
    rw [levelsOfFields] at hl
    have hkey := length_le_escape key
    have hlength : (printString key).length = (key.flatMap escapeChar).length + 2 := by simp [printString]
    rw [fields?_key depth _ (by omega) (skip_printAt_append depth _ h.1)
      (value?_printAt fuel depth _ h.1 (by omega) (by omega))]
    cases fields with
    | nil =>
      simp only [printFields, List.nil_append, skip_newLine_close outer rest (show isSpace '\x7d' = false by decide)]
    | cons next fields =>
      obtain ⟨nextKey, nextValue⟩ := next
      simp only [printFields, List.length_append, List.length_cons] at hf
      have hnext := @fields?_printFields fuel levels depth outer rest _ _ _ h.2 (by omega) (by omega)
      have hskip (s : Text) : skip (printString nextKey ++ s) = printString nextKey ++ s := by
        rw [printString, List.cons_append, List.cons_append, skip_of_not_space (by decide)]
      simp only [printFields, List.cons_append, List.append_assoc,
        skip_of_not_space (show isSpace ',' = false by decide), skip_newLine_append, hskip, hnext, Except.map]

end

theorem newLine_ascii : IsAscii (newLine depth) := by
  cases depth with
  | none => exact isAscii_nil
  | some n =>
    have hspaces : IsAscii (List.replicate (2 * n) ' ') := by
      intro c hc
      rw [List.eq_of_mem_replicate hc]
      decide
    simpa [newLine] using hspaces

theorem colon_ascii : IsAscii (colon depth) := by cases depth <;> simp [colon]

mutual

/-- **What is written for a value is pure ASCII.** -/
theorem printAt_ascii (depth : Option Nat) : ∀ {j : Json}, j.Wordy → IsAscii (printAt depth j)
  | .null, _ => by simp [printAt]
  | .bool true, _ => by simp [printAt]
  | .bool false, _ => by simp [printAt]
  | .int _, h => by simp [Wordy] at h
  | .number _, h => by simp [Wordy] at h
  | .text s, _ => by simpa [printAt] using printString_ascii s
  | .array [], _ => by simp [printAt]
  | .array (item :: items), h => by
    have hitem := printAt_ascii (depth.map (· + 1)) h.1
    have hitems := printItems_ascii (depth.map (· + 1)) h.2
    simp [printAt, newLine_ascii, hitem, hitems]
  | .object [], _ => by simp [printAt]
  | .object ((key, value) :: fields), h => by
    have hvalue := printAt_ascii (depth.map (· + 1)) h.2.1
    have hfields := printFields_ascii (depth.map (· + 1)) h.2.2
    simp [printAt, newLine_ascii, colon_ascii, printString_ascii, hvalue, hfields]

theorem printItems_ascii (depth : Option Nat) : ∀ {items : List Json}, WordyItems items →
    IsAscii (printItems depth items)
  | [], _ => by simp [printItems]
  | item :: items, h => by
    have hitem := printAt_ascii depth h.1
    have hitems := printItems_ascii depth h.2
    simp [printItems, newLine_ascii, hitem, hitems]

theorem printFields_ascii (depth : Option Nat) : ∀ {fields : List (Text × Json)}, WordyFields fields →
    IsAscii (printFields depth fields)
  | [], _ => by simp [printFields]
  | (key, value) :: fields, h => by
    have hvalue := printAt_ascii depth h.1
    have hfields := printFields_ascii depth h.2
    simp [printFields, newLine_ascii, colon_ascii, printString_ascii, hvalue, hfields]

end

end DocFerry.Json
