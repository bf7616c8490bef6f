/-!
# Tables

A table is a list of keys with their values in order of first mention: a key given again keeps its
place and takes the new value.  Metadata, settings and objects of a data file are tables.

Main facts: the key just set has its value and every other key keeps its own (`get?_set_self`,
`get?_set_ne`), and setting a key adds it at the end or leaves the keys as they are (`keys_set`).
-/
namespace DocFerry

/-- **A table** from keys to values, in order of first mention. -/
abbrev Table (κ α : Type) := List (κ × α)

namespace Table

variable {κ α : Type} [BEq κ]

/-- **A key given a value**: in its old place if it has one, else at the end. -/
def set (key : κ) (value : α) : Table κ α → Table κ α
  | [] => [(key, value)]
  | (k, v) :: rest => if k == key then (k, value) :: rest else (k, v) :: set key value rest

/-- **The value of a key**, none if it is absent. -/
def get? (key : κ) : Table κ α → Option α
  | [] => none
  | (k, v) :: rest => if k == key then some v else get? key rest

/-- **The table of entries given one after another.** -/
def ofEntries (entries : List (κ × α)) : Table κ α :=
  entries.foldl (fun t e => set e.1 e.2 t) []

def keys (t : Table κ α) : List κ := t.map (·.1)

theorem get?_set_self [ReflBEq κ] (t : Table κ α) (key : κ) (value : α) :
    get? key (set key value t) = some value := by
  induction t with
  | nil => simp [set, get?]
  | cons e rest ih =>
    obtain ⟨k, v⟩ := e
    by_cases h : (k == key) = true <;> simp [set, get?, h, ih]

theorem get?_set_ne [LawfulBEq κ] (t : Table κ α) {key other : κ} (value : α) (h : other ≠ key) :
    get? other (set key value t) = get? other t := by
  induction t with
  | nil => simp [set, get?, Ne.symm h]
  | cons e rest ih =>
    obtain ⟨k, v⟩ := e
    by_cases hk : k = key
    · subst hk; simp [set, get?, Ne.symm h]
    · have hk' : (k == key) = false := by simpa using hk
      rw [set, hk', if_neg (by simp)]
      by_cases ho : k = other <;> simp [get?, ho, ih]

/-- **Setting a key adds it at the end** unless it is there already. -/
theorem keys_set [LawfulBEq κ] (t : Table κ α) (key : κ) (value : α) :
    keys (set key value t) = if key ∈ keys t then keys t else keys t ++ [key] := by
  induction t with
  | nil => simp [set, keys]
  | cons e rest ih =>
    obtain ⟨k, v⟩ := e
    by_cases hk : k = key
    · subst hk; simp [set, keys]
    · have : key ≠ k := fun h => hk h.symm
      simp only [set, beq_iff_eq, hk, if_false]
      simp only [keys, List.map_cons, List.mem_cons, this, false_or] at ih ⊢
      rw [ih]
      split <;> rename_i hm <;> simp [hm]

end Table
end DocFerry
