import DocFerry.Table
/-!
# What a table holds

A key has a value exactly if it is among the keys, and where no key is given twice the entries are the
keys with their values (`get?_eq_some_iff_mem`) and are their own table (`ofEntries_of_nodup`).  Setting a
key and leaving entries out keep the keys apart (`nodup_keys_set`, `nodup_keys_filter`).
-/
namespace DocFerry.Table

variable {κ α : Type} [BEq κ] [LawfulBEq κ]

theorem mem_of_get? {t : Table κ α} {key : κ} {value : α} (h : get? key t = some value) : (key, value) ∈ t := by
  induction t with
  | nil => cases h
  | cons e rest ih =>
    obtain ⟨k, v⟩ := e
    rw [get?] at h
    split at h
    · rename_i hk
      cases h
      simp [beq_iff_eq.1 hk]
    · exact List.mem_cons_of_mem _ (ih h)

theorem mem_keys_of_get? {t : Table κ α} {key : κ} {value : α} (h : get? key t = some value) : key ∈ keys t :=
  List.mem_map.2 ⟨_, mem_of_get? h, rfl⟩

theorem get?_ne_none_of_mem_keys {t : Table κ α} {key : κ} (h : key ∈ keys t) : ∃ value, get? key t = some value := by
  induction t with
  | nil => cases h
  | cons e rest ih =>
    obtain ⟨k, v⟩ := e
    rw [get?]
    split
    · exact ⟨v, rfl⟩
    · rename_i hk
      rcases List.mem_cons.1 h with h | h
      · exact absurd (beq_iff_eq.2 h.symm) hk
      · exact ih h

/-- **Where no key is given twice, the value of a key is the one it is given with.** -/
theorem get?_eq_some_iff_mem {t : Table κ α} (hn : (keys t).Nodup) {key : κ} {value : α} :
    get? key t = some value ↔ (key, value) ∈ t := by
  refine ⟨mem_of_get?, fun h => ?_⟩
  induction t with
  | nil => cases h
  | cons e rest ih =>
    obtain ⟨k, v⟩ := e
    rw [keys, List.map_cons, List.nodup_cons] at hn
    rcases List.mem_cons.1 h with h | h
    · cases h
      simp [get?]
    · have hk : k ≠ key := fun hk => hn.1 (hk ▸ List.mem_map.2 ⟨_, h, rfl⟩)
      simp [get?, hk, ih hn.2 h]

theorem nodup_keys_set {t : Table κ α} (hn : (keys t).Nodup) (key : κ) (value : α) :
    (keys (set key value t)).Nodup := by
  rw [keys_set]
  split
  · exact hn
  · rename_i hk
    exact List.nodup_append.2 ⟨hn, by simp, fun a ha b hb => by
      rw [List.mem_singleton.1 hb]
      exact fun hab => hk (hab ▸ ha)⟩

theorem nodup_keys_ofEntries (entries : List (κ × α)) : (keys (ofEntries entries)).Nodup := by
  suffices h : ∀ (entries : List (κ × α)) (t : Table κ α), (keys t).Nodup →
      (keys (entries.foldl (fun t e => set e.1 e.2 t) t)).Nodup from h entries [] List.nodup_nil
  intro entries
  induction entries with
  | nil => exact fun t ht => ht
  | cons e rest ih => exact fun t ht => ih _ (nodup_keys_set ht e.1 e.2)

omit [BEq κ] [LawfulBEq κ] in
theorem nodup_keys_filter {t : Table κ α} (hn : (keys t).Nodup) (p : κ × α → Bool) : (keys (t.filter p)).Nodup :=
  hn.sublist (List.filter_sublist.map _)

/-- **A key that is new is set at the end.** -/
theorem set_of_not_mem {t : Table κ α} {key : κ} (h : key ∉ keys t) (value : α) :
    set key value t = t ++ [(key, value)] := by
  induction t with
  | nil => rfl
  | cons e rest ih =>
    obtain ⟨k, v⟩ := e
    rw [keys, List.map_cons, List.mem_cons, not_or] at h
    rw [set, if_neg (by simpa using Ne.symm h.1), ih h.2, List.cons_append]

/-- **Entries that give no key twice** are their own table. -/
theorem ofEntries_of_nodup {entries : List (κ × α)} (hn : (keys entries).Nodup) : ofEntries entries = entries := by
  suffices h : ∀ (entries : List (κ × α)) (t : Table κ α), (keys (t ++ entries)).Nodup →
      entries.foldl (fun t e => set e.1 e.2 t) t = t ++ entries from h entries [] hn
  intro entries
  induction entries with
  | nil => intro t _; simp
  | cons e rest ih =>
    intro t ht
    have hnew : e.1 ∉ keys t := by
      rw [keys, List.map_append, List.map_cons] at ht
      exact fun he => (List.nodup_append.1 ht).2.2 _ he _ List.mem_cons_self rfl
    rw [List.foldl_cons, set_of_not_mem hnew, ih _ (by simpa using ht), List.append_assoc, List.singleton_append]

omit [LawfulBEq κ] in
theorem mem_values_set {t : Table κ α} {key : κ} {value : α} {e : κ × α} (h : e ∈ set key value t) :
    e.2 = value ∨ ∃ old ∈ t, old.2 = e.2 := by
  induction t with
  | nil => exact .inl (congrArg Prod.snd (List.mem_singleton.1 h))
  | cons first rest ih =>
    obtain ⟨k, v⟩ := first
    rw [set] at h
    split at h
    · rcases List.mem_cons.1 h with rfl | h
      · exact .inl rfl
      · exact .inr ⟨e, List.mem_cons_of_mem _ h, rfl⟩
    · rcases List.mem_cons.1 h with rfl | h
      · exact .inr ⟨_, List.mem_cons_self, rfl⟩
      · rcases ih h with h | ⟨old, hold, h⟩
        · exact .inl h
        · exact .inr ⟨old, List.mem_cons_of_mem _ hold, h⟩

omit [LawfulBEq κ] in
/-- **Each value of a table of entries** is the value of one of them. -/
theorem mem_values_ofEntries {entries : List (κ × α)} {e : κ × α} (h : e ∈ ofEntries entries) :
    ∃ entry ∈ entries, entry.2 = e.2 := by
  suffices hall : ∀ (entries : List (κ × α)) (t : Table κ α), e ∈ entries.foldl (fun t e => set e.1 e.2 t) t →
      (∃ old ∈ t, old.2 = e.2) ∨ ∃ entry ∈ entries, entry.2 = e.2 from (hall entries [] h).resolve_left (by simp)
  intro entries
  induction entries with
  | nil => exact fun t ht => .inl ⟨e, ht, rfl⟩
  | cons first rest ih =>
    intro t ht
    rcases ih _ ht with ⟨old, hold, he⟩ | ⟨entry, hentry, he⟩
    · rcases mem_values_set hold with hv | ⟨older, holder, hv⟩
      · exact .inr ⟨first, List.mem_cons_self, hv.symm.trans he⟩
      · exact .inl ⟨older, holder, hv.trans he⟩
    · exact .inr ⟨entry, List.mem_cons_of_mem _ hentry, he⟩

/-- **Setting a key among those that a test keeps**, or one that it does not keep. -/
theorem filter_set (t : Table κ α) (key : κ) (value : α) (test : κ → Bool) :
    (set key value t).filter (fun e => test e.1) =
      if test key = true then set key value (t.filter fun e => test e.1) else t.filter fun e => test e.1 := by
  induction t with
  | nil => simp [set, List.filter_cons]
  | cons e rest ih =>
    obtain ⟨k, v⟩ := e
    rw [set]
    split
    · rename_i hk
      rw [eq_of_beq hk]
      by_cases ht : test key = true <;> simp [ht, set]
    · rename_i hk
      by_cases ht : test k = true
      · rw [List.filter_cons_of_pos (by exact ht), ih, List.filter_cons_of_pos (by exact ht)]
        split
        · rw [set, if_neg hk]
        · rfl
      · rw [List.filter_cons_of_neg (by exact ht), ih, List.filter_cons_of_neg (by exact ht)]

end DocFerry.Table
