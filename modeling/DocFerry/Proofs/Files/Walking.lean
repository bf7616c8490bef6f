import DocFerry.Files.Lookup
/-!
# Walks step by step

A walk that ends somewhere, as a relation with one rule for each kind of entry that it passes: what it
passes decides how it goes on, and the number counts the links that it may still follow.

Main facts: the relation holds exactly for the walks that end (`walks_iff`), a walk along two lists of
names is a walk along the first and then along the second (`Walks.split`, `Walks.trans`), and below a
directory that holds no links a walk leads where its names say (`Walks.location_of_linkFree`).
-/
namespace DocFerry.Files

/-- **Where a link's target starts**: at the root, or at the directory that holds the link. -/
def linkStart (base : Location) (target : Text) : Location :=
  if (Path.ofText target).absolute then [] else base

/-- **A walk that ends at a place**, following at most so many links. -/
inductive Walks (d : Disk) : (links : Nat) → Location → List Text → Place → Prop
  | stay {k : Nat} {base : Location} : Walks d k base [] ⟨base, some .directory⟩
  | up {k : Nat} {base : Location} {rest : List Text} {place : Place} :
      Walks d k base.dropLast rest place → Walks d k base (Path.up :: rest) place
  | into {k : Nat} {base : Location} {name : Text} {rest : List Text} {place : Place} :
      name ≠ Path.up → d.locate? (base ++ [name]) = some .directory →
      Walks d k (base ++ [name]) rest place → Walks d k base (name :: rest) place
  | follow {k : Nat} {base : Location} {name target : Text} {rest : List Text} {place : Place} :
      name ≠ Path.up → d.locate? (base ++ [name]) = some (.link target) →
      Walks d k (linkStart base target) ((Path.ofText target).names ++ rest) place →
      Walks d (k + 1) base (name :: rest) place
  | file {k : Nat} {base : Location} {name : Text} {bytes : Text.Utf8.Octets} :
      name ≠ Path.up → d.locate? (base ++ [name]) = some (.file bytes) →
      Walks d k base [name] ⟨base ++ [name], some (.file bytes)⟩
  | absent {k : Nat} {base : Location} {name : Text} :
      name ≠ Path.up → d.locate? (base ++ [name]) = none → exceeds longestName name = false →
      Walks d k base [name] ⟨base ++ [name], none⟩

/-- **How a walk goes on at a link**, by the number of links that it may still follow. -/
def onLink (d : Disk) : (links : Nat) → Location → Text → List Text → Except Problem Place
  | 0, _, _, _ => .error .linkLoop
  | links + 1, base, target, rest =>
    d.walkLinks links (linkStart base target) ((Path.ofText target).names ++ rest)

theorem walkLinks_eq (d : Disk) (links : Nat) : d.walkLinks links = d.walk (onLink d links) := by
  cases links <;> rfl

theorem walks_of_walk {d : Disk} {k : Nat} {atLink : Location → Text → List Text → Except Problem Place}
    (hl : ∀ base name target rest place, name ≠ Path.up → d.locate? (base ++ [name]) = some (.link target) →
      atLink base target rest = .ok place → Walks d k base (name :: rest) place) :
    ∀ (names : List Text) (base : Location) (place : Place),
      d.walk atLink base names = .ok place → Walks d k base names place
  | [], base, place, h => by
    simp only [Disk.walk, Except.ok.injEq] at h
    exact h ▸ .stay
  | name :: rest, base, place, h => by
    rw [Disk.walk] at h
    split at h
    · rename_i hup
      exact hup ▸ .up (walks_of_walk hl rest _ _ h)
    · rename_i hup
      split at h
      · rename_i hd
        exact .into hup hd (walks_of_walk hl rest _ _ h)
      · rename_i target ht
        exact hl _ _ _ _ _ hup ht h
      · rename_i bytes hf
        split at h
        · rename_i hr
          simp only [List.isEmpty_iff] at hr
          simp only [Except.ok.injEq] at h
          exact hr ▸ h ▸ .file hup hf
        · cases h
      · rename_i hn
        split at h
        · cases h
        · rename_i hlong
          split at h
          · rename_i hr
            simp only [List.isEmpty_iff] at hr
            simp only [Except.ok.injEq] at h
            exact hr ▸ h ▸ .absent hup hn (by simpa using hlong)
          · cases h

theorem walks_of_walkLinks {d : Disk} : ∀ (k : Nat) {base : Location} {names : List Text} {place : Place},
    d.walkLinks k base names = .ok place → Walks d k base names place
  | 0, base, names, place, h => by
    rw [walkLinks_eq] at h
    exact walks_of_walk (fun _ _ _ _ _ _ _ h => by cases h) names base place h
  | k + 1, base, names, place, h => by
    rw [walkLinks_eq] at h
    exact walks_of_walk (fun _ _ _ _ _ hup ht h => .follow hup ht (walks_of_walkLinks k h)) names base place h

theorem Walks.walkLinks {d : Disk} {k : Nat} {base : Location} {names : List Text} {place : Place}
    (h : Walks d k base names place) : d.walkLinks k base names = .ok place := by
  induction h with
  | stay => rw [walkLinks_eq, Disk.walk]
  | up _ ih =>
    rw [walkLinks_eq] at ih ⊢
    rw [Disk.walk, if_pos rfl, ih]
  | into hup hd _ ih =>
    rw [walkLinks_eq] at ih ⊢
    rw [Disk.walk, if_neg hup, hd]
    exact ih
  | follow hup ht _ ih =>
    rw [walkLinks_eq, Disk.walk, if_neg hup, ht]
    exact ih
  | file hup hf => rw [walkLinks_eq, Disk.walk, if_neg hup, hf]; rfl
  | absent hup hn hlong => rw [walkLinks_eq, Disk.walk, if_neg hup, hn]; simp [hlong]

/-- **The relation holds exactly for the walks that end.** -/
theorem walks_iff {d : Disk} {k : Nat} {base : Location} {names : List Text} {place : Place} :
    Walks d k base names place ↔ d.walkLinks k base names = .ok place :=
  ⟨Walks.walkLinks, walks_of_walkLinks k⟩

theorem Walks.mono {d : Disk} {k : Nat} {base : Location} {names : List Text} {place : Place}
    (h : Walks d k base names place) : ∀ {j : Nat}, k ≤ j → Walks d j base names place := by
  induction h with
  | stay => exact fun _ => .stay
  | up _ ih => exact fun hj => .up (ih hj)
  | into hup hd _ ih => exact fun hj => .into hup hd (ih hj)
  | follow hup ht _ ih =>
    intro j hj
    obtain ⟨j, rfl⟩ : ∃ i, j = i + 1 := ⟨j - 1, by omega⟩
    exact .follow hup ht (ih (by omega))
  | file hup hf => exact fun _ => .file hup hf
  | absent hup hn hlong => exact fun _ => .absent hup hn hlong

/-- **A walk ends at one place**, however many links it may follow. -/
theorem Walks.unique {d : Disk} {j k : Nat} {base : Location} {names : List Text} {p q : Place}
    (hp : Walks d j base names p) (hq : Walks d k base names q) : p = q := by
  have h := (hp.mono (Nat.le_max_left j k)).walkLinks.symm.trans (hq.mono (Nat.le_max_right j k)).walkLinks
  exact Except.ok.inj h

/-- **A walk along two lists of names** passes a directory between them. -/
theorem Walks.split {d : Disk} {k : Nat} {base : Location} {a b : List Text} {place : Place}
    (h : Walks d k base (a ++ b) place) (hb : b ≠ []) :
    ∃ j l, j ≤ k ∧ Walks d k base a ⟨l, some .directory⟩ ∧ Walks d j l b place := by
  generalize hn : a ++ b = names at h
  induction h generalizing a with
  | stay => exact absurd (List.append_eq_nil_iff.1 hn).2 hb
  | @up k base rest place h ih =>
    cases a with
    | nil =>
      obtain rfl : b = _ := hn
      exact ⟨k, base, Nat.le_refl k, .stay, .up h⟩
    | cons x a =>
      simp only [List.cons_append, List.cons.injEq] at hn
      obtain ⟨j, l, hj, ha, hr⟩ := ih hn.2
      exact ⟨j, l, hj, hn.1 ▸ .up ha, hr⟩
  | @into k base name rest place hup hd h ih =>
    cases a with
    | nil =>
      obtain rfl : b = _ := hn
      exact ⟨k, base, Nat.le_refl k, .stay, .into hup hd h⟩
    | cons x a =>
      simp only [List.cons_append, List.cons.injEq] at hn
      obtain ⟨j, l, hj, ha, hr⟩ := ih hn.2
      exact ⟨j, l, hj, hn.1 ▸ .into hup hd ha, hr⟩
  | @follow k base name target rest place hup ht h ih =>
    cases a with
    | nil =>
      obtain rfl : b = _ := hn
      exact ⟨k + 1, base, Nat.le_refl _, .stay, .follow hup ht h⟩
    | cons x a =>
      simp only [List.cons_append, List.cons.injEq] at hn
      -- The names of the target come first, so the split moves with what is left of the first list.
      obtain ⟨j, l, hj, ha, hr⟩ := ih (a := (Path.ofText target).names ++ a) (by simp [hn.2])
      exact ⟨j, l, by omega, hn.1 ▸ .follow hup ht ha, hr⟩
  | @file k base name bytes hup hf =>
    cases a with
    | nil =>
      obtain rfl : b = _ := hn
      exact ⟨k, base, Nat.le_refl k, .stay, .file hup hf⟩
    | cons x a =>
      simp only [List.cons_append, List.cons.injEq, List.append_eq_nil_iff] at hn
      exact absurd hn.2.2 hb
  | @absent k base name hup hf hlong =>
    cases a with
    | nil =>
      obtain rfl : b = _ := hn
      exact ⟨k, base, Nat.le_refl k, .stay, .absent hup hf hlong⟩
    | cons x a =>
      simp only [List.cons_append, List.cons.injEq, List.append_eq_nil_iff] at hn
      exact absurd hn.2.2 hb

/-- **A walk to a directory goes on** from there. -/
theorem Walks.trans {d : Disk} {j k : Nat} {base l : Location} {a b : List Text} {place : Place}
    (ha : Walks d k base a ⟨l, some .directory⟩) (hb : Walks d j l b place) :
    Walks d (k + j) base (a ++ b) place := by
  generalize hm : (⟨l, some .directory⟩ : Place) = middle at ha
  induction ha with
  | stay =>
    cases hm
    exact hb.mono (Nat.le_add_left _ _)
  | up _ ih => exact .up (ih hm)
  | into hup hd _ ih => exact .into hup hd (ih hm)
  | @follow k base name target rest place hup ht _ ih =>
    have h := ih hm
    rw [List.append_assoc] at h
    rw [Nat.add_right_comm]
    exact .follow hup ht h
  | file => cases hm
  | absent => cases hm

/-! ## Places without links -/

/-- **No link lies at or below a location.** -/
def Disk.LinkFree (d : Disk) (l : Location) : Prop :=
  ∀ m target, l <+: m → d.locate? m ≠ some (.link target)

theorem Disk.LinkFree.below {d : Disk} {l m : Location} (h : d.LinkFree l) (hm : l <+: m) : d.LinkFree m :=
  fun _ _ hn => h _ _ (hm.trans hn)

/-- **Below a directory that holds no links a walk leads where its names say**, and finds what is there. -/
theorem Walks.location_of_linkFree {d : Disk} {k : Nat} {base : Location} {names : List Text} {place : Place}
    (h : Walks d k base names place) (hl : d.LinkFree base) (hup : Path.up ∉ names) :
    place.location = base ++ names := by
  induction h with
  | stay => simp
  | up => exact absurd List.mem_cons_self hup
  | into _ _ _ ih =>
    rw [ih (hl.below (List.prefix_append _ _)) fun h => hup (List.mem_cons_of_mem _ h)]
    simp
  | follow _ ht => exact absurd ht (hl _ _ (List.prefix_append _ _))
  | file => rfl
  | absent => rfl

/-- **What a walk to a name below a directory finds** is what lies there, unless that is a link. -/
theorem Walks.entry_of_single {d : Disk} {k : Nat} {base : Location} {name : Text} {place : Place}
    (h : Walks d k base [name] place) (hup : name ≠ Path.up)
    (hl : ∀ target, d.locate? (base ++ [name]) ≠ some (.link target)) :
    place = ⟨base ++ [name], d.locate? (base ++ [name])⟩ := by
  cases h with
  | up => exact absurd rfl hup
  | into _ hd h =>
    cases h
    rw [hd]
  | follow _ ht => exact absurd ht (hl _)
  | file _ hf => rw [hf]
  | absent _ hn => rw [hn]

/-- **A walk that does not end at a directory** ends at what lies at its location. -/
theorem Walks.entry_of_ne_directory {d : Disk} {k : Nat} {base : Location} {names : List Text} {place : Place}
    (h : Walks d k base names place) (hd : place.entry ≠ some .directory) :
    place.location ≠ [] ∧ d.locate? place.location = place.entry := by
  induction h with
  | stay => exact absurd rfl hd
  | up _ ih => exact ih hd
  | into _ _ _ ih => exact ih hd
  | follow _ _ _ ih => exact ih hd
  | file _ hf => exact ⟨by simp, hf⟩
  | absent _ hn _ => exact ⟨by simp, hn⟩

/-- **A walk never ends at a link.** -/
theorem Walks.entry_ne_link {d : Disk} {k : Nat} {base : Location} {names : List Text} {place : Place}
    (h : Walks d k base names place) (target : Text) : place.entry ≠ some (.link target) := by
  induction h with
  | stay => simp
  | up _ ih => exact ih
  | into _ _ _ ih => exact ih
  | follow _ _ _ ih => exact ih
  | file => simp
  | absent => simp

/-- **The names on the way of a walk never lead up** once it has ended. -/
theorem Walks.up_not_mem {d : Disk} {k : Nat} {base : Location} {names : List Text} {place : Place}
    (h : Walks d k base names place) (hb : Path.up ∉ base) : Path.up ∉ place.location := by
  induction h with
  | stay => exact hb
  | up _ ih => exact ih fun h => hb (List.dropLast_subset _ h)
  | into hup _ _ ih => exact ih (by simpa [hb] using fun h => hup h.symm)
  | @follow _ base _ target _ _ _ _ _ ih =>
    refine ih fun h => ?_
    unfold linkStart at h
    split at h
    · cases h
    · exact hb h
  | file hup => simpa [hb] using fun h => hup h.symm
  | absent hup => simpa [hb] using fun h => hup h.symm

end DocFerry.Files
