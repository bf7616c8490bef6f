import Mathlib.Data.Nat.Find
import DocFerry.Proofs.Files.Walking
import DocFerry.Proofs.Table
/-!
# A path settles where it leads

Settling a path follows links without looking at what lies between them; finding a path looks at every
entry that it passes.  Where a path is found, settling it gives the same location, also on a disk that has
changed in between, as long as the links are the same (`settle_of_find`).

The invariant of the proof is on the links met so far: one that is settled leads where it says, and one
that is still being followed cannot be reached with the links that the walk has left, because a walk
through it would take at least as many again (`Traced`).
-/
namespace DocFerry.Files

/-- **The same links**, and the same start of relative paths. -/
structure Disk.SameLinks (d d' : Disk) : Prop where
  here : d'.here = d.here
  link : ∀ l target, d.locate? l = some (.link target) ↔ d'.locate? l = some (.link target)

theorem Disk.SameLinks.refl (d : Disk) : d.SameLinks d := ⟨rfl, fun _ _ => Iff.rfl⟩

theorem Disk.SameLinks.symm {d d' : Disk} (h : d.SameLinks d') : d'.SameLinks d :=
  ⟨h.here.symm, fun l t => (h.link l t).symm⟩

theorem Disk.SameLinks.trans {d e f : Disk} (h : d.SameLinks e) (k : e.SameLinks f) : d.SameLinks f :=
  ⟨k.here.trans h.here, fun l t => (h.link l t).trans (k.link l t)⟩

theorem Disk.SameLinks.start {d d' : Disk} (h : d.SameLinks d') (p : Path) : d'.start p = d.start p := by
  simp [Disk.start, h.here]

theorem Disk.SameLinks.linkFree {d d' : Disk} (h : d.SameLinks d') {l : Location} (hl : d.LinkFree l) :
    d'.LinkFree l := fun m t hm ht => hl m t hm ((h.link m t).2 ht)

/-- **The link at a location leads to another**, through so many links more. -/
def LinkLeads (d : Disk) (k : Nat) (m l : Location) : Prop :=
  ∃ target entry, d.locate? m = some (.link target) ∧
    Walks d k (linkStart m.dropLast target) (Path.ofText target).names ⟨l, entry⟩

theorem LinkLeads.unique {d : Disk} {j k : Nat} {m l l' : Location} (h : LinkLeads d j m l) (h' : LinkLeads d k m l') :
    l = l' := by
  obtain ⟨t, e, ht, hw⟩ := h
  obtain ⟨t', e', ht', hw'⟩ := h'
  cases ht.symm.trans ht'
  cases hw.unique hw'
  rfl

/-- **Links met so far, as they are**: a settled one leads where it says, and those still being followed lead
nowhere within the links that are left. -/
structure Traced (d : Disk) (k : Nat) (met : Disk.Met) (following : List Location) : Prop where
  settled : ∀ m l, Table.get? m met = some (some l) → ∃ j, LinkLeads d j m l
  open_iff : ∀ m, Table.get? m met = some none ↔ m ∈ following
  pending : ∀ m ∈ following, ∀ j < k, ∀ l, ¬ LinkLeads d j m l

theorem Traced.fewer {d : Disk} {j k : Nat} {met : Disk.Met} {following : List Location}
    (h : Traced d k met following) (hj : j ≤ k) : Traced d j met following :=
  ⟨h.settled, h.open_iff, fun m hm i hi => h.pending m hm i (by omega)⟩

theorem Traced.begin {d : Disk} {k : Nat} {met : Disk.Met} {following : List Location} {m : Location}
    (h : Traced d k met following) (hm : ∀ j < k, ∀ l, ¬ LinkLeads d j m l) :
    Traced d k (Table.set m none met) (m :: following) where
  settled n l hn := by
    by_cases hnm : n = m
    · rw [hnm, Table.get?_set_self] at hn; cases hn
    · rw [Table.get?_set_ne met none hnm] at hn
      exact h.settled n l hn
  open_iff n := by
    by_cases hnm : n = m
    · simp [hnm, Table.get?_set_self]
    · rw [Table.get?_set_ne met none hnm, h.open_iff]
      simp [hnm]
  pending n hn := by
    rcases List.mem_cons.1 hn with rfl | hn
    · exact hm
    · exact h.pending n hn

theorem Traced.close {d : Disk} {i k : Nat} {met met' : Disk.Met} {following : List Location} {m l : Location}
    (h : Traced d k met following) (hm : m ∉ following) (h' : Traced d i met' (m :: following))
    (hl : ∃ j, LinkLeads d j m l) : Traced d k (Table.set m (some l) met') following where
  settled n l' hn := by
    by_cases hnm : n = m
    · rw [hnm, Table.get?_set_self] at hn
      cases hn
      exact hnm ▸ hl
    · rw [Table.get?_set_ne met' _ hnm] at hn
      exact h'.settled n l' hn
  open_iff n := by
    by_cases hnm : n = m
    · simp [hnm, Table.get?_set_self, hm]
    · rw [Table.get?_set_ne met' _ hnm, h'.open_iff]
      simp [hnm]
  pending := h.pending

/-- **A link that leads somewhere does so through a least number of links.** -/
theorem least_linkLeads {d : Disk} {k : Nat} {m l : Location} (h : LinkLeads d k m l) :
    ∃ j ≤ k, LinkLeads d j m l ∧ ∀ i < j, ∀ l', ¬ LinkLeads d i m l' := by
  classical
  have hex : ∃ j, ∃ l', LinkLeads d j m l' := ⟨k, l, h⟩
  have hle : Nat.find hex ≤ k := Nat.find_min' hex ⟨l, h⟩
  refine ⟨Nat.find hex, hle, ?_, fun i hi l' hl' => Nat.find_min hex hi ⟨l', hl'⟩⟩
  obtain ⟨l', h'⟩ := Nat.find_spec hex
  rwa [h.unique h']

/-- **No more links are followed at once than the disk has entries.** -/
theorem length_following_lt {d : Disk} {following : List Location} {m : Location} {target : Text}
    (hnd : following.Nodup) (hlinks : ∀ n ∈ following, ∃ t, d.locate? n = some (.link t)) (hm : m ∉ following)
    (ht : d.locate? m = some (.link target)) : following.length < d.entries.length := by
  have hkeys : ∀ n t, d.locate? n = some (.link t) → n ∈ Table.keys d.entries := by
    intro n t h
    unfold Disk.locate? at h
    split at h
    · cases h
    · exact Table.mem_keys_of_get? h
  have hsub : m :: following ⊆ Table.keys d.entries := by
    intro n hn
    rcases List.mem_cons.1 hn with rfl | hn
    · exact hkeys _ _ ht
    · obtain ⟨t, h⟩ := hlinks n hn
      exact hkeys _ _ h
  have hlen := (List.nodup_cons.2 ⟨hm, hnd⟩).length_le_of_subset hsub
  simp only [List.length_cons, Table.keys, List.length_map] at hlen
  omega

/-- **A name that is no link** is passed. -/
theorem settleNames_cons {d : Disk} {follow : Disk.Met → Location → Text → Disk.Settling × Disk.Met} {met : Disk.Met}
    {base : Location} {name : Text} (hup : name ≠ Path.up) (hne : ∀ t, d.locate? (base ++ [name]) ≠ some (.link t))
    (rest : List Text) :
    d.settleNames follow met base (name :: rest) = d.settleNames follow met (base ++ [name]) rest := by
  rw [Disk.settleNames, if_neg hup]
  dsimp only
  split
  · rename_i t ht
    exact absurd ht (hne t)
  · rfl

/-- **Names that a walk follows settle where the walk ends**, whatever links have been met. -/
theorem settleNames_of_walks {d d' : Disk} (hs : d.SameLinks d') : ∀ (k : Nat) (names : List Text)
    {base : Location} {place : Place}, Walks d k base names place → ∀ {n : Nat} {met : Disk.Met}
    {following : List Location}, Traced d k met following → following.Nodup →
    (∀ m ∈ following, ∃ t, d'.locate? m = some (.link t)) → d'.entries.length ≤ n + following.length →
    ∃ met', d'.settleNames (d'.settleTarget n) met base names = (⟨place.location, true⟩, met') ∧
      Traced d k met' following := by
  intro k
  induction k using Nat.strongRecOn with
  | _ k ihk =>
  intro names
  induction names with
  | nil =>
    intro base place h n met following ht _ _ _
    cases h
    exact ⟨met, rfl, ht⟩
  | cons name rest ih =>
    intro base place h n met following ht hnd hlinks hn
    have hplain : name ≠ Path.up → (∀ t, d.locate? (base ++ [name]) ≠ some (.link t)) →
        d'.settleNames (d'.settleTarget n) met base (name :: rest) =
          d'.settleNames (d'.settleTarget n) met (base ++ [name]) rest :=
      fun hup hne => settleNames_cons hup (fun t ht => hne t ((hs.link _ _).2 ht)) rest
    cases h with
    | up h =>
      rw [Disk.settleNames, if_pos rfl]
      exact ih h ht hnd hlinks hn
    | into hup hd h =>
      rw [hplain hup (by simp [hd])]
      exact ih h ht hnd hlinks hn
    | file hup hf =>
      rw [hplain hup (by simp [hf])]
      exact ⟨met, rfl, ht⟩
    | absent hup hf _ =>
      rw [hplain hup (by simp [hf])]
      exact ⟨met, rfl, ht⟩
    | @follow k _ _ target _ _ hup hl h =>
      have hl' := (hs.link _ _).1 hl
      -- What the walk does after the link, given that the link itself has been settled.
      have hrest : ∃ l, LinkLeads d k (base ++ [name]) l ∧ ∀ {met : Disk.Met}, Traced d (k + 1) met following →
          ∃ met', d'.settleNames (d'.settleTarget n) met l rest = (⟨place.location, true⟩, met') ∧
            Traced d (k + 1) met' following := by
        rcases rest with _ | ⟨next, rest⟩
        · rw [List.append_nil] at h
          refine ⟨place.location, ⟨target, place.entry, hl, by simpa using h⟩, fun {met} ht => ⟨met, rfl, ht⟩⟩
        · obtain ⟨j, l, hj, ha, hb⟩ := h.split (by simp)
          refine ⟨l, ⟨target, _, hl, by simpa using ha⟩, fun {met} ht => ?_⟩
          obtain ⟨met', he, ht'⟩ := ihk j (by omega) _ hb (ht.fewer (by omega)) hnd hlinks hn
          exact ⟨met', he, ht'.settled, ht'.open_iff, ht.pending⟩
      obtain ⟨l, hlead, hgo⟩ := hrest
      have hopen : base ++ [name] ∉ following := fun hm => ht.pending _ hm k (by omega) l hlead
      rw [Disk.settleNames, if_neg hup]
      simp only [hl']
      cases hmet : Table.get? (base ++ [name]) met with
      | some known =>
        cases known with
        | none => exact absurd ((ht.open_iff _).1 hmet) hopen
        | some l' =>
          obtain ⟨j, hlead'⟩ := ht.settled _ _ hmet
          obtain rfl := hlead.unique hlead'
          exact hgo ht
      | none =>
        -- The target is settled with the fewest links that reach its end, which keeps the link itself pending.
        obtain ⟨i, hi, hleast, hmin⟩ := least_linkLeads hlead
        have hlt := length_following_lt hnd hlinks hopen hl'
        obtain ⟨n, rfl⟩ : ∃ m, n = m + 1 := ⟨n - 1, by omega⟩
        obtain ⟨t, e, hl1, hw⟩ := hleast
        cases hl.symm.trans hl1
        rw [List.dropLast_concat] at hw
        obtain ⟨met', he, ht'⟩ := ihk i (by omega) _ hw (n := n) ((ht.fewer (by omega)).begin hmin)
          (List.nodup_cons.2 ⟨hopen, hnd⟩)
          (fun m hm => (List.mem_cons.1 hm).elim (fun h => h ▸ ⟨_, hl'⟩) (hlinks m)) (by simp; omega)
        have hfollow : d'.settleTarget (n + 1) (Table.set (base ++ [name]) none met) base target =
            (⟨l, true⟩, met') := by
          rw [Disk.settleTarget]
          exact he
        rw [hfollow]
        exact hgo (ht.close hopen ht' ⟨k, hlead⟩)

namespace Disk

/-- **What a path leads to**, as a walk. -/
theorem walks_of_find {d : Disk} {p : Path} {place : Place} (h : d.find p = .ok place) :
    refusal? p = none ∧ Walks d maxLinks (d.start p) p.names place := by
  unfold find at h
  split at h
  · cases h
  · rename_i hr
    exact ⟨hr, walks_of_walkLinks _ h⟩

theorem start_of_here {d : Disk} (h : Path.up ∉ d.here) (p : Path) : Path.up ∉ d.start p := by
  unfold start
  split
  · simp
  · exact h

/-- **A path settles where a walk along it ends**, on any disk with the same links. -/
theorem settle_of_walks {d d' : Disk} (hs : d.SameLinks d') (hh : Path.up ∉ d.here) {k : Nat} {p : Path}
    {place : Place} (hw : Walks d k (d.start p) p.names place) : d'.settle p = place.location := by
  have htraced : Traced d k [] [] :=
    ⟨fun _ _ h => by simp [Table.get?] at h, fun _ => by simp [Table.get?], fun _ h => absurd h (by simp)⟩
  obtain ⟨met', he, _⟩ := settleNames_of_walks hs _ _ hw (n := d'.entries.length) htraced .nil (by simp) (by simp)
  unfold settle
  rw [hs.start, he]
  simp only
  rw [locationAlong_of_names [] (hw.up_not_mem (start_of_here hh p)), List.nil_append]

/-- **A path settles where it is found**, on any disk with the same links. -/
theorem settle_of_find {d d' : Disk} (hs : d.SameLinks d') (hh : Path.up ∉ d.here) {p : Path} {place : Place}
    (h : d.find p = .ok place) : d'.settle p = place.location :=
  settle_of_walks hs hh (walks_of_find h).2

end Disk
end DocFerry.Files
