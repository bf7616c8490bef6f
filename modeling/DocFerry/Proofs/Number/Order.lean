import Mathlib.Algebra.Order.Field.Power
import Mathlib.Data.Int.ConditionallyCompleteOrder
import Mathlib.Data.Rat.Cast.Order
import Mathlib.Order.Monotone.Odd
import Mathlib.Order.WithBot
import Mathlib.Tactic.Linarith
import DocFerry.Number.Binary64
/-!
# The order of binary numbers

A binary number stands for a rational number, or for one of the two infinities.  Comparing the places
of two numbers on the line is comparing what they stand for.

Main facts: one more in the magnitude is a larger size (`size_lt_size_succ`), and the place on the line
orders numbers as their values are ordered (`key_lt_key_iff`, `key_eq_key_iff`).
-/
namespace DocFerry.Binary64

/-- **How far a finite number is from zero.** -/
def size (magnitude : Nat) : ℚ :=
  let parts := split ⟨false, magnitude⟩
  parts.1 * 2 ^ parts.2

/-- **What a number stands for**: a rational number, or an infinity. -/
def value (x : Binary64) : WithBot (WithTop ℚ) :=
  if x.isFinite then ((if x.negative then -size x.magnitude else size x.magnitude : ℚ) : WithTop ℚ)
  else if x.negative then ⊥ else ⊤

/-- **The size of a magnitude by its two fields.** -/
theorem size_fields (field : Nat) {fraction : Nat} (h : fraction < twoTo 52) :
    size (field * twoTo 52 + fraction) =
      if field = 0 then (fraction : ℚ) * 2 ^ (-1074 : ℤ)
      else (twoTo 52 + fraction : ℚ) * 2 ^ ((field : ℤ) - 1075) := by
  have hdiv : (field * twoTo 52 + fraction) / twoTo 52 = field := by
    rw [Nat.add_comm, Nat.add_mul_div_right _ _ (Nat.zero_lt_of_lt h), Nat.div_eq_of_lt h, Nat.zero_add]
  have hmod : (field * twoTo 52 + fraction) % twoTo 52 = fraction := by
    rw [Nat.mul_add_mod', Nat.mod_eq_of_lt h]
  simp only [size, split, hdiv, hmod]
  split
  · rfl
  · push_cast
    rfl

theorem size_zero : size 0 = 0 := by
  simpa using size_fields 0 (show 0 < twoTo 52 by decide)

/-- **One more in the magnitude is a larger size**: another fraction of the same exponent, or the
first fraction of the next one. -/
theorem size_lt_size_succ (m : Nat) : size m < size (m + 1) := by
  obtain ⟨field, fraction, hfraction, rfl⟩ : ∃ field fraction, fraction < twoTo 52 ∧ m = field * twoTo 52 + fraction :=
    ⟨m / twoTo 52, m % twoTo 52, Nat.mod_lt _ (by decide), (Nat.div_add_mod' _ _).symm⟩
  rcases Nat.lt_or_eq_of_le (Nat.succ_le_of_lt hfraction) with hnext | hlast
  · rw [Nat.add_assoc, size_fields field hfraction, size_fields field hnext]
    split
    · gcongr
      exact Nat.lt_succ_self _
    · gcongr
      exact Nat.lt_succ_self _
  · have hm : field * twoTo 52 + fraction + 1 = (field + 1) * twoTo 52 + 0 := by
      rw [Nat.add_assoc, ← Nat.succ_eq_add_one fraction, hlast, Nat.add_mul, Nat.one_mul, Nat.add_zero]
    have hunit : (twoTo 52 : ℚ) = fraction + 1 := by rw [← hlast, Nat.cast_succ]
    rw [hm, size_fields field hfraction, size_fields (field + 1) (by decide), if_neg (Nat.succ_ne_zero field), hunit]
    split
    · -- The first exponent with a hidden bit is that of the numbers without one.
      subst field
      norm_num
    · have hpower : (2 : ℚ) ^ (((field + 1 : ℕ) : ℤ) - 1075) = 2 * 2 ^ ((field : ℤ) - 1075) := by
        rw [← zpow_one_add₀ two_ne_zero]
        congr 1
        omega
      have hpos : (0 : ℚ) < 2 ^ ((field : ℤ) - 1075) := by positivity
      rw [hpower, Nat.cast_zero]
      linarith

theorem size_strictMono : StrictMono size :=
  strictMono_nat_of_lt_succ size_lt_size_succ

/-- **What stands at a place on the line**, the infinities not told apart from the numbers. -/
def stand (place : ℤ) : ℚ := if place < 0 then -size place.natAbs else size place.natAbs

theorem stand_neg (place : ℤ) : stand (-place) = -stand place := by
  rcases lt_trichotomy place 0 with h | rfl | h
  · simp [stand, h, h.not_gt]
  · simp [stand, size_zero]
  · simp [stand, h, h.not_gt]

theorem stand_strictMono : StrictMono stand := by
  refine strictMono_of_odd_strictMonoOn_nonneg stand_neg fun a ha b hb hab => ?_
  rw [Set.mem_Ici] at ha hb
  rw [stand, stand, if_neg ha.not_gt, if_neg hb.not_gt]
  exact size_strictMono (Int.natAbs_lt_natAbs_of_nonneg_of_lt ha hab)

/-! ## Values by places -/

theorem stand_key (x : Binary64) : stand x.key = if x.negative then -size x.magnitude else size x.magnitude := by
  cases hn : x.negative with
  | false => simp [key, hn, stand]
  | true =>
    simp only [key, hn, if_true, stand_neg]
    simp [stand]

theorem isFinite_iff_key {x : Binary64} :
    x.isFinite = true ↔ -(infiniteMagnitude : ℤ) < x.key ∧ x.key < infiniteMagnitude := by
  rw [isFinite, decide_eq_true_eq, key]
  split <;> omega

/-- **The value at a place**: the infinities are the two places furthest from zero. -/
theorem value_eq {x : Binary64} (hx : x.isNaN = false) :
    (x.key = -infiniteMagnitude ∧ x.value = ⊥) ∨ (x.key = infiniteMagnitude ∧ x.value = ⊤) ∨
      (-(infiniteMagnitude : ℤ) < x.key ∧ x.key < infiniteMagnitude ∧ x.value = (stand x.key : WithTop ℚ)) := by
  cases hf : x.isFinite with
  | true => exact .inr (.inr ⟨(isFinite_iff_key.1 hf).1, (isFinite_iff_key.1 hf).2, by rw [value, if_pos hf, stand_key]⟩)
  | false =>
    have hm : x.magnitude = infiniteMagnitude := by
      simp only [isNaN, isFinite, decide_eq_false_iff_not] at hx hf
      omega
    cases hn : x.negative with
    | true => exact .inl ⟨by rw [key, if_pos hn, hm], by simp [value, hf, hn]⟩
    | false => exact .inr (.inl ⟨by simp [key, hn, hm], by simp [value, hf, hn]⟩)

theorem stand_lt_top (place : ℤ) : ((stand place : WithTop ℚ) : WithBot (WithTop ℚ)) < ⊤ :=
  WithBot.coe_lt_coe.2 (WithTop.coe_lt_top _)

/-- **The place on the line orders numbers as their values are ordered.** -/
theorem key_lt_key_iff {x y : Binary64} (hx : x.isNaN = false) (hy : y.isNaN = false) :
    x.key < y.key ↔ x.value < y.value := by
  have hpos : 0 < infiniteMagnitude := by decide
  rcases value_eq hx with ⟨hkx, hvx⟩ | ⟨hkx, hvx⟩ | ⟨hlx, hrx, hvx⟩ <;>
    rcases value_eq hy with ⟨hky, hvy⟩ | ⟨hky, hvy⟩ | ⟨hly, hry, hvy⟩
  case inr.inr.inr.inr => rw [hvx, hvy, WithBot.coe_lt_coe, WithTop.coe_lt_coe, stand_strictMono.lt_iff_lt]
  all_goals
    simp only [hvx, hvy, lt_self_iff_false, bot_lt_top, WithBot.bot_lt_coe, stand_lt_top, not_lt_bot, not_top_lt,
      iff_true, iff_false]
    omega

/-- **Two numbers at one place have one value**, as the two zeros do. -/
theorem key_eq_key_iff {x y : Binary64} (hx : x.isNaN = false) (hy : y.isNaN = false) :
    x.key = y.key ↔ x.value = y.value := by
  rw [← not_iff_not, ← Ne, ← Ne, lt_or_lt_iff_ne.symm, ← lt_or_lt_iff_ne, key_lt_key_iff hx hy, key_lt_key_iff hy hx]

end DocFerry.Binary64
