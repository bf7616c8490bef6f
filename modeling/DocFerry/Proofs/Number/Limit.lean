import Mathlib.Tactic.Ring
import DocFerry.Number.Rounding
/-!
# Whole numbers beyond every finite binary number

A whole number rounds to a finite binary number exactly if its size is below half a step beyond the greatest finite one,
`2 ^ 1024 - 2 ^ 970` (`ofInt?_eq_none_iff`).  At that size the tie goes to the even neighbour, which is infinity.
-/
namespace DocFerry.Binary64

/-- **The least size of a whole number that rounds to infinity.** -/
def overflow : Nat := 2 ^ 1024 - 2 ^ 970

/-- **The nearest whole number is below an even bound** exactly if the quotient is less than a half below it. -/
theorem nearestEven_lt_iff {num den bound : Nat} (hden : 0 < den) (heven : bound % 2 = 0) (hb : 0 < bound) :
    nearestEven num den < bound ↔ 2 * num + den < 2 * (bound * den) := by
  have hdiv : num / den * den + num % den = num := Nat.div_add_mod' num den
  have hmod : num % den < den := Nat.mod_lt num hden
  obtain ⟨last, rfl⟩ : ∃ last, bound = last + 1 := ⟨bound - 1, by omega⟩
  have hmul : (last + 1) * den = last * den + den := by ring
  unfold nearestEven
  dsimp only
  -- The quotient is below the last whole number before the bound, is that number, or is beyond it.
  rcases Nat.lt_trichotomy (num / den) last with h | h | h
  · have hle : (num / den + 1) * den ≤ last * den := Nat.mul_le_mul_right den h
    rw [Nat.add_mul, Nat.one_mul] at hle
    have hlt : 2 * num + den < 2 * ((last + 1) * den) := by omega
    have hsmall : num / den + num / den % 2 < last + 1 := by omega
    simp only [hlt, iff_true]
    split
    · omega
    · split
      · omega
      · exact hsmall
  · rw [h] at hdiv ⊢
    split
    · omega
    · split
      · omega
      · omega
  · have hle : (last + 1) * den ≤ num / den * den := Nat.mul_le_mul_right den h
    have hge : ¬ 2 * num + den < 2 * ((last + 1) * den) := by omega
    simp only [hge, iff_false]
    split
    · omega
    · split <;> omega

theorem le_nearestEven (num den : Nat) : num / den ≤ nearestEven num den := by
  unfold nearestEven
  dsimp only
  split
  · exact Nat.le_refl _
  · split
    · exact Nat.le_succ _
    · exact Nat.le_add_right _ _

/-- **The fields of a whole number**: its exponent, and the nearest significand. -/
theorem nearestRatio_one {n : Nat} (hne : n ≠ 0) : nearestRatio n 1 =
    min infiniteMagnitude ((n.log2 + 1022) * 2 ^ 52 + nearestEven (n * 2 ^ (52 - n.log2)) (2 ^ (n.log2 - 52))) := by
  have hlast : lastBit n 1 = (n.log2 : Int) - 52 := by
    have hself : 2 ^ n.log2 ≤ n := Nat.log2_self_le hne
    have hguess : (n.log2 : Int) - (Nat.log2 1 : Int) = n.log2 := by
      rw [show Nat.log2 1 = 0 by decide]
      omega
    simp only [lastBit, hguess, scaled, twoTo, Nat.pow_eq, Int.toNat_neg_natCast, Nat.pow_zero, Nat.mul_one,
      Int.toNat_natCast, Nat.one_mul, if_neg (Nat.not_lt.2 hself)]
    omega
  have hdown : ((n.log2 : Int) - 52).toNat = n.log2 - 52 := by omega
  have hup : (-((n.log2 : Int) - 52)).toNat = 52 - n.log2 := by omega
  have hfield : ((n.log2 : Int) - 52 + 1074).toNat = n.log2 + 1022 := by omega
  simp only [nearestRatio, if_neg hne, hlast, scaled, hdown, hup, hfield, twoTo, Nat.pow_eq, Nat.one_mul]

/-- **The significand of a whole number** has 53 bits before it is rounded. -/
theorem significand_bounds {n : Nat} (hne : n ≠ 0) :
    2 ^ 52 ≤ n * 2 ^ (52 - n.log2) / 2 ^ (n.log2 - 52) ∧ n * 2 ^ (52 - n.log2) / 2 ^ (n.log2 - 52) < 2 ^ 53 := by
  have hlow : 2 ^ n.log2 ≤ n := Nat.log2_self_le hne
  have hhigh : n < 2 ^ (n.log2 + 1) := Nat.lt_log2_self
  have hpow : 2 ^ n.log2 * 2 ^ (52 - n.log2) = 2 ^ 52 * 2 ^ (n.log2 - 52) := by
    rw [← Nat.pow_add, ← Nat.pow_add]
    congr 1
    omega
  have hden : 0 < 2 ^ (n.log2 - 52) := Nat.two_pow_pos _
  constructor
  · rw [Nat.le_div_iff_mul_le hden, ← hpow]
    exact Nat.mul_le_mul_right _ hlow
  · rw [Nat.div_lt_iff_lt_mul hden]
    calc n * 2 ^ (52 - n.log2) < 2 ^ (n.log2 + 1) * 2 ^ (52 - n.log2) :=
          Nat.mul_lt_mul_of_pos_right hhigh (Nat.two_pow_pos _)
      _ = 2 * (2 ^ n.log2 * 2 ^ (52 - n.log2)) := by ring
      _ = 2 ^ 53 * 2 ^ (n.log2 - 52) := by rw [hpow]; ring

/-- **The limit in terms of its half step** `2 ^ 970`. -/
theorem overflow_eq : overflow + 2 ^ 970 = 2 ^ 54 * 2 ^ 970 := by
  have htop : 2 ^ 1024 = 2 ^ 54 * 2 ^ 970 := by rw [← Nat.pow_add]
  rw [overflow, htop]
  exact Nat.sub_add_cancel (Nat.le_mul_of_pos_left _ (Nat.two_pow_pos 54))

/-- **Numbers of 1024 bits**, where the limit lies: the significand reaches the next power of two exactly from the
limit on. -/
theorem nearestEven_top_lt_iff (n : Nat) : nearestEven n (2 ^ 971) < 2 ^ 53 ↔ n < overflow := by
  have heven := @nearestEven_lt_iff n (2 ^ 971) (2 ^ 53) (Nat.two_pow_pos _) (by decide) (by decide)
  have hstep : 2 ^ 971 = 2 * 2 ^ 970 := by rw [Nat.pow_succ, Nat.mul_comm]
  have hlimit := overflow_eq
  rw [heven, hstep]
  generalize overflow = limit at hlimit ⊢
  generalize 2 ^ 970 = half at hlimit ⊢
  omega

theorem nearestRatio_one_lt_iff {n : Nat} (hne : n ≠ 0) : nearestRatio n 1 < infiniteMagnitude ↔ n < overflow := by
  have hlow : 2 ^ n.log2 ≤ n := Nat.log2_self_le hne
  have hhigh : n < 2 ^ (n.log2 + 1) := Nat.lt_log2_self
  obtain ⟨hleast, hmost⟩ := significand_bounds hne
  have hfloor := le_nearestEven (n * 2 ^ (52 - n.log2)) (2 ^ (n.log2 - 52))
  have hround := nearestEven_le (n * 2 ^ (52 - n.log2)) (2 ^ (n.log2 - 52))
  have htop := nearestEven_top_lt_iff n
  have hlimit := overflow_eq
  rw [nearestRatio_one hne, infiniteMagnitude]
  -- Below 1024 bits the exponent leaves room for the significand, and beyond them it does not.
  rcases Nat.lt_trichotomy n.log2 1023 with h | h | h
  · have hn : n < 2 ^ 53 * 2 ^ 970 := by
      rw [← Nat.pow_add]
      exact hhigh.trans_le (Nat.pow_le_pow_right Nat.two_pos h)
    have hbelow : n < overflow := by
      generalize overflow = limit at hlimit ⊢
      generalize 2 ^ 970 = half at hlimit hn
      omega
    simp only [hbelow, iff_true]
    omega
  · have hup : 2 ^ (52 - n.log2) = 1 := by rw [h, Nat.sub_eq_zero_of_le (by decide), Nat.pow_zero]
    have hdown : 2 ^ (n.log2 - 52) = 2 ^ 971 := by rw [h]
    rw [hup, hdown, Nat.mul_one, h, ← htop]
    generalize nearestEven n (2 ^ 971) = significand
    omega
  · have hn : 2 ^ 54 * 2 ^ 970 ≤ n := by
      rw [← Nat.pow_add]
      exact (Nat.pow_le_pow_right (by decide) h).trans hlow
    have hbeyond : ¬ n < overflow := by
      generalize overflow = limit at hlimit ⊢
      generalize 2 ^ 970 = half at hlimit hn
      omega
    simp only [hbeyond, iff_false]
    omega

/-- **A whole number is finite** exactly below the limit. -/
theorem nearestDecimal_lt_iff (n : Nat) : nearestDecimal n 0 < infiniteMagnitude ↔ n < overflow := by
  have hpositive : 0 < overflow := by
    have hpowers : 2 ^ 970 < 2 ^ 1024 := Nat.pow_lt_pow_right Nat.one_lt_two (by decide)
    exact Nat.sub_pos_of_lt hpowers
  unfold nearestDecimal
  dsimp only
  split
  · rename_i hzero
    simp only [hzero, hpositive, iff_true]
    decide
  · rename_i hne
    split
    · rename_i hplaces
      have hbits : 1024 ≤ n.log2 := by omega
      have hlarge : overflow ≤ n :=
        (Nat.sub_le _ _).trans ((Nat.pow_le_pow_right (by decide) hbits).trans (Nat.log2_self_le hne))
      simp only [Nat.not_lt.2 hlarge, Nat.lt_irrefl]
    · rw [if_neg (by omega)]
      have hone : tenTo 0 = 1 := rfl
      rw [Int.neg_zero, Int.toNat_zero, hone, Nat.mul_one]
      exact nearestRatio_one_lt_iff hne

/-- **A whole number is taken** exactly below the limit, as the binary number nearest to it. -/
theorem ofInt?_eq_some_iff {i : Int} {x : Binary64} :
    ofInt? i = some x ↔ i.natAbs < overflow ∧ x = ofDecimal (i < 0) i.natAbs 0 := by
  have hlt := nearestDecimal_lt_iff i.natAbs
  unfold ofInt?
  dsimp only
  split
  · rename_i hfinite
    have hbelow : i.natAbs < overflow := hlt.1 (of_decide_eq_true hfinite)
    simp only [hbelow, true_and, Option.some.injEq, eq_comm]
  · rename_i hinfinite
    have hbeyond : ¬ i.natAbs < overflow := mt hlt.2 fun h => hinfinite (decide_eq_true h)
    simp only [hbeyond, false_and, reduceCtorEq]

/-- **A whole number is beyond every finite binary number** exactly from the limit on. -/
theorem ofInt?_eq_none_iff (i : Int) : ofInt? i = none ↔ overflow ≤ i.natAbs := by
  rw [Option.eq_none_iff_forall_ne_some]
  simp only [ne_eq, ofInt?_eq_some_iff, not_and]
  constructor
  · intro h
    exact Nat.le_of_not_lt fun hlt => h _ hlt rfl
  · exact fun h x hlt => absurd hlt (Nat.not_lt.2 h)

end DocFerry.Binary64
