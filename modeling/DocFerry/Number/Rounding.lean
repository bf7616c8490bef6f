import DocFerry.Number.Binary64
/-!
# Rounding to the nearest binary number

An exact decimal `digits * 10 ^ exponent` becomes the nearest binary number of sixty-four bits, a
tie going to the even neighbour, by arithmetic on natural numbers alone.  A decimal too large for
every finite value becomes infinity.
-/
namespace DocFerry.Binary64

/-- **The natural number nearest to `num / den`**, a tie going to the even one. -/
def nearestEven (num den : Nat) : Nat :=
  let q := num / den
  let r := num % den
  if 2 * r < den then q
  else if den < 2 * r then q + 1
  else q + q % 2

/-- **Two natural numbers scaled** by a power of two so that their quotient is divided by
`2 ^ shift`. -/
def scaled (num den : Nat) (shift : Int) : Nat × Nat :=
  (num * twoTo (-shift).toNat, den * twoTo shift.toNat)

/-- **The exponent of the last significand bit** of the binary number nearest to `num / den`: such
that the significand has 53 bits, but no less than that of the smallest positive value. -/
def lastBit (num den : Nat) : Int :=
  let guess : Int := (Nat.log2 num : Int) - (Nat.log2 den : Int)
  let s := scaled num den guess
  let top := if s.1 < s.2 then guess - 1 else guess
  max (top - 52) (-1074)

/-- **The fields of the binary number nearest to `num / den`.** -/
def nearestRatio (num den : Nat) : Nat :=
  if num = 0 then 0
  else
    let q := lastBit num den
    let s := scaled num den q
    min infiniteMagnitude ((q + 1074).toNat * twoTo 52 + nearestEven s.1 s.2)

/-- **The fields of the binary number nearest to `digits * 10 ^ exponent`.**  Beyond four hundred
places on either side the answer is plain and no power is computed. -/
def nearestDecimal (digits : Nat) (exponent : Int) : Nat :=
  let places : Int := (Nat.log2 digits : Int) * 3 / 10 + exponent
  if digits = 0 then 0
  else if 400 < places then infiniteMagnitude
  else if (Nat.log2 digits : Int) / 3 + 1 + exponent < -400 then 0
  else nearestRatio (digits * tenTo exponent.toNat) (tenTo (-exponent).toNat)

/-- **The binary number nearest to a signed decimal.** -/
def ofDecimal (negative : Bool) (digits : Nat) (exponent : Int) : Binary64 :=
  ⟨negative, nearestDecimal digits exponent⟩

/-- **The binary number nearest to an integer**, none if it is too large for a finite one. -/
def ofInt? (i : Int) : Option Binary64 :=
  let x := ofDecimal (i < 0) i.natAbs 0
  if x.isFinite then some x else none

theorem nearestEven_le (num den : Nat) : nearestEven num den ≤ num / den + 1 := by
  simp only [nearestEven]
  split
  · omega
  · split <;> omega

theorem nearestRatio_le (num den : Nat) : nearestRatio num den ≤ infiniteMagnitude := by
  simp only [nearestRatio]
  split
  · exact Nat.zero_le _
  · exact Nat.min_le_left _ _

theorem nearestDecimal_le (digits : Nat) (exponent : Int) :
    nearestDecimal digits exponent ≤ infiniteMagnitude := by
  simp only [nearestDecimal]
  split
  · exact Nat.zero_le _
  · split
    · exact Nat.le_refl _
    · split
      · exact Nat.zero_le _
      · exact nearestRatio_le _ _

/-- **A decimal always reads as a number.** -/
theorem isNaN_ofDecimal (negative : Bool) (digits : Nat) (exponent : Int) :
    (ofDecimal negative digits exponent).isNaN = false := by
  exact decide_eq_false (Nat.not_lt.2 (nearestDecimal_le digits exponent))

end DocFerry.Binary64
