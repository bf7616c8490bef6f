import DocFerry.Number.Rounding
/-!
# Sums of binary numbers

The sum and the product of two binary numbers, each rounded to the nearest binary number.

Main fact: a sum does not depend on the order (`plus_comm`).
-/
namespace DocFerry.Binary64

def negate (x : Binary64) : Binary64 := { x with negative := !x.negative }

/-- **The binary number nearest to `n * 2 ^ exponent`.** -/
def ofScaled (n : Int) (exponent : Int) : Binary64 :=
  ⟨n < 0, nearestRatio (n.natAbs * twoTo exponent.toNat) (twoTo (-exponent).toNat)⟩

/-- **The significand with its sign, and the exponent.** -/
def signedSplit (x : Binary64) : Int × Int :=
  let (m, q) := x.split
  (if x.negative then -(m : Int) else m, q)

/-- **The sum of two finite values.** -/
def finiteSum (x y : Binary64) : Binary64 :=
  let (m, p) := x.signedSplit
  let (n, q) := y.signedSplit
  ofScaled (m * twoTo (p - min p q).toNat + n * twoTo (q - min p q).toNat) (min p q)

/-- **The sum of two values**: infinities of different signs have none. -/
def plus (x y : Binary64) : Binary64 :=
  if x.isNaN || y.isNaN then notANumber
  else if x.isFinite && y.isFinite then finiteSum x y
  else if x.isFinite then y
  else if y.isFinite then x
  else if x.negative = y.negative then infinity x.negative
  else notANumber

/-- **The product of two values**: an infinity and zero have none. -/
def times (x y : Binary64) : Binary64 :=
  if x.isNaN || y.isNaN then notANumber
  else if x.isFinite && y.isFinite then
    let (m, p) := x.signedSplit
    let (n, q) := y.signedSplit
    ofScaled (m * n) (p + q)
  else if x.magnitude = 0 || y.magnitude = 0 then notANumber
  else infinity (x.negative != y.negative)

theorem finiteSum_comm (x y : Binary64) : x.finiteSum y = y.finiteSum x := by
  simp only [finiteSum, Int.min_comm x.signedSplit.2, Int.add_comm (x.signedSplit.1 * _)]

theorem plus_comm (x y : Binary64) : x.plus y = y.plus x := by
  unfold plus
  rw [finiteSum_comm x y]
  cases x.isNaN <;> cases y.isNaN <;> cases x.isFinite <;> cases y.isFinite <;> simp
  by_cases h : x.negative = y.negative
  · simp [h]
  · simp [h, Ne.symm h]

end DocFerry.Binary64
