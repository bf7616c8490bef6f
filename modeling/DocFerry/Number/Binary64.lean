/-!
# Sixty-four bit binary numbers

Ranks and positions are binary numbers of sixty-four bits.  A value is its sign and the other
sixty-three bits read as a natural number; on values that are numbers, comparing those is comparing
the values, and no arithmetic on them is needed.

Main facts: `le` is a total preorder whose ties are equal numbers (`le_total`, `le_trans`,
`key_eq_iff_same`).
-/
namespace DocFerry

/-- **A binary number of sixty-four bits**: its sign, and its exponent and fraction fields as one
natural number below `2 ^ 63`. -/
structure Binary64 where
  negative : Bool
  /-- The exponent and fraction fields. -/
  magnitude : Nat
  deriving DecidableEq, Repr

namespace Binary64

def twoTo (n : Nat) : Nat := Nat.pow 2 n

def tenTo (n : Nat) : Nat := Nat.pow 10 n

/-- **The fields of infinity**: every exponent bit set, no fraction bit. -/
def infiniteMagnitude : Nat := 0x7ff0000000000000

def zero : Binary64 := ⟨false, 0⟩

def infinity (negative : Bool) : Binary64 := ⟨negative, infiniteMagnitude⟩

/-- **The value that is not a number.** -/
def notANumber : Binary64 := ⟨false, 0x7ff8000000000000⟩

/-- **Another value that is not a number.** -/
def otherNotANumber : Binary64 := ⟨true, notANumber.magnitude⟩

/-- **Not a number**: every exponent bit set and some fraction bit. -/
def isNaN (x : Binary64) : Bool := infiniteMagnitude < x.magnitude

/-- **A number that is neither infinite nor missing.** -/
def isFinite (x : Binary64) : Bool := x.magnitude < infiniteMagnitude

/-- **The sixty-four bits** as one natural number. -/
def bits (x : Binary64) : Nat := (if x.negative then twoTo 63 else 0) + x.magnitude

/-- **The place of a number on the line**: growing with the value, the same for both zeros. -/
def key (x : Binary64) : Int := if x.negative then -(x.magnitude : Int) else x.magnitude

def lt (x y : Binary64) : Bool := x.key < y.key

def le (x y : Binary64) : Bool := x.key ≤ y.key

/-- **Equal as numbers**: both zeros are, and nothing is equal to a value that is no number. -/
def same (x y : Binary64) : Bool := !x.isNaN && !y.isNaN && x.key == y.key

/-- **The significand and exponent of a finite value**: it is `significand * 2 ^ exponent`. -/
def split (x : Binary64) : Nat × Int :=
  let field : Nat := x.magnitude / twoTo 52
  let fraction : Nat := x.magnitude % twoTo 52
  if field = 0 then (fraction, -1074) else (twoTo 52 + fraction, (field : Int) - 1075)

theorem le_total (x y : Binary64) : x.le y = true ∨ y.le x = true := by
  simp only [le, decide_eq_true_eq]
  omega

theorem le_trans {x y z : Binary64} (hxy : x.le y = true) (hyz : y.le z = true) : x.le z = true := by
  simp only [le, decide_eq_true_eq] at *
  omega

theorem key_eq_iff_same {x y : Binary64} (hx : x.isNaN = false) (hy : y.isNaN = false) :
    x.key = y.key ↔ x.same y = true := by
  simp [same, hx, hy]

end Binary64
end DocFerry
