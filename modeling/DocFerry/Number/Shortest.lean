import DocFerry.Text.Basic
import DocFerry.Number.Binary64
/-!
# The shortest decimal of a binary number

Numbers in a configuration are shown with the fewest digits that read back to the same value, and
of several such decimals with the nearest.  Digits are searched for by exact arithmetic on natural
numbers: a decimal reads back when it lies between the points halfway to the two neighbours.
-/
namespace DocFerry.Binary64

/-- **A positive finite value with its neighbourhood**, all in units of `2 ^ unit`: the value and
the ends of the interval that rounds to it, which belong to the interval if `closed`. -/
structure Neighbourhood where
  value : Nat
  /-- Halfway to the value below. -/
  low : Nat
  /-- Halfway to the value above. -/
  high : Nat
  /-- The ends round to the value. -/
  closed : Bool
  unit : Int

/-- **The neighbourhood of a positive finite value.**  Just above a power of two the value below is
only half as far away. -/
def neighbourhood (x : Binary64) : Neighbourhood :=
  let (m, q) := x.split
  let near := m = twoTo 52 ∧ -1074 < q
  ⟨4 * m, if near then 4 * m - 1 else 4 * m - 2, 4 * m + 2, m % 2 == 0, q - 2⟩

/-- **The decimal `digits * 10 ^ e` against `n * 2 ^ u`**, brought to a common scale. -/
def common (digits : Nat) (e : Int) (n : Nat) (u : Int) : Nat × Nat :=
  (digits * tenTo e.toNat * twoTo (-u).toNat, n * twoTo u.toNat * tenTo (-e).toNat)

/-- **A decimal reads back** to the value. -/
def Neighbourhood.holds (h : Neighbourhood) (digits : Nat) (e : Int) : Bool :=
  let l := common digits e h.low h.unit
  let r := common digits e h.high h.unit
  if h.closed then l.2 ≤ l.1 && r.1 ≤ r.2 else l.2 < l.1 && r.1 < r.2

/-- **The value on the grid `10 ^ e`**: the last grid point that is not above it, as a multiple. -/
def Neighbourhood.floorOn (h : Neighbourhood) (e : Int) : Nat :=
  let c := common 1 e h.value h.unit
  c.2 / c.1

/-- **The better of the two grid points around the value** that read back. -/
def Neighbourhood.onGrid? (h : Neighbourhood) (e : Int) : Option Nat :=
  let below := h.floorOn e
  let above := below + 1
  match h.holds below e, h.holds above e with
  | true, true =>
    let c := common (below + above) e (2 * h.value) h.unit
    some (if c.2 < c.1 ∨ (c.2 = c.1 ∧ below % 2 = 0) then below else above)
  | true, false => some below
  | false, true => some above
  | false, false => none

/-- **The least power of ten above the value**, from a guess that is at most one too small. -/
def Neighbourhood.scale (h : Neighbourhood) : Int :=
  let bits : Int := (Nat.log2 h.value : Int) + h.unit
  let guess : Int := (bits * 30103).fdiv 100000
  if h.floorOn guess = 0 then guess
  else if h.floorOn (guess + 1) = 0 then guess + 1
  else guess + 2

/-- Grids of `used + 1`, `used + 2`, … digits, `left` of them. -/
def Neighbourhood.search (h : Neighbourhood) (scale : Int) : (left used : Nat) → Nat × Int
  | 0, used => (h.floorOn (scale - used), scale - used)
  | left + 1, used =>
    match h.onGrid? (scale - (used + 1 : Nat)) with
    | some digits => (digits, scale - (used + 1 : Nat))
    | none => h.search scale left (used + 1)

/-- **The shortest decimal** `(digits, e)` that reads back to a positive finite value. -/
def shortest (x : Binary64) : Nat × Int :=
  let h := x.neighbourhood
  h.search h.scale 17 0

/-- **A natural number in decimal digits.** -/
def decimalDigits (n : Nat) : Text := Nat.toDigits 10 n

def dropZeros (digits : Text) : Text := Text.dropEndWhile (· == '0') digits

/-- **A power of ten with its sign and at least two digits.** -/
def exponentText (e : Int) : Text :=
  let digits := decimalDigits e.natAbs
  (if e < 0 then '-' else '+') :: (if digits.length < 2 then '0' :: digits else digits)

/-- **Digits laid out**: with a point, and at least one digit on both sides of it, if the leading
digit stands for `10 ^ -4` up to `10 ^ 15`, and else with a power of ten. -/
def layout (digits : Text) (lead : Int) : Text :=
  if lead < -4 ∨ 16 ≤ lead then
    let tail := digits.drop 1
    digits.take 1 ++ (if tail.isEmpty then [] else '.' :: tail) ++ 'e' :: exponentText lead
  else if lead < 0 then
    "0.".toList ++ List.replicate (-lead - 1).toNat '0' ++ digits
  else
    let n := lead.toNat + 1
    let fraction := digits.drop n
    digits.take n ++ List.replicate (n - digits.length) '0' ++
      '.' :: (if fraction.isEmpty then ['0'] else fraction)

/-- **The text of a binary number.** -/
def render (x : Binary64) : Text :=
  if x.isNaN then "nan".toList
  else
    (if x.negative then ['-'] else []) ++
      if x.magnitude = 0 then "0.0".toList
      else if x.magnitude = infiniteMagnitude then "inf".toList
      else
        let (n, e) := x.shortest
        let digits := decimalDigits n
        layout (dropZeros digits) (e + digits.length - 1)

end DocFerry.Binary64
