/-!
# Sets of code points as ranges

A character class of many members is kept as a list of inclusive ranges of code points.
-/
namespace DocFerry.Text

/-- **A set of code points**: inclusive ranges, in ascending order. -/
abbrev Ranges := List (Nat × Nat)

/-- **Membership**: some range holds the code point. -/
def Ranges.covers (ranges : Ranges) (n : Nat) : Bool :=
  ranges.any fun r => r.1 ≤ n && n ≤ r.2

end DocFerry.Text
