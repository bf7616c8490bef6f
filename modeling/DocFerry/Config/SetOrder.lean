import DocFerry.Config.Value
import DocFerry.Number.Sum
/-!
# The order of a set

A set of numbers is told in an order that depends on the numbers alone as long as no two of them want
one place: each member takes a place by its residue modulo `2 ^ 61 - 1`, in a room of more than twice
as many places as members, and the set is told place by place.  A member whose place is taken looks on
in steps that spread over the whole room.  A set with any other member is told in the order in which
it is written.

Main facts: a set in its order has the same members (`inSetOrder_perm`), and at most one member is in
order (`inSetOrder_single`).
-/
namespace DocFerry.Config

open Binary64

/-! ## The residue of a number -/

/-- **The modulus of residues**, a power of two less one. -/
def residueModulus : Nat := twoTo 61 - 1

/-- **The residue of a magnitude with the sign of its number.**  It is never one below zero. -/
def signedResidue (negative : Bool) (residue : Nat) : Int :=
  if negative then (if residue = 1 then -2 else -residue) else residue

/-- **The residue of a number**, the same for a whole and a binary number of one value; none without
a value. -/
def residue? : Int ⊕ Binary64 → Option Int
  | .inl i => some (signedResidue (i < 0) (i.natAbs % residueModulus))
  | .inr x =>
    if x.isFinite then
      let (m, q) := x.split
      some (signedResidue x.negative (m * twoTo (q % 61).toNat % residueModulus))
    else if x.isNaN then none
    else some (if x.negative then -314159 else 314159)

def residueBits (i : Int) : Nat := (i % (twoTo 64 : Nat)).toNat

/-! ## Places -/

/-- **The places of a set** with so many members: the least power of two above twice their number,
and eight for fewer than five. -/
def places (members : Nat) : Nat :=
  if members < 5 then 8 else twoTo (Nat.log2 (2 * members) + 1)

/-- **The first free place of a run** that starts at a place: ten places, if so many are there. -/
def freeInRun? (room : Nat) (taken : List Nat) (start : Nat) : Option Nat :=
  (List.range' start (if start + 9 < room then 10 else 1)).find? fun place => !taken.contains place

/-- **The place of a member**: the first free one of the runs that it tries in turn. -/
def freePlace (room : Nat) (taken : List Nat) : (fuel : Nat) → (bits start : Nat) → Nat
  | 0, _, start => start
  | fuel + 1, bits, start =>
    match freeInRun? room taken start with
    | some place => place
    | none => freePlace room taken fuel (bits / 32) ((start * 5 + 1 + bits / 32) % room)

/-- **Members with their places**, after those that have one. -/
def seat (room : Nat) : (seated : List (Nat × Value)) → List (Nat × Value) → List (Nat × Value)
  | seated, [] => seated
  | seated, (bits, member) :: rest =>
    let place := freePlace room (seated.map (·.1)) (room + 13) bits (bits % room)
    seat room (seated ++ [(place, member)]) rest

/-- **The residues of members**, each beside its member, if all are numbers. -/
def withResidues? : List Value → Option (List (Nat × Value))
  | [] => some []
  | member :: rest =>
    match member.keyNumber?.bind residue?, withResidues? rest with
    | some residue, some rest => some ((residueBits residue, member) :: rest)
    | _, _ => none

/-- **The members of a set in the order in which it is told.** -/
def inSetOrder (members : List Value) : List Value :=
  match withResidues? members with
  | none => members
  | some entries =>
    ((seat (places members.length) [] entries).mergeSort fun a b => a.1 ≤ b.1).map (·.2)

theorem seat_members (room : Nat) (seated rest : List (Nat × Value)) :
    (seat room seated rest).map (·.2) = seated.map (·.2) ++ rest.map (·.2) := by
  induction rest generalizing seated with
  | nil => simp [seat]
  | cons entry rest ih => simp [seat, ih]

theorem withResidues?_members {members : List Value} {entries : List (Nat × Value)}
    (h : withResidues? members = some entries) : entries.map (·.2) = members := by
  induction members generalizing entries with
  | nil => simp_all [withResidues?]
  | cons member rest ih =>
    unfold withResidues? at h
    split at h
    · next hrest =>
      cases h
      simp [ih hrest]
    · cases h

theorem inSetOrder_perm (members : List Value) : (inSetOrder members).Perm members := by
  unfold inSetOrder
  split
  · exact List.Perm.refl _
  · next entries h =>
    have hseat : (seat (places members.length) [] entries).map (·.2) = members := by
      rw [seat_members, withResidues?_members h]
      rfl
    have hperm := (List.mergeSort_perm (seat (places members.length) [] entries)
      fun a b => a.1 ≤ b.1).map (·.2)
    rwa [hseat] at hperm

theorem inSetOrder_single (member : Value) : inSetOrder [member] = [member] :=
  List.perm_singleton.1 (inSetOrder_perm [member])

end DocFerry.Config
