import DocFerry.Nav.Group
/-!
# Groups that share their parts

While navigation is put together a group may be held by several others, and what is added to it
later shows in all of them.  A pool keeps each group once and lets groups hold one another by
number; reading a group out of the pool follows those numbers.

Main fact: adding to a group leaves every other group's own items alone (`get?_add_ne`).
-/
namespace DocFerry.Nav

/-- **What a pooled group holds**: a page, or another group by its number. -/
inductive Member where
  /-- A page, by its slug. -/
  | page (slug : Text)
  /-- A group, by its number. -/
  | group (index : Nat)
  deriving DecidableEq, Repr

structure Pooled where
  /-- The name shown in the sidebar. -/
  label : Text
  /-- The sidebar shows the group open at first. -/
  expanded : Bool
  /-- What it holds, in display order. -/
  members : List Member

/-- **A pool of groups**, numbered from zero in order of their creation. -/
abbrev Pool := List Pooled

namespace Pool

/-- **A new group without items**, at the end of the pool. -/
def create (pool : Pool) (label : Text) (expanded : Bool) : Pool := pool ++ [⟨label, expanded, []⟩]

/-- **The members of a group**, none for a number that is not in use. -/
def members (pool : Pool) (g : Nat) : List Member := (pool[g]?.map (·.members)).getD []

/-- **A member added at the end of a group.** -/
def add (pool : Pool) (g : Nat) (m : Member) : Pool :=
  pool.modify g fun p => { p with members := p.members ++ [m] }

/-- **A page added to a group**, unless the group holds it. -/
def addPage (pool : Pool) (g : Nat) (slug : Text) : Bool × Pool :=
  if .page slug ∈ pool.members g then (false, pool) else (true, pool.add g (.page slug))

/-- **A group added to a group**, unless it holds nothing. -/
def addGroup (pool : Pool) (g child : Nat) : Bool × Pool :=
  if (pool.members child).isEmpty then (false, pool) else (true, pool.add g (.group child))

/-- The group of a number as a tree, to a bounded depth. -/
def groupWithin (pool : Pool) : (depth : Nat) → Nat → Group
  | 0, _ => { label := [] }
  | depth + 1, g =>
    match pool[g]? with
    | none => { label := [] }
    | some p =>
      { label := p.label
        items := p.members.map fun
          | .page slug => .page slug
          | .group child => (pool.groupWithin depth child).toItem
        expanded := p.expanded }

/-- **The group of a number as a tree.**  A group that does not hold itself, directly or through
others, is nested no deeper than there are groups. -/
def group (pool : Pool) (g : Nat) : Group := pool.groupWithin pool.length g

theorem get?_add_ne (pool : Pool) {g other : Nat} (m : Member) (h : other ≠ g) :
    (pool.add g m)[other]? = pool[other]? := by
  simp [add, Ne.symm h]

end Pool
end DocFerry.Nav
