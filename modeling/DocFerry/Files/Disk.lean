import DocFerry.Table
import DocFerry.Text.Utf8
import DocFerry.Files.Path
/-!
# Disks

A disk is a table from locations to entries: files with their octets, directories, and links to
other places.  A location is the list of names from the root on; the root is a directory that is
always there.

Main facts: writing an entry changes what is found at its location and nowhere else
(`locate?_put_self`, `locate?_put_ne`), and removing a tree takes away what lies at or below its root
and nothing else (`locate?_removeBelow`).
-/
namespace DocFerry.Files

open Text.Utf8 (Octets)

/-- **A place on the disk**: the names from the root on, none of them leading up. -/
abbrev Location := List Text

inductive Entry where
  /-- A file with its octets. -/
  | file (bytes : Octets)
  | directory
  /-- A link, with the text of the path it leads to. -/
  | link (target : Text)
  deriving DecidableEq, Repr, Inhabited

/-- **A disk**, and the directory that relative paths start from. -/
structure Disk where
  /-- The entries other than the root. -/
  entries : Table Location Entry := []
  here : Location := []
  deriving Repr, Inhabited

namespace Disk

/-- **The entry at a location**, none if there is nothing. -/
def locate? (d : Disk) (l : Location) : Option Entry :=
  if l = [] then some .directory else Table.get? l d.entries

/-- **An entry written** at a location. -/
def put (d : Disk) (l : Location) (e : Entry) : Disk :=
  if l = [] then d else { d with entries := Table.set l e d.entries }

/-- **Everything strictly below a location removed.** -/
def removeInside (d : Disk) (l : Location) : Disk :=
  { d with entries := d.entries.filter fun e => !(l.isPrefixOf e.1 && e.1 != l) }

/-- **Everything at or below a location removed.** -/
def removeBelow (d : Disk) (l : Location) : Disk :=
  { d with entries := d.entries.filter fun e => !l.isPrefixOf e.1 }

/-- **The names in the directory at a location.** -/
def namesAt (d : Disk) (l : Location) : List Text :=
  d.entries.filterMap fun e => if e.1.dropLast = l then e.1.getLast? else none

theorem locate?_root (d : Disk) : d.locate? [] = some .directory := by simp [locate?]

theorem locate?_put_self (d : Disk) {l : Location} (e : Entry) (h : l ≠ []) :
    (d.put l e).locate? l = some e := by
  simp [locate?, put, h, Table.get?_set_self]

theorem locate?_put_ne (d : Disk) {l other : Location} (e : Entry) (h : other ≠ l) :
    (d.put l e).locate? other = d.locate? other := by
  unfold put
  split
  · rfl
  · simp [locate?, Table.get?_set_ne d.entries e h]

theorem get?_filter_of_neg {t : Table Location Entry} {p : Location × Entry → Bool} {l : Location}
    (h : ∀ e, p (l, e) = false) : Table.get? l (t.filter p) = none := by
  induction t with
  | nil => rfl
  | cons x rest ih =>
    obtain ⟨k, v⟩ := x
    rw [List.filter_cons]
    split
    · rename_i hp
      have hk : k ≠ l := fun hk => by simp [hk, h v] at hp
      simp [Table.get?, hk, ih]
    · exact ih

theorem get?_filter_of_pos {t : Table Location Entry} {p : Location × Entry → Bool} {l : Location}
    (h : ∀ e, p (l, e) = true) : Table.get? l (t.filter p) = Table.get? l t := by
  induction t with
  | nil => rfl
  | cons x rest ih =>
    obtain ⟨k, v⟩ := x
    rw [List.filter_cons]
    by_cases hk : k = l
    · subst hk; simp [h v, Table.get?]
    · split <;> simp [Table.get?, hk, ih]

/-- **Removing a tree** takes away what lies at or below its root and nothing else. -/
theorem locate?_removeBelow (d : Disk) (l other : Location) (ho : other ≠ []) :
    (d.removeBelow l).locate? other = if l.isPrefixOf other then none else d.locate? other := by
  simp only [locate?, ho, if_false, removeBelow]
  split
  · rename_i hp
    exact get?_filter_of_neg fun e => by simp [hp]
  · rename_i hp
    exact get?_filter_of_pos fun e => by rw [Bool.eq_false_iff.2 hp]; rfl

end Disk
end DocFerry.Files
