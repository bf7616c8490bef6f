import DocFerry.Table
import DocFerry.Yaml.Kind
/-!
# Tags

A tag declares what a node stands for: a scalar of some kind, octets, or one of the kinds of
collections.

Main fact: a tag that is known is one of the standard ones (`ofText_ne_unknown`).
-/
namespace DocFerry.Yaml

/-- **What a node is declared to be.** -/
inductive Tag where
  /-- A scalar of a kind. -/
  | scalar (kind : Kind)
  | octets
  | list
  | map
  /-- A set, given by the keys of a mapping. -/
  | set
  /-- A mapping declared as ordered, given by a list of mappings with one entry. -/
  | ordered
  /-- A list of pairs, given by a list of mappings with one entry. -/
  | pairs
  | unknown
  deriving DecidableEq, Repr, Inhabited

namespace Tag

/-- **The beginning of the standard tags.** -/
def standardStart : Text := "tag:yaml.org,2002:".toList

/-- **The standard tags** by what follows their beginning. -/
def standardNames : List (String × Tag) :=
  [("bool", .scalar .bool), ("float", .scalar .number), ("int", .scalar .int),
    ("merge", .scalar .merge), ("null", .scalar .null), ("timestamp", .scalar .timestamp),
    ("value", .scalar .standard), ("yaml", .scalar .mark), ("str", .scalar .text), ("binary", .octets),
    ("seq", .list), ("map", .map), ("set", .set), ("omap", .ordered), ("pairs", .pairs)]

def standardTags : Table Text Tag := standardNames.map fun t => (standardStart ++ t.1.toList, t.2)

def ofText (s : Text) : Tag := (Table.get? s standardTags).getD .unknown

/-- **The tag that says nothing**: what the node is, is then seen from its content. -/
def openText : Text := ['!']

theorem ofText_ne_unknown {s : Text} (h : ofText s ≠ .unknown) :
    Table.get? s standardTags = some (ofText s) := by
  unfold ofText at *
  cases hs : Table.get? s standardTags with
  | none => simp [hs] at h
  | some t => rfl

end Tag
end DocFerry.Yaml
