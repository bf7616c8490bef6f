import DocFerry.Table
import DocFerry.Config.Calendar
import DocFerry.Number.Whole
/-!
# Configuration values

A configuration is a tree of values whose shapes are not known in advance.  Where a text is wanted
and something else is given, its printed form is taken, so each kind of value has one.  A collection
may hold itself; the place inside it then leads back to it by a number, and is printed as a mark.

Main facts: a text prints as itself (`print_text`), two texts are equal as keys exactly if they are
the same (`sameKey_text`), and a collection that does not hold itself is its own content
(`opened_map`).
-/
namespace DocFerry.Config

open Text

inductive Value where
  | null
  | bool (b : Bool)
  | int (i : Int)
  | number (x : Binary64)
  | text (s : Text)
  | day (d : Day)
  /-- A day with a time of day. -/
  | moment (m : Moment)
  | octets (bytes : List UInt8)
  | list (items : List Value)
  /-- A list of fixed length, as it serves for a key or a pair. -/
  | tuple (items : List Value)
  | set (items : List Value)
  /-- A mapping: keys with their values, in order. -/
  | map (entries : List (Value × Value))
  /-- A mapping declared as ordered. -/
  | ordered (entries : List (Value × Value))
  /-- A collection that holds itself: the number that leads back to it, and its content. -/
  | loop (number : Nat) (content : Value)
  /-- The collection of a number around this place. -/
  | back (number : Nat)
  deriving Inhabited

def boolText (b : Bool) : Text := (if b then "True" else "False").toList

def octetText (quote : Char) (b : UInt8) : Text :=
  let c := Char.ofNat b.toNat
  if c == quote || c == '\\' then ['\\', c]
  else if c == '\n' then ['\\', 'n']
  else if c == '\r' then ['\\', 'r']
  else if c == '\t' then ['\\', 't']
  else if 0x20 ≤ b.toNat && b.toNat < 0x7f then [c]
  else '\\' :: 'x' :: hexPadded 2 b.toNat

/-- **Octets between quotes**, after the letter that marks them. -/
def octetsText (bytes : List UInt8) : Text :=
  let quote := quoteFor (bytes.map fun b => Char.ofNat b.toNat)
  'b' :: quote :: bytes.flatMap (octetText quote) ++ [quote]

namespace Value

/-- **The mark of a collection inside itself.** -/
def loopMark : Value → Text
  | .list _ => "[...]".toList
  | .tuple _ => "(...)".toList
  | .map _ => "\x7b...\x7d".toList
  | _ => "...".toList

mutual

/-- **A value as it is shown inside a list or mapping**, with the marks of the collections around. -/
def nested (around : List (Nat × Text)) : Value → Text
  | .null => "None".toList
  | .bool b => boolText b
  | .int i => Whole.text i
  | .number x => x.render
  | .text s => quoted s
  | .day d => d.nested
  | .moment m => m.nested
  | .octets bytes => octetsText bytes
  | .list items => '[' :: join ", ".toList (nestedItems around items) ++ [']']
  | .tuple [item] => '(' :: nested around item ++ [',', ')']
  | .tuple items => '(' :: join ", ".toList (nestedItems around items) ++ [')']
  | .set [] => "set()".toList
  | .set items => '\x7b' :: join ", ".toList (nestedItems around items) ++ ['\x7d']
  | .map entries => '\x7b' :: join ", ".toList (nestedEntries around entries) ++ ['\x7d']
  | .ordered [] => "ordereddict()".toList
  | .ordered entries =>
    "ordereddict([".toList ++ join ", ".toList (nestedPairs around entries) ++ "])".toList
  | .loop n v =>
    match around.lookup n with
    | some mark => mark
    | none => nested ((n, v.loopMark) :: around) v
  | .back n => (around.lookup n).getD []

/-- Values as they are shown inside a list. -/
def nestedItems (around : List (Nat × Text)) : List Value → List Text
  | [] => []
  | item :: rest => nested around item :: nestedItems around rest

/-- Entries as they are shown inside a mapping. -/
def nestedEntries (around : List (Nat × Text)) : List (Value × Value) → List Text
  | [] => []
  | (key, value) :: rest =>
    (nested around key ++ ": ".toList ++ nested around value) :: nestedEntries around rest

/-- Entries as they are shown as pairs. -/
def nestedPairs (around : List (Nat × Text)) : List (Value × Value) → List Text
  | [] => []
  | (key, value) :: rest =>
    ('(' :: nested around key ++ ", ".toList ++ nested around value ++ [')']) ::
      nestedPairs around rest

end

/-- **The printed form of a value**: a text is its own, and days and times are written plainly. -/
def print : Value → Text
  | .text s => s
  | .day d => d.text
  | .moment m => m.text
  | v => v.nested []

mutual

/-- **A value that cannot be printed**: it holds a whole number with too many digits. -/
def isLong : Value → Bool
  | .int i => Whole.isLong i
  | .list items | .tuple items | .set items => anyLong items
  | .map entries | .ordered entries => anyLongEntry entries
  | .loop _ v => v.isLong
  | _ => false

/-- One of the values cannot be printed. -/
def anyLong : List Value → Bool
  | [] => false
  | item :: rest => item.isLong || anyLong rest

/-- A key or a value of the entries cannot be printed. -/
def anyLongEntry : List (Value × Value) → Bool
  | [] => false
  | (key, value) :: rest => key.isLong || value.isLong || anyLongEntry rest

end

/-- **The printed form of a value**, if it has one. -/
def print? (v : Value) : Except Whole.Fault Text :=
  if v.isLong then .error .longNumber else .ok v.print

/-! ## Keys -/

/-- **The number that a value is as a key**: truth values count as one and zero. -/
def keyNumber? : Value → Option (Int ⊕ Binary64)
  | .bool b => some (.inl (if b then 1 else 0))
  | .int i => some (.inl i)
  | .number x => some (.inr x)
  | _ => none

/-- **A binary number equal to a whole number.** -/
def equalsInt (x : Binary64) (i : Int) : Bool :=
  x.isFinite &&
    (let (m, q) := x.split
     let signed : Int := if x.negative then -(m : Int) else m
     signed * Binary64.twoTo q.toNat == i * Binary64.twoTo (-q).toNat)

/-- **Equal numbers**, whole or binary.  The standard value that is not a number is equal to itself. -/
def sameNumber : Int ⊕ Binary64 → Int ⊕ Binary64 → Bool
  | .inl i, .inl j => i == j
  | .inl i, .inr x => equalsInt x i
  | .inr x, .inl i => equalsInt x i
  | .inr x, .inr y => x.same y || (x == .notANumber && y == .notANumber)

mutual

/-- **Equal as keys of a mapping**: numbers by value, everything else by kind and content. -/
def sameKey : Value → Value → Bool
  | .null, .null => true
  | .text s, .text t => s == t
  | .day d, .day e => d == e
  | .moment m, .moment n => m.same n
  | .octets a, .octets b => a == b
  | .tuple a, .tuple b => sameKeys a b
  | v, w =>
    match v.keyNumber?, w.keyNumber? with
    | some x, some y => sameNumber x y
    | _, _ => false

def sameKeys : List Value → List Value → Bool
  | [], [] => true
  | v :: vs, w :: ws => sameKey v w && sameKeys vs ws
  | _, _ => false

end

instance : BEq Value := ⟨sameKey⟩

/-- **The value of a field named by a word**, none without such a field. -/
def field? (name : String) (entries : List (Value × Value)) : Option Value :=
  Table.get? (Value.text name.toList) entries

/-! ## Content -/

mutual

/-- **A value with another one in each place that leads back to a number.** -/
def fill (n : Nat) (w : Value) : Value → Value
  | .list items => .list (fillItems n w items)
  | .tuple items => .tuple (fillItems n w items)
  | .map entries => .map (fillEntries n w entries)
  | .ordered entries => .ordered (fillEntries n w entries)
  | .loop m v => if m = n then .loop m v else .loop m (fill n w v)
  | .back m => if m = n then w else .back m
  | v => v

def fillItems (n : Nat) (w : Value) : List Value → List Value
  | [] => []
  | item :: rest => fill n w item :: fillItems n w rest

/-- Entries filled; keys hold nothing that leads back. -/
def fillEntries (n : Nat) (w : Value) : List (Value × Value) → List (Value × Value)
  | [] => []
  | (key, value) :: rest => (key, fill n w value) :: fillEntries n w rest

end

/-- **A collection by its content**, each place in it that leads back holding the collection itself. -/
def opened : Value → Value
  | .loop n v => fill n (.loop n v) v
  | v => v

/-- **The entries of a mapping**, none for other values. -/
def entries? (v : Value) : Option (List (Value × Value)) :=
  match v.opened with
  | .map entries | .ordered entries => some entries
  | _ => none

/-- **The items of a list**, none for other values. -/
def items? (v : Value) : Option (List Value) :=
  match v.opened with
  | .list items => some items
  | _ => none

theorem print_text (s : Text) : print (.text s) = s := rfl

theorem sameKey_text (s t : Text) : sameKey (.text s) (.text t) = (s == t) := by
  simp [sameKey]

theorem opened_map (entries : List (Value × Value)) : opened (.map entries) = .map entries := rfl

end Value
end DocFerry.Config
