import DocFerry.Text.Basic
/-!
# Text as octets

Text is stored as UTF-8.  Reading is one pass of a machine over the octets: it yields a character
for each well-formed sequence, and nothing (`none`) for each longest piece that starts a sequence
and is not continued, or that cannot start one.  A strict reader refuses a file with such a piece; a
lenient one shows the replacement character in its place.

Main fact: octets below 0x80 are read as themselves (`pieces_ascii`).
-/
namespace DocFerry.Text.Utf8

abbrev Octets := List UInt8

/-- **Inside a sequence**: how many octets are still to come, the range the next one must lie in,
and the value of the bits so far. -/
structure Partial where
  /-- Octets still to come, at least one. -/
  left : Nat
  /-- Least value of the next octet. -/
  low : Nat
  /-- Greatest value of the next octet. -/
  high : Nat
  value : Nat

/-- **What an octet does where a character may start.** -/
inductive Start where
  | char (c : Char)
  /-- It begins a longer sequence. -/
  | lead (p : Partial)
  | stray

/-- **The role of an octet where a character may start**: overlong forms, surrogates and values
beyond the last code point are ruled out by the range of the second octet. -/
def start (b : Nat) : Start :=
  if b < 0x80 then .char (Char.ofNat b)
  else if b < 0xc2 then .stray
  else if b < 0xe0 then .lead ⟨1, 0x80, 0xbf, b - 0xc0⟩
  else if b < 0xf0 then
    .lead ⟨2, if b = 0xe0 then 0xa0 else 0x80, if b = 0xed then 0x9f else 0xbf, b - 0xe0⟩
  else if b < 0xf5 then
    .lead ⟨3, if b = 0xf0 then 0x90 else 0x80, if b = 0xf4 then 0x8f else 0xbf, b - 0xf0⟩
  else .stray

/-- **The reading machine**, between characters or inside a sequence. -/
def piecesFrom : Option Partial → Octets → List (Option Char)
  | none, [] => []
  | some _, [] => [none]
  | none, b :: rest =>
    match start b.toNat with
    | .char c => some c :: piecesFrom none rest
    | .lead p => piecesFrom (some p) rest
    | .stray => none :: piecesFrom none rest
  | some p, b :: rest =>
    if p.low ≤ b.toNat ∧ b.toNat ≤ p.high then
      let value := p.value * 64 + (b.toNat - 0x80)
      if p.left = 1 then some (Char.ofNat value) :: piecesFrom none rest
      else piecesFrom (some ⟨p.left - 1, 0x80, 0xbf, value⟩) rest
    else
      match start b.toNat with
      | .char c => none :: some c :: piecesFrom none rest
      | .lead q => none :: piecesFrom (some q) rest
      | .stray => none :: none :: piecesFrom none rest

/-- **The characters and ill-formed pieces of octets**, in order. -/
def pieces (bytes : Octets) : List (Option Char) := piecesFrom none bytes

/-- **Strict reading**: none if any piece is ill-formed. -/
def decode? (bytes : Octets) : Option Text := (pieces bytes).mapM id

/-- **Lenient reading**: the replacement character for each ill-formed piece. -/
def decodeLossy (bytes : Octets) : Text :=
  (pieces bytes).map fun piece => piece.getD (Char.ofNat 0xfffd)

def byteOrderMark : Char := Char.ofNat 0xfeff

def encode (s : Text) : Octets := s.flatMap String.utf8EncodeChar

/-- **Octets below 0x80 are read as themselves.** -/
theorem pieces_ascii (bytes : Octets) (h : ∀ b ∈ bytes, b.toNat < 0x80) :
    pieces bytes = bytes.map fun b => some (Char.ofNat b.toNat) := by
  unfold pieces
  induction bytes with
  | nil => rfl
  | cons b rest ih =>
    have hb : b.toNat < 0x80 := h b (by simp)
    rw [piecesFrom, start, if_pos hb]
    simp [ih fun c hc => h c (by simp [hc])]

end DocFerry.Text.Utf8
