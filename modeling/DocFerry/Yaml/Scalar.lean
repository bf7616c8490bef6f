import DocFerry.Yaml.Cursor
import DocFerry.Yaml.Token
import DocFerry.Text.Digit
import DocFerry.Text.Utf8
/-!
# Scalars and names of a settings text

How the text of a scalar is read off its written form, in each of the styles: quoted, plain, and as
a block by indentation; and the names of anchors and tags.  A line break inside a scalar is folded
into a space unless the style keeps it.
-/
namespace DocFerry.Yaml

/-! ## Quoted scalars -/

/-- **Characters written as a letter after a backslash.** -/
def letterEscapes : List (Char × Nat) :=
  [('0', 0), ('a', 7), ('b', 8), ('t', 9), ('\t', 9), ('n', 10), ('v', 11), ('f', 12), ('r', 13),
    ('e', 27), (' ', 32), ('"', 34), ('/', 47), ('\\', 92), ('N', 0x85), ('_', 0xa0), ('L', 0x2028),
    ('P', 0x2029)]

/-- **Letters that announce a code point**, with the number of its hexadecimal digits. -/
def codeEscapes : List (Char × Nat) := [('x', 2), ('u', 4), ('U', 8)]

/-- **The value of hexadecimal digits**, none if one of them is none. -/
def hexNumber? (digits : Text) : Option Nat :=
  digits.foldlM (fun n c => (Text.hexValue? c).map fun v => n * 16 + v) 0

/-- **Line breaks inside a quoted scalar**, with the blanks around them. -/
def quotedBreaks? : (fuel : Nat) → Cursor → Option (Text × Cursor)
  | 0, _ => none
  | fuel + 1, c =>
    if c.isSeparator then none
    else
      let c := c.skipWhile fun ch => ch == ' ' || ch == '\t'
      match c.lineBreak? with
      | some (ch, c) => (quotedBreaks? fuel c).map fun r => (ch :: r.1, r.2)
      | none => some ([], c)

/-- **Blanks inside a quoted scalar**: kept within a line, and folded with a line break. -/
def quotedSpaces? (fuel : Nat) (c : Cursor) : Option (Text × Cursor) := do
  let (blanks, c) := c.run fun ch => ch == ' ' || ch == '\t'
  if c.peek == endMark then none
  else
    match c.lineBreak? with
    | some (ch, c) =>
      let (breaks, c) ← quotedBreaks? fuel c
      some ((if ch != '\n' then [ch] else if breaks.isEmpty then [' '] else []) ++ breaks, c)
    | none => some (blanks, c)

/-- **The number of an escape** after its backslash, if its letter announces one. -/
def escapeCode? (c : Cursor) : Option (Option (Nat × Cursor)) :=
  (codeEscapes.lookup c.peek).map fun width =>
    let digits := c.next.rest.take width
    if digits.length < width then none
    else (hexNumber? digits).map fun n => (n, c.next.skip width)

/-- **The low half of a pair of code units**, with its backslash. -/
def lowHalf? (c : Cursor) : Option (Nat × Cursor) :=
  if c.peek == '\\' then
    (escapeCode? c.next).join.filter fun r => 0xdc00 ≤ r.1 && r.1 ≤ 0xdfff
  else none

def character (n : Nat) : Except Fault Char :=
  if 0x80000000 ≤ n then .error .hugeCode
  else if 0x110000 ≤ n then .error .codePoint
  else .ok (Char.ofNat n)

/-- **The character of an escape's number**; two halves of a pair stand for one. -/
def escapedCharacter (n : Nat) (c : Cursor) : Except Fault (Text × Cursor) :=
  match if 0xd800 ≤ n && n ≤ 0xdbff then lowHalf? c else none with
  | some (low, c) => .ok ([Char.ofNat (0x10000 + (n - 0xd800) * 0x400 + (low - 0xdc00))], c)
  | none => (character n).map fun ch => ([ch], c)

/-- **An escape after its backslash**: what it stands for. -/
def quotedEscape (fuel : Nat) (c : Cursor) : Except Fault (Text × Cursor) :=
  match letterEscapes.lookup c.peek with
  | some n => .ok ([Char.ofNat n], c.next)
  | none =>
    match escapeCode? c with
    | some (some (n, c)) => escapedCharacter n c
    | some none => .error .malformed
    | none => formed (c.lineBreak?.bind fun r => quotedBreaks? fuel r.2)

/-- **A stop inside a quoted scalar.** -/
def isQuotedStop (c : Char) : Bool :=
  c == ' ' || c == '\t' || c == '\'' || c == '"' || c == '\\' || isBreakOrEnd c

/-- **The text of a quoted scalar up to blanks or its closing quote.** -/
def quotedWord (double : Bool) : (fuel : Nat) → Cursor → Except Fault (Text × Cursor)
  | 0, _ => .error .malformed
  | fuel + 1, c => do
    let (word, c) := c.run (!isQuotedStop ·)
    let ch := c.peek
    let piece : Option (Text × Cursor) ←
      if !double && ch == '\'' && c.peekAt 1 == '\'' then .ok (some (['\''], c.skip 2))
      else if (double && ch == '\'') || (!double && (ch == '"' || ch == '\\')) then
        .ok (some ([ch], c.next))
      else if double && ch == '\\' then (quotedEscape fuel c.next).map some
      else .ok none
    match piece with
    | none => .ok (word, c)
    | some (more, c) => (quotedWord double fuel c).map fun r => (word ++ more ++ r.1, r.2)

/-- **The text of a quoted scalar** after its opening quote. -/
def quotedRest (double : Bool) : (fuel : Nat) → Cursor → Except Fault (Text × Cursor)
  | 0, _ => .error .malformed
  | fuel + 1, c => do
    let (word, c) ← quotedWord double (fuel + 1) c
    if c.peek == (if double then '"' else '\'') then .ok (word, c.next)
    else
      let (blanks, c) ← formed (quotedSpaces? (fuel + 1) c)
      let (more, c) ← quotedRest double fuel c
      .ok (word ++ blanks ++ more, c)

def quotedScalar (double : Bool) (c : Cursor) : Except Fault (Text × Cursor) :=
  quotedRest double (c.rest.length + 1) c.next

/-! ## Plain scalars -/

/-- **The end of a plain scalar's word**: in brackets or braces more marks end it. -/
def isPlainStop (inFlow : Bool) (version : Version) (ch following : Char) : Bool :=
  if ch == ':' && !isEndOrBlank following then false
  else if ch == '?' && version != oldVersion then false
  else
    isEndOrBlank ch || (!inFlow && ch == ':' && isEndOrBlank following) ||
      (inFlow && (ch == ',' || ch == ':' || ch == '?' || ch == '[' || ch == ']' || ch == '\x7b' ||
        ch == '\x7d'))

/-- **The length of a plain scalar's word.** -/
def plainLength (inFlow : Bool) (version : Version) : Text → Nat
  | [] => 0
  | ch :: rest =>
    if isPlainStop inFlow version ch (rest.headD endMark) then 0
    else plainLength inFlow version rest + 1

/-- **Line breaks after the first one inside a plain scalar**; none at a mark between documents. -/
def plainBreaks? : (fuel : Nat) → Cursor → Option Text × Cursor
  | 0, c => (none, c)
  | fuel + 1, c =>
    let c := c.skipSpaces
    match c.lineBreak? with
    | some (ch, c) =>
      if c.isSeparator then (none, c)
      else
        let r := plainBreaks? fuel c
        (r.1.map (ch :: ·), r.2)
    | none => (some [], c)

/-- **Blanks inside a plain scalar**: what stands for them, none if the scalar ends here, the place
after them, and whether a line has been ended. -/
def plainSpaces (fuel : Nat) (c : Cursor) : Text × Cursor × Bool :=
  let (blanks, c) := c.run (· == ' ')
  match c.lineBreak? with
  | some (ch, c) =>
    if c.isSeparator then ([], c, true)
    else
      match plainBreaks? fuel c with
      | (none, c) => ([], c, true)
      | (some breaks, c) =>
        ((if ch != '\n' then [ch] else if breaks.isEmpty then [' '] else []) ++ breaks, c, true)
  | none => (blanks, c, false)

/-- **What a plain scalar leaves behind**: its text, the place after it, and whether a key may start
there. -/
structure PlainRead where
  text : Text
  cursor : Cursor
  /-- A line has been ended since the last word. -/
  newLine : Bool

/-- **A plain scalar**, from a word on; `pending` stands for the blanks before it. -/
def plainWords? (inFlow : Bool) (version : Version) (indent : Int) :
    (fuel : Nat) → (pending : Text) → (newLine : Bool) → Cursor → Option PlainRead
  | 0, _, _, _ => none
  | fuel + 1, pending, newLine, c =>
    if c.peek == '#' then some ⟨[], c, newLine⟩
    else
      let n := plainLength inFlow version c.rest
      let following := c.peekAt (n + 1)
      if inFlow && c.peekAt n == ':' &&
          !(isBreakOrEnd following || following == ' ' || following == '\t' || following == ',' ||
            following == '[' || following == ']' || following == '\x7b' || following == '\x7d') then
        none
      else if n = 0 then some ⟨[], c, newLine⟩
      else
        let word := c.rest.take n
        let (spaces, c, ended) := plainSpaces fuel (c.skip n)
        if spaces.isEmpty || c.peek == '#' || (!inFlow && c.column < indent) then
          some ⟨pending ++ word, c, ended⟩
        else
          (plainWords? inFlow version indent fuel spaces ended c).map fun r =>
            { r with text := pending ++ word ++ r.text }

/-- **A plain scalar** at an indentation. -/
def plainScalar? (inFlow : Bool) (version : Version) (indent : Int) (c : Cursor) : Option PlainRead :=
  plainWords? inFlow version indent (c.rest.length + 1) [] false c

/-! ## Block scalars -/

/-- **The head of a block scalar**: whether its last line breaks are kept, dropped or reduced to one,
and its indentation if it is given. -/
def blockHead? (c : Cursor) : Option (Option Bool × Option Nat × Cursor) :=
  let chomp (c : Cursor) : Option Bool × Cursor :=
    if c.peek == '+' then (some true, c.next)
    else if c.peek == '-' then (some false, c.next)
    else (none, c)
  let width (c : Cursor) : Option (Option Nat × Cursor) :=
    if c.peek.isDigit then
      if c.peek == '0' then none else some (some (c.peek.toNat - 0x30), c.next)
    else some (none, c)
  let (keep, c) := chomp c
  match width c with
  | none => none
  | some (indent, c) =>
    let (keep, c) := if keep.isNone && indent.isSome then chomp c else (keep, c)
    if isSpaceBreakOrEnd c.peek then some (keep, indent, c) else none

/-- **The rest of a line that says nothing more.** -/
def restOfLine? (c : Cursor) : Option Cursor :=
  let c := c.skipSpaces.skipComment
  if isBreakOrEnd c.peek then some c.skipBreak else none

/-- **Blank lines at the start of a block scalar**: their breaks, the greatest column reached, and
the column of the first break. -/
def leadingLines : (fuel : Nat) → (widest : Nat) → (first : Option Nat) → Cursor →
    Text × Nat × Option Nat × Cursor
  | 0, widest, first, c => ([], widest, first, c)
  | fuel + 1, widest, first, c =>
    if c.peek == ' ' then leadingLines fuel (max widest c.next.column) first c.next
    else
      match c.lineBreak? with
      | some (ch, next) =>
        let r := leadingLines fuel widest (first.or (some c.column)) next
        (ch :: r.1, r.2)
      | none => ([], widest, first, c)

def indentSpaces (indent : Nat) : (fuel : Nat) → Cursor → Cursor
  | 0, c => c
  | fuel + 1, c =>
    if c.column < indent && c.peek == ' ' then indentSpaces indent fuel c.next else c

/-- **Blank lines inside a block scalar.** -/
def blankLines (indent : Nat) : (fuel : Nat) → Cursor → Text × Cursor
  | 0, c => ([], c)
  | fuel + 1, c =>
    let c := indentSpaces indent indent c
    match c.lineBreak? with
    | some (ch, c) =>
      let r := blankLines indent fuel c
      (ch :: r.1, r.2)
    | none => ([], c)

/-- **What a line of a block scalar leaves behind.** -/
structure BlockRead where
  text : Text
  /-- The break that ended the last line, if one did. -/
  lastBreak : Text
  /-- The breaks of blank lines after it. -/
  breaks : Text
  cursor : Cursor

/-- **The lines of a block scalar.** -/
def blockLines (folded : Bool) (indent minIndent : Nat) : (fuel : Nat) → BlockRead → BlockRead
  | 0, r => r
  | fuel + 1, r =>
    let c := r.cursor
    let startsBlank := c.peek == ' ' || c.peek == '\t'
    let (line, c) := c.run (!isBreakOrEnd ·)
    let lastBreak := (c.lineBreak?.map fun b => [b.1]).getD []
    let (breaks, c) := blankLines indent (c.rest.length + 1) c.skipBreak
    let text := r.text ++ r.breaks ++ line
    if (minIndent = 0 ∧ c.column = 0 ∧ c.isSeparator) ∨ c.column ≠ indent ∨ c.peek = endMark then
      ⟨text, lastBreak, breaks, c⟩
    else
      let glue :=
        if folded && lastBreak == ['\n'] && !startsBlank && !(c.peek == ' ' || c.peek == '\t') then
          (if breaks.isEmpty then [' '] else [])
        else lastBreak
      blockLines folded indent minIndent fuel ⟨text ++ glue, lastBreak, breaks, c⟩

/-- **A block scalar**, folded or not, inside a collection at an indentation. -/
def blockScalar? (folded : Bool) (outer : Int) (c : Cursor) : Option (Text × Cursor) := do
  let (keep, width, c) ← blockHead? c.next
  let c ← restOfLine? c
  let fuel := c.rest.length + 1
  let least := (outer + 1).toNat
  let (minIndent, indent, breaks, c) ←
    match width with
    | none =>
      let (breaks, widest, first, c) := leadingLines fuel 0 none c
      if first.any fun f => 0 < f && f < widest then none
      else some (least, max least widest, breaks, c)
    | some n =>
      let least := max least 1
      let (breaks, c) := blankLines (least + n - 1) fuel c
      some (least, least + n - 1, breaks, c)
  let r : BlockRead :=
    if c.column = indent ∧ c.peek ≠ endMark then
      blockLines folded indent minIndent fuel ⟨[], [], breaks, c⟩
    else ⟨[], [], breaks, c⟩
  some (r.text ++ (if keep = some false then [] else r.lastBreak) ++
    (if keep = some true then r.breaks else []), r.cursor)

/-! ## Names -/

def isAnchorChar (c : Char) : Bool :=
  let n := c.toNat
  !(c == ',' || c == '[' || c == ']' || c == '\x7b' || c == '\x7d') &&
    ((0x21 ≤ n && n ≤ 0x7e) || (0xa0 ≤ n && n ≤ 0xd7ff) || (0xe000 ≤ n && n ≤ 0xfffd && n != 0xfeff) ||
      0x10000 ≤ n)

/-- **What may follow an anchor's name.** -/
def isAnchorEnd (c : Char) : Bool :=
  isBreakOrEnd c || " \t?:,[]\x7b\x7d%@`".toList.contains c

/-- **The name of an anchor** after its mark. -/
def anchorName? (c : Cursor) : Option (Text × Cursor) :=
  let (name, c) := c.next.run isAnchorChar
  if name.isEmpty || !isAnchorEnd c.peek then none else some (name, c)

/-- **Characters of a handle or of a directive's name.** -/
def isHandleChar (c : Char) : Bool := c.isAlphanum || c == '-' || c == '_'

/-- **A handle**: a mark alone, or a name between two of them. -/
def handle? (c : Cursor) : Option (Text × Cursor) :=
  if c.peek != '!' then none
  else if c.peekAt 1 == ' ' then some (['!'], c.next)
  else
    let (name, c) := c.next.run isHandleChar
    if c.peek == '!' then some ('!' :: name ++ ['!'], c.next) else none

def isTagChar (version : Version) (c : Char) : Bool :=
  c.isAlphanum || "-;/?:@&=+$,_.!~*'()[]".toList.contains c ||
    (c == '#' && (1 < version.1 || (version.1 == 1 && 1 < version.2)))

/-- **Octets written as escapes** in a tag's text. -/
def escapedOctets? : (fuel : Nat) → Cursor → Option (List UInt8 × Cursor)
  | 0, _ => none
  | fuel + 1, c =>
    if c.peek == '%' then do
      let high ← Text.hexValue? (c.peekAt 1)
      let low ← Text.hexValue? (c.peekAt 2)
      let (more, c) ← escapedOctets? fuel (c.skip 3)
      some (UInt8.ofNat (high * 16 + low) :: more, c)
    else some ([], c)

/-- The pieces of a tag's text. -/
def tagPieces? (version : Version) : (fuel : Nat) → Cursor → Option (Text × Cursor)
  | 0, _ => none
  | fuel + 1, c => do
    let (word, c) := c.run (isTagChar version)
    if c.peek == '%' then
      let (bytes, c) ← escapedOctets? (fuel + 1) c
      let piece ← Text.Utf8.decode? bytes
      let (more, c) ← tagPieces? version fuel c
      some (word ++ piece ++ more, c)
    else some (word, c)

/-- **A tag's text**, which is not empty. -/
def tagText? (version : Version) (c : Cursor) : Option (Text × Cursor) :=
  if isTagChar version c.peek || c.peek == '%' then tagPieces? version (c.rest.length + 1) c else none

/-- **A tag**: its handle, if it has one, and its text.  The short handles are one mark and two; a
handle with a name starts at the last of these. -/
def tag? (version : Version) (c : Cursor) : Option (Option Text × Text × Cursor) := do
  let (short, c) : Text × Cursor :=
    if c.peekAt 1 == '!' then (['!', '!'], c.next) else (['!'], c)
  let ch := c.peekAt 1
  let (handle, suffix, c) ←
    if ch == '<' then do
      let (suffix, c) ← tagText? version (c.skip 2)
      if c.peek == '>' then some (none, suffix, c.next) else none
    else if isEndOrBlank ch then some (none, short, c.next)
    else do
      let ahead := c.next.rest.takeWhile fun ch => !isSpaceBreakOrEnd ch
      let (handle, c) ← if ahead.contains '!' then handle? c else some (short, c.next)
      let (suffix, c) ← tagText? version c
      some (some handle, suffix, c)
  if isSpaceBreakOrEnd c.peek then some (handle, suffix, c) else none

end DocFerry.Yaml
