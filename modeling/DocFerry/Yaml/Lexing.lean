import DocFerry.Number.Whole
import DocFerry.Yaml.Scalar
import DocFerry.Yaml.Source
/-!
# The tokens of a settings text

Tokens are read from left to right.  Indentation opens and closes collections; and since a key is
known only by the colon after it, the place of every token that may be a key is remembered, at most
one for each level of brackets, until the colon comes, its line ends, or a thousand characters have
passed.

Where the text cannot be read further, the tokens end with the fault.

Main fact: a source of which nothing can be read has no token but its fault (`tokens_unread`).
-/
namespace DocFerry.Yaml

/-- **A token that may turn out to be a key.** -/
structure PossibleKey where
  /-- The level of brackets and braces. -/
  level : Nat
  /-- The number of the token. -/
  number : Nat
  /-- It must be a key. -/
  required : Bool
  index : Nat
  /-- The line it starts on. -/
  line : Nat
  /-- The column it starts in. -/
  column : Nat

inductive Flow where
  | list
  | map
  deriving DecidableEq, Repr

/-- **How far tokens have been read.** -/
structure Lexer where
  cursor : Cursor
  tokens : List Token := []
  /-- The indentation of the innermost collection by indentation. -/
  indent : Int := -1
  /-- The indentations outside it, innermost first. -/
  indents : List Int := []
  /-- The brackets and braces that are open, innermost first. -/
  flow : List Flow := []
  /-- A key may start here. -/
  allowKey : Bool := true
  /-- The tokens that may turn out to be keys. -/
  keys : List PossibleKey := []
  /-- The version the text has named. -/
  version : Version := standardVersion

namespace Lexer

def inFlow (l : Lexer) : Bool := !l.flow.isEmpty

def push (l : Lexer) (t : Token) : Lexer := { l with tokens := l.tokens ++ [t] }

/-- **The place moved on** by some characters. -/
def skip (l : Lexer) (n : Nat) : Lexer := { l with cursor := l.cursor.skip n }

/-- **Possible keys that can no longer be keys dropped**; none if one of them had to be one. -/
def dropStale? (l : Lexer) : Option Lexer :=
  let isStale := fun k : PossibleKey => k.line ≠ l.cursor.line ∨ 1024 < l.cursor.index - k.index
  if l.keys.any fun k => isStale k && k.required then none
  else some { l with keys := l.keys.filter fun k => !isStale k }

/-- **The possible key of this level dropped**; none if it had to be one. -/
def dropKey? (l : Lexer) : Option Lexer :=
  if l.keys.any fun k => k.level = l.flow.length && k.required then none
  else some { l with keys := l.keys.filter fun k => k.level ≠ l.flow.length }

/-- **The token that comes remembered as a possible key**, where a key may start. -/
def rememberKey? (l : Lexer) : Option Lexer :=
  if l.allowKey then do
    let l ← l.dropKey?
    let c := l.cursor
    let key : PossibleKey :=
      ⟨l.flow.length, l.tokens.length, !l.inFlow && l.indent == (c.column : Int), c.index, c.line,
        c.column⟩
    some { l with keys := l.keys ++ [key] }
  else some l

/-- Collections by indentation closed down to a column. -/
def closeTo (column : Int) : (outer : List Int) → Lexer → Lexer
  | [], l => l
  | indent :: outer, l =>
    if column < l.indent then
      closeTo column outer { l.push .blockEnd with indent := indent, indents := outer }
    else l

/-- **Collections by indentation closed** down to a column, outside brackets and braces. -/
def unwind (l : Lexer) (column : Int) : Lexer := if l.inFlow then l else closeTo column l.indents l

/-- **A deeper indentation entered**, if the column is one. -/
def deepen (l : Lexer) (column : Nat) : Bool × Lexer :=
  if l.indent < column then (true, { l with indent := column, indents := l.indent :: l.indents })
  else (false, l)

/-- Blanks, comments and line breaks passed. -/
def skipBlank : (fuel : Nat) → Lexer → Lexer
  | 0, l => l
  | fuel + 1, l =>
    let c := (l.cursor.skipWhile fun ch => ch == ' ' || (l.inFlow && ch == '\t')).skipComment
    match c.lineBreak? with
    | some (_, c) => skipBlank fuel { l with cursor := c, allowKey := l.allowKey || !l.inFlow }
    | none => { l with cursor := c }

/-- **The place of the next token**; a byte-order mark in front of the text is passed. -/
def toNext (l : Lexer) : Lexer :=
  let l := if l.cursor.index = 0 ∧ l.cursor.peek.toNat = 0xfeff then l.skip 1 else l
  l.skipBlank (l.cursor.rest.length + 1)

/-- **What ends a document's tokens**: every collection by indentation is closed, and no key may
come. -/
def closeAll? (l : Lexer) : Option Lexer := do
  let l ← (l.unwind (-1)).dropKey?
  some { l with allowKey := false }

def directiveNumber (c : Cursor) : Except Fault (Nat × Cursor) :=
  let (digits, c) := c.run Char.isDigit
  if digits.isEmpty then .error .malformed
  else
    match Whole.read 10 digits with
    | .ok n => .ok (n.toNat, c)
    | .error fault => .error (.whole fault)

/-- **The version that a directive names.** -/
def directiveVersion (c : Cursor) : Except Fault (Version × Cursor) := do
  let (major, c) ← directiveNumber c.skipSpaces
  if c.peek != '.' then .error .malformed
  else
    let (minor, c) ← directiveNumber c.next
    if isSpaceBreakOrEnd c.peek then .ok ((major, minor), c) else .error .malformed

/-- **The handle that a directive declares**, and the beginning that it stands for. -/
def directiveHandle? (version : Version) (c : Cursor) : Option (Text × Text × Cursor) := do
  let (handle, c) ← handle? c.skipSpaces
  if c.peek != ' ' then none
  else
    let (start, c) ← tagText? version c.skipSpaces
    if isSpaceBreakOrEnd c.peek then some (handle, start, c) else none

def directive (l : Lexer) : Except Fault Lexer := do
  let l ← formed l.closeAll?
  let (name, c) := l.cursor.next.run fun ch => isHandleChar ch || ch == ':' || ch == '.'
  if name.isEmpty || !isSpaceBreakOrEnd c.peek then .error .malformed
  else
    let (token, version, c) : Token × Version × Cursor ←
      if name = "YAML".toList then do
        let (version, c) ← directiveVersion c
        .ok (.versionDirective version, version, c)
      else if name = "TAG".toList then do
        let (handle, start, c) ← formed (directiveHandle? l.version c)
        .ok (.tagDirective handle start, l.version, c)
      else .ok (.otherDirective, l.version, c.skipWhile (!isBreakOrEnd ·))
    let c ← formed (restOfLine? c)
    .ok { l.push token with cursor := c, version := version }

def open? (l : Lexer) (flow : Flow) (token : Token) : Option Lexer := do
  let l ← l.rememberKey?
  some { (l.push token).skip 1 with flow := flow :: l.flow, allowKey := true }

def close? (l : Lexer) (token : Token) : Option Lexer := do
  let l ← l.dropKey?
  some { (l.push token).skip 1 with flow := l.flow.drop 1, allowKey := false }

/-- **A comma in brackets or braces.** -/
def flowEntryMark? (l : Lexer) : Option Lexer := do
  let l ← l.dropKey?
  some { (l.push .flowEntry).skip 1 with allowKey := true }

/-- **A collection by indentation opened at this column**, if it is deeper than the one around. -/
def openBlock (l : Lexer) (token : Token) : Lexer :=
  match l.deepen l.cursor.column with
  | (true, l) => l.push token
  | (false, l) => l

/-- **A hyphen that starts an entry.** -/
def blockEntryMark? (l : Lexer) : Option Lexer :=
  if !l.inFlow && !l.allowKey then none
  else do
    let l := if l.inFlow then l else l.openBlock .blockListStart
    let l ← l.dropKey?
    some { (l.push .blockEntry).skip 1 with allowKey := true }

/-- **A question mark that starts a key.** -/
def key? (l : Lexer) : Option Lexer :=
  if !l.inFlow && !l.allowKey then none
  else do
    let l := if l.inFlow then l else l.openBlock .blockMapStart
    let l ← l.dropKey?
    some { (l.push .key).skip 1 with allowKey := !l.inFlow }

/-- **Tokens put before the token of a number.** -/
def insertAt (tokens : List Token) (number : Nat) (new : List Token) : List Token :=
  tokens.take number ++ new ++ tokens.drop number

/-- **A colon that starts a value**: the possible key of this level is one. -/
def value? (l : Lexer) : Option Lexer :=
  match l.keys.find? fun k => k.level = l.flow.length with
  | some k =>
    let l := { l with keys := l.keys.filter fun k => k.level ≠ l.flow.length }
    let (opens, l) := if l.inFlow then (false, l) else l.deepen k.column
    let tokens := insertAt l.tokens k.number (if opens then [.blockMapStart, .key] else [.key])
    let l := { l with tokens := tokens, allowKey := false }
    some ((l.push .value).skip 1)
  | none =>
    if !l.inFlow && !l.allowKey then none
    else do
      let l := if l.inFlow then l else l.openBlock .blockMapStart
      let l := { l with allowKey := !l.inFlow }
      let l ← l.dropKey?
      some ((l.push .value).skip 1)

/-- **A name or tag in front of a node**, or the name of an earlier one. -/
def property? (l : Lexer) (read : Cursor → Option (Token × Cursor)) : Option Lexer := do
  let l ← l.rememberKey?
  let (token, c) ← read l.cursor
  some { l.push token with cursor := c, allowKey := false }

def block? (l : Lexer) (folded : Bool) : Option Lexer := do
  let l ← l.dropKey?
  let (text, c) ← blockScalar? folded l.indent l.cursor
  some { l.push (.scalar text false) with cursor := c, allowKey := true }

def quoted (l : Lexer) (double : Bool) : Except Fault Lexer := do
  let l ← formed l.rememberKey?
  let (text, c) ← quotedScalar double l.cursor
  .ok { l.push (.scalar text false) with cursor := c, allowKey := false }

def plain? (l : Lexer) : Option Lexer := do
  let l ← l.rememberKey?
  let r ← plainScalar? l.inFlow l.version (l.indent + 1) l.cursor
  some { l.push (.scalar r.text true) with cursor := r.cursor, allowKey := r.newLine }

/-- **A hyphen stands for an entry**, a question mark for a key, only before a blank. -/
def beforeBlank (l : Lexer) : Bool := isEndOrBlank (l.cursor.peekAt 1)

/-- **A colon stands for a value**: before a blank, and in braces nearly everywhere.  `waiting` says
that tokens are waiting for a possible key. -/
def startsValue (l : Lexer) (waiting : Bool) : Bool :=
  if l.version = oldVersion then l.inFlow || l.beforeBlank
  else
    match l.flow.head? with
    | none => l.beforeBlank
    | some .list => l.beforeBlank
    | some .map =>
      if waiting && l.tokens.getLast? == some .value then l.beforeBlank else true

/-- **Characters that no plain scalar starts with.** -/
def indicators : List Char := "-?:,[]\x7b\x7d#&*!|>'\"%@\x60".toList

def startsPlain (l : Lexer) : Bool :=
  let ch := l.cursor.peek
  let following := l.cursor.peekAt 1
  if !(isBreakOrEnd ch || ch == ' ' || ch == '\t' || indicators.contains ch) then true
  else if l.version ≠ oldVersion ∧ ch = ':' ∧ l.inFlow ∧ following ≠ ' ' ∧ following ≠ '\t' then true
  else !isEndOrBlank following && (ch == '-' || (!l.inFlow && (ch == '?' || ch == ':')))

def separator? (l : Lexer) (token : Token) : Option Lexer := do
  let l ← l.closeAll?
  some ((l.push token).skip 3)

/-- **The token at this place**, neither a directive nor a quoted scalar. -/
def mark? (l : Lexer) (waiting : Bool) : Option Lexer :=
  let c := l.cursor
  let ch := c.peek
  let atStart := c.column = 0
  if atStart ∧ c.isMarker '-' then l.separator? .documentStart
  else if atStart ∧ c.isMarker '.' then l.separator? .documentEnd
  else if ch = '[' then l.open? .list .flowListStart
  else if ch = '\x7b' then l.open? .map .flowMapStart
  else if ch = ']' then l.close? .flowListEnd
  else if ch = '\x7d' then l.close? .flowMapEnd
  else if ch = ',' then l.flowEntryMark?
  else if ch = '-' ∧ l.beforeBlank then l.blockEntryMark?
  else if ch = '?' ∧ (l.inFlow ∨ l.beforeBlank) then l.key?
  else if ch = ':' ∧ l.startsValue waiting then l.value?
  else if ch = '*' then l.property? fun c => (anchorName? c).map fun r => (.alias r.1, r.2)
  else if ch = '&' then l.property? fun c => (anchorName? c).map fun r => (.anchor r.1, r.2)
  else if ch = '!' then l.property? fun c => (tag? l.version c).map fun r => (.tag r.1 r.2.1, r.2.2)
  else if ch = '|' ∧ !l.inFlow then l.block? false
  else if ch = '>' ∧ !l.inFlow then l.block? true
  else if l.startsPlain then l.plain?
  else none

def token (l : Lexer) (waiting : Bool) : Except Fault Lexer :=
  let ch := l.cursor.peek
  if ch = '%' ∧ l.cursor.column = 0 then l.directive
  else if ch = '\'' then l.quoted false
  else if ch = '"' then l.quoted true
  else formed (l.mark? waiting)

/-- **The tokens that are certain** where the next one cannot be read: a token that may be a key is not,
nor is any token after it. -/
def brokenOff (l : Lexer) (fault : Fault) : List Token :=
  let known := l.keys.foldl (fun n k => min n k.number) l.tokens.length
  l.tokens.take known ++ [.broken fault]

/-- **Why no token may end here**: where a text goes on unread, the reader has to look at one more
character than it has passed. -/
def stopped? (l : Lexer) (stop : Option Fault) : Option Fault :=
  if (l.cursor.rest.drop 1).isEmpty then stop else none

/-- **A quoted scalar without an end starts here.** -/
def isUnclosed (l : Lexer) : Bool :=
  let quote := l.cursor.peek
  (quote == '"' || quote == '\'') &&
    (quotedScalar (quote == '"') { l.cursor with rest := l.cursor.rest ++ [quote] }).isOk

/-- **The fault of the token at this place**: where a text goes on unread, a quoted scalar may end in
what is not read. -/
def cause (l : Lexer) (stop : Option Fault) (fault : Fault) : Fault :=
  match stop with
  | some more => if l.isUnclosed then more else fault
  | none => fault

/-- **The next token read**; all tokens if this is the end, or the text cannot be read further. -/
def advance (stop : Option Fault) (l : Lexer) : List Token ⊕ Lexer :=
  match l.dropStale? with
  | none => .inl (l.brokenOff .malformed)
  | some l =>
    let next := l.toNext
    match next.stopped? stop, next.dropStale? with
    | some fault, _ => .inl (l.brokenOff fault)
    | none, none => .inl (l.brokenOff .malformed)
    | none, some next =>
      let next := next.unwind next.cursor.column
      if next.cursor.rest.isEmpty then
        match next.closeAll? with
        | none => .inl (l.brokenOff .malformed)
        | some last => .inl (last.tokens ++ [.textEnd])
      else
        match next.token (!l.keys.isEmpty) with
        | .error fault => .inl (l.brokenOff (next.cause stop fault))
        | .ok read =>
          match read.stopped? stop with
          | some fault => .inl (l.brokenOff fault)
          | none => .inr read

/-- Tokens up to the end of the text, at most so many. -/
def finish (stop : Option Fault) : (fuel : Nat) → Lexer → List Token
  | 0, l => l.brokenOff .malformed
  | fuel + 1, l =>
    match l.advance stop with
    | .inl tokens => tokens
    | .inr read => finish stop fuel read

end Lexer

/-- **The tokens of a settings text.**  Every token but the last takes at least one character. -/
def tokens (s : Source) : List Token :=
  Lexer.finish s.stop (s.text.length + 1) { cursor := { rest := s.text } }

theorem tokens_unread (fault : Fault) : tokens ⟨[], some fault⟩ = [.broken fault] := by rfl

end DocFerry.Yaml
