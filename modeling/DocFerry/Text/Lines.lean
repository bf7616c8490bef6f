import DocFerry.Text.Basic
/-!
# Lines

Two notions of a line.  Documents are cut at the newline character alone (`lines`); the inside of a
metadata block is cut at every line boundary that Unicode knows (`allLines`), a carriage return
with its newline counting once and a boundary at the very end opening no further line.
-/
namespace DocFerry.Text

/-- **The lines of a text**, cut at newlines: always at least one. -/
def lines (s : Text) : List Text := splitWhere (· == '\n') s

def unlines (ls : List Text) : Text := join ['\n'] ls

def isLineBreak (c : Char) : Bool :=
  let n := c.toNat
  (0xa ≤ n && n ≤ 0xd) || (0x1c ≤ n && n ≤ 0x1e) || n == 0x85 || n == 0x2028 || n == 0x2029

/-- **The lines of a text**, cut at boundaries of any kind, each of which ends a line. -/
def allLines : Text → List Text
  | [] => []
  | '\r' :: '\n' :: rest => [] :: allLines rest
  | c :: rest =>
    if isLineBreak c then [] :: allLines rest
    else
      match allLines rest with
      | [] => [[c]]
      | line :: more => (c :: line) :: more

/-- **Newlines written one way**: a carriage return, with its newline if it has one, becomes a
newline. -/
def unifyNewlines : Text → Text
  | [] => []
  | '\r' :: '\n' :: rest => '\n' :: unifyNewlines rest
  | c :: rest => (if c == '\r' then '\n' else c) :: unifyNewlines rest

theorem unlines_lines (s : Text) : unlines (lines s) = s := join_splitWhere '\n' s

theorem lines_ne_nil (s : Text) : lines s ≠ [] := splitWhere_ne_nil _ s

end DocFerry.Text
