import DocFerry.Text.Basic
/-!
# Blank characters, trimming and words

Blank means white space of any script, the four ASCII information separators included.  A word is a
maximal run of characters that are not separators.
-/
namespace DocFerry.Text

/-- **White space**: the ASCII blanks and separators, next line, and the Unicode spaces. -/
def isBlank (c : Char) : Bool :=
  let n := c.toNat
  (0x9 ≤ n && n ≤ 0xd) || (0x1c ≤ n && n ≤ 0x20) || n == 0x85 || n == 0xa0 || n == 0x1680 ||
    (0x2000 ≤ n && n ≤ 0x200a) || n == 0x2028 || n == 0x2029 || n == 0x202f || n == 0x205f ||
    n == 0x3000

/-- **A space or a tab**, the only blanks allowed inside a delimiter line. -/
def isSpaceOrTab (c : Char) : Bool := c == ' ' || c == '\t'

def trimStart (s : Text) : Text := s.dropWhile isBlank

def trimEnd (s : Text) : Text := dropEndWhile isBlank s

/-- **The text without blanks at either end.** -/
def trim (s : Text) : Text := trimEnd (trimStart s)

/-- **A run of one or more blanks** at the start: what follows it. -/
def skipBlanks? : Text → Option Text
  | c :: rest => if isBlank c then some (trimStart rest) else none
  | [] => none

/-- **The maximal runs free of separators.** -/
def wordsBy (sep : Char → Bool) (s : Text) : List Text :=
  (splitWhere sep s).filter fun piece => !piece.isEmpty

/-- **The maximal runs free of blanks.** -/
def words (s : Text) : List Text := wordsBy isBlank s

theorem isBlank_of_isWhitespace {c : Char} (h : c.isWhitespace = true) : isBlank c = true := by
  simp only [Char.isWhitespace, Bool.or_eq_true, decide_eq_true_eq] at h
  rcases h with ((rfl | rfl) | rfl) | rfl <;> decide

theorem trimStart_nil : trimStart [] = [] := rfl

theorem trim_nil : trim [] = [] := rfl

end DocFerry.Text
