import DocFerry.Text.Basic
import DocFerry.Text.PrintableTable
/-!
# Quoted text

A text inside a printed list or message stands between quotes: single ones, unless it holds a single
quote and no double quote.  The quote itself, backslashes, and characters that cannot be shown are
written as escapes.

Main fact: the quote chosen is one of the two (`quoteFor_cases`).
-/
namespace DocFerry.Text

def isPrintable (c : Char) : Bool :=
  if c.toNat < 0x80 then 0x20 ≤ c.toNat && c.toNat < 0x7f else printableRanges.covers c.toNat

/-- **A natural number in hexadecimal**, padded with zeros to a width. -/
def hexPadded (width n : Nat) : Text :=
  let digits := Nat.toDigits 16 n
  List.replicate (width - digits.length) '0' ++ digits

def quoteChar (quote c : Char) : Text :=
  if c == quote || c == '\\' then ['\\', c]
  else if c == '\n' then ['\\', 'n']
  else if c == '\r' then ['\\', 'r']
  else if c == '\t' then ['\\', 't']
  else if isPrintable c then [c]
  else if c.toNat < 0x100 then '\\' :: 'x' :: hexPadded 2 c.toNat
  else if c.toNat < 0x10000 then '\\' :: 'u' :: hexPadded 4 c.toNat
  else '\\' :: 'U' :: hexPadded 8 c.toNat

/-- **The quote a text is put between.** -/
def quoteFor (s : Text) : Char :=
  if s.contains '\'' && !s.contains '"' then '"' else '\''

def quoted (s : Text) : Text :=
  let quote := quoteFor s
  quote :: s.flatMap (quoteChar quote) ++ [quote]

theorem quoteFor_cases (s : Text) : quoteFor s = '"' ∨ quoteFor s = '\'' := by
  simp only [quoteFor]
  split <;> simp

end DocFerry.Text
