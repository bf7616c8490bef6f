import DocFerry.Text.WordTable
/-!
# Word characters

Letters, digits and the underscore: the characters a tag or attribute name goes on with.
-/
namespace DocFerry.Text

/-- **A letter, digit or underscore** of any script. -/
def isWordChar (c : Char) : Bool :=
  if c.toNat < 0x80 then c.isAlphanum || c == '_' else wordRanges.covers c.toNat

theorem isWordChar_of_isAlphanum {c : Char} (h : c.isAlphanum = true) (ha : c.toNat < 0x80) :
    isWordChar c = true := by
  simp [isWordChar, ha, h]

end DocFerry.Text
