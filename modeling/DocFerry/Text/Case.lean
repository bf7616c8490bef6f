import DocFerry.Text.Basic
import DocFerry.Text.CaseTable
/-!
# Lower and upper case

Case maps of all scripts.  A capital sigma that ends a word becomes the final form, so lower case
depends on the neighbours of a character; every other character is mapped on its own.
-/
namespace DocFerry.Text

/-- **The image of a code point under runs**, itself where no run holds it. -/
def mapRuns (runs : List CaseRun) (n : Nat) : Nat :=
  match runs.find? fun r => r.first ≤ n && n ≤ r.last && (n - r.first) % r.step == 0 with
  | some r => r.target + (n - r.first)
  | none => n

/-- **Lower case of one character** that is not a capital sigma. -/
def lowerChar (c : Char) : Text :=
  if c.toNat < 0x80 then [c.toLower]
  else if c.toNat == 0x130 then [Char.ofNat 0x69, Char.ofNat 0x307]
  else [Char.ofNat (mapRuns lowerRuns c.toNat)]

/-- **Upper case of one character**, which may be several characters. -/
def upperChar (c : Char) : Text :=
  if c.toNat < 0x80 then [c.toUpper]
  else
    match upperExpansions.lookup c.toNat with
    | some ns => ns.map Char.ofNat
    | none => [Char.ofNat (mapRuns upperRuns c.toNat)]

/-- **Marks and modifiers** that neither start nor end a word. -/
def isCaseIgnorable (c : Char) : Bool :=
  if c.toNat < 0x80 then c.toNat ∈ [0x27, 0x2e, 0x3a, 0x5e, 0x60]
  else caseIgnorableRanges.covers c.toNat

def isCased (c : Char) : Bool :=
  if c.toNat < 0x80 then c.isAlpha else casedRanges.covers c.toNat

/-- **The next character that counts** in a direction has a case. -/
def facesCased (s : Text) : Bool :=
  (s.dropWhile isCaseIgnorable).head?.any isCased

/-- Lower case of a text, given what stands before it, nearest character first. -/
def lowerAfter : (before : Text) → Text → Text
  | _, [] => []
  | before, c :: rest =>
    (if c.toNat == 0x3a3 then
      [Char.ofNat (if facesCased before && !facesCased rest then 0x3c2 else 0x3c3)]
    else lowerChar c) ++ lowerAfter (c :: before) rest

def lower (s : Text) : Text := lowerAfter [] s

def upper (s : Text) : Text := s.flatMap upperChar

/-- **A word with its first character in upper case and the rest in lower case.** -/
def capitalize : Text → Text
  | [] => []
  | c :: rest => upperChar c ++ lower rest

theorem lowerChar_ascii {c : Char} (h : c.toNat < 0x80) : lowerChar c = [c.toLower] := by
  simp [lowerChar, h]

/-- **ASCII text is put in lower case letter by letter.** -/
theorem lower_ascii (s : Text) (h : ∀ c ∈ s, c.toNat < 0x80) : lower s = s.map Char.toLower := by
  suffices ∀ before, lowerAfter before s = s.map Char.toLower from this []
  induction s with
  | nil => intro _; rfl
  | cons c rest ih =>
    intro before
    have hc : c.toNat < 0x80 := h c (by simp)
    have hs : (c.toNat == 0x3a3) = false := by simp; omega
    rw [lowerAfter, ih (fun d hd => h d (by simp [hd])), lowerChar_ascii hc]
    simp [hs]

end DocFerry.Text
