import DocFerry.Proofs.Markup.Admonitions
import DocFerry.Proofs.Markup.Items
/-!
# Admonitions among other lines

Opening and closing fences look alike, and the kind of an admonition may be empty.  Where admonitions are not nested,
each of them still ends at its own closing line: the lines of a document are converted passage by passage, an
admonition to one callout and any other line to itself, however many there are and in whatever order
(`convertAdmonitions_passages`).
-/
namespace DocFerry.Markup

open Text

/-- **A line without a fence.** -/
structure UnfencedLine where
  text : Text
  oneLine : '\n' ∉ text
  noFence : ¬ ":::".toList <:+: text

/-- **An admonition between its fences**: one line or more, without a fence. -/
structure Fenced where
  indent : Text
  kind : Kind
  /-- What follows the kind on the opening line. -/
  remark : Text
  first : UnfencedLine
  rest : List UnfencedLine
  closingIndent : Text
  closingEnd : Text
  indent_blank : ∀ c ∈ indent, isSpaceOrTab c = true
  remark_oneLine : '\n' ∉ remark
  remark_head : ∀ c ∈ remark.head?, c.isAlpha = false
  closingIndent_blank : ∀ c ∈ closingIndent, isSpaceOrTab c = true
  closingEnd_blank : ∀ c ∈ closingEnd, isSpaceOrTab c = true

namespace Fenced

def opening (b : Fenced) : Text := b.indent ++ ":::".toList ++ b.kind.text ++ b.remark

def inside (b : Fenced) : List Text := (b.first :: b.rest).map (·.text)

def closing (b : Fenced) : Text := b.closingIndent ++ ":::".toList ++ b.closingEnd

/-- **The component of an admonition**, on paragraphs of its own, around its trimmed inside. -/
def translation (b : Fenced) : Text :=
  "\n\n<".toList ++ admonitionTag b.kind.text ++ ">\n\n".toList ++ trim (unlines b.inside) ++
    "\n\n</".toList ++ admonitionTag b.kind.text ++ ">\n\n".toList

end Fenced

/-- **A passage of a document**: a line without a fence, or an admonition. -/
inductive Passage where
  | line (l : UnfencedLine)
  | block (b : Fenced)

/-- **The lines of a passage.** -/
def Passage.lines : Passage → List Text
  | .line l => [l.text]
  | .block b => b.opening :: (b.inside ++ [b.closing])

/-- **The translation of a passage.** -/
def Passage.translation : Passage → Text
  | .line l => l.text
  | .block b => b.translation

/-! ## Fences -/

theorem fence?_append {indent rest : Text} (h : ∀ c ∈ indent, isSpaceOrTab c = true) :
    fence? (indent ++ ":::".toList ++ rest) = some rest := by
  rw [fence?, List.append_assoc, List.dropWhile_append_of_pos h]
  rfl

theorem newline_not_mem_of_blank {s : Text} (h : ∀ c ∈ s, isSpaceOrTab c = true) : '\n' ∉ s := fun hn =>
  absurd (h _ hn) (by decide)

namespace Fenced

variable (b : Fenced)

theorem opening?_opening : opening? b.opening = some b.kind.text := by
  have hremark : b.remark.takeWhile Char.isAlpha = [] := by
    have hhead := b.remark_head
    cases hr : b.remark with
    | nil => rfl
    | cons c rest => exact List.takeWhile_cons_of_neg (by simp [hhead c (by simp [hr])])
  rw [opening?, opening, List.append_assoc, fence?_append b.indent_blank, Option.map_some,
    List.takeWhile_append_of_pos b.kind.letters, hremark, List.append_nil]

theorem isClosing_closing : isClosing b.closing = true := by
  rw [isClosing, closing, fence?_append b.closingIndent_blank, Option.any_some, List.all_eq_true]
  exact b.closingEnd_blank

theorem isClosing_inside : ∀ line ∈ b.inside, isClosing line = false := by
  intro line hl
  obtain ⟨l, -, rfl⟩ := List.mem_map.1 hl
  exact isClosing_eq_false (fence?_eq_none l.noFence)

theorem translation_eq : b.translation = callout (admonitionTag b.kind.text) (unlines b.inside) := by
  unfold translation callout paragraph
  simp

end Fenced

theorem Passage.oneLine (p : Passage) : ∀ line ∈ p.lines, '\n' ∉ line := by
  cases p with
  | line l => simpa [Passage.lines] using l.oneLine
  | block b =>
    have hkind : '\n' ∉ b.kind.text := fun hn => absurd (b.kind.letters _ hn) (by decide)
    intro line hl
    rcases List.mem_cons.1 hl with rfl | hl
    · simp [Fenced.opening, newline_not_mem_of_blank b.indent_blank, hkind, b.remark_oneLine]
    · rcases List.mem_append.1 hl with hl | hl
      · obtain ⟨l, -, rfl⟩ := List.mem_map.1 hl
        exact l.oneLine
      · rw [List.mem_singleton.1 hl]
        simp [Fenced.closing, newline_not_mem_of_blank b.closingIndent_blank,
          newline_not_mem_of_blank b.closingEnd_blank]

/-! ## Passages one after the other -/

/-- **Each passage becomes one piece**, whatever passages follow it. -/
theorem convertLines_passages : ∀ (passages : List Passage),
    convertLines (passages.flatMap Passage.lines) = passages.map Passage.translation
  | [] => rfl
  | .line l :: passages => by
    have hkept := convertLines_cons (opening?_eq_none (fence?_eq_none l.noFence)) (passages.flatMap Passage.lines)
    rw [List.flatMap_cons, List.map_cons, ← convertLines_passages passages]
    exact hkept
  | .block b :: passages => by
    -- The first closing line behind the opening is the one of this block, as the lines inside are none.
    have hblock := convertLines_admonition b.opening?_opening (by simp [Fenced.inside]) b.isClosing_inside
      b.isClosing_closing (passages.flatMap Passage.lines)
    rw [List.flatMap_cons, List.map_cons, ← convertLines_passages passages, Passage.lines, List.cons_append,
      List.append_assoc, List.singleton_append, hblock, Passage.translation, b.translation_eq]

/-- **Admonitions are converted passage by passage**: each of them becomes the component of its kind around its trimmed
inside, and every other line stays as it is. -/
theorem convertAdmonitions_passages (passages : List Passage) :
    convertAdmonitions (unlines (passages.flatMap Passage.lines)) = unlines (passages.map Passage.translation) := by
  cases passages with
  | nil => rfl
  | cons p passages =>
    have hone : ∀ line ∈ (p :: passages).flatMap Passage.lines, '\n' ∉ line := by
      intro line hl
      obtain ⟨q, -, hq⟩ := List.mem_flatMap.1 hl
      exact q.oneLine line hq
    have hne : (p :: passages).flatMap Passage.lines ≠ [] := by
      cases p <;> simp [Passage.lines]
    rw [convertAdmonitions, lines_unlines hne hone, convertLines_passages]

example : convertAdmonitions ":::\n\n :::\n::\n\t:::tip: :::\na\nb\n:::".toList =
    "\n\n<Note>\n\n\n\n</Note>\n\n\n::\n\n\n<Tip>\n\na\nb\n\n</Tip>\n\n".toList := by decide

end DocFerry.Markup
