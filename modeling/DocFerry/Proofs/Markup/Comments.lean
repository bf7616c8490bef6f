import DocFerry.Proofs.Markup.Tags
import DocFerry.Proofs.Text.Rewriting
/-!
# Comments of the new markup

Every comment of the old markup becomes an expression around its text, however many there are and whatever they hold,
and the text between them is kept.  A reader of the new markup takes the first `*/` for the end of the comment, so a
comment hides the whole of its text exactly if the text does not hold one (`convertComments_text`); of a text that does,
the rest comes to light (`comment_leaks`).
-/
namespace DocFerry.Markup

open Text

/-- **The text of a comment** of the old markup. -/
abbrev Remark := Free ["-->".toList]

/-- **A document with comments** and text between them. -/
abbrev RemarkDocument := Interspersed Remark ["<!--".toList]

namespace Remark

def source (c : Remark) : Text := "<!--".toList ++ c.text ++ "-->".toList

def translation (c : Remark) : Text := "\x7b/*".toList ++ c.text ++ "*/\x7d".toList

theorem comment?_source (c : Remark) (rest : Text) : comment? (c.source ++ rest) = some (c.text, rest) := by
  have hstart : after? "<!--".toList (c.source ++ rest) = some (c.text ++ ("-->".toList ++ rest)) :=
    after?_eq_some_iff.2 (by simp only [source, List.append_assoc])
  rw [comment?, hstart, Option.bind_some]
  exact cutAt?_append_key (by decide) (by decide) (c.lacks _ List.mem_cons_self)

theorem rewrites (c : Remark) : Rewrites convertComments c.source c.translation := by
  refine rewrites_of_match (List.cons_ne_nil _ _) fun rest => ?_
  rw [c.comment?_source]
  rfl

end Remark

/-- **What a reader of the new markup takes for a comment**: the text up to the first `*/` behind the opening, and what
follows it. -/
def readComment? (s : Text) : Option (Text × Text) := (after? "\x7b/*".toList s).bind (cutAt? "*/".toList)

theorem within_opening_iff (s : Text) :
    "*/".toList <:+: "\x7b/*".toList ++ s ↔ s.head? = some '/' ∨ "*/".toList <:+: s := by
  have hstar : "*/".toList <+: '*' :: s ↔ s.head? = some '/' := by
    cases s <;> simp [eq_comm]
  show "*/".toList <:+: '\x7b' :: '/' :: '*' :: s ↔ _
  rw [List.infix_cons_iff, List.infix_cons_iff, List.infix_cons_iff, hstar]
  simp

/-- **Comments are translated one by one, and the text between them is kept.**  A comment hides the whole of a text
exactly if no `*/` is in the text, and its closing has the first `*/` in it at all exactly if the text does not begin
with a slash either. -/
theorem convertComments_text (d : RemarkDocument) :
    convertComments (d.text Remark.source) = d.text Remark.translation ∧
      ∀ (c : Remark) (rest : Text),
        (readComment? (c.translation ++ rest) = some (c.text, '\x7d' :: rest) ↔ ¬ "*/".toList <:+: c.text) ∧
        (cutAt? "*/".toList c.translation = some ("\x7b/*".toList ++ c.text, ['\x7d']) ↔
          ¬ "*/".toList <:+: c.text ∧ c.text.head? ≠ some '/') := by
  refine ⟨d.substitute_text needs_comment (by decide) ⟨_, List.mem_cons_self, List.infix_rfl⟩ (fun _ => rfl)
    Remark.rewrites, fun c rest => ⟨?_, ?_⟩⟩
  · have hafter : after? "\x7b/*".toList (c.translation ++ rest) = some (c.text ++ ("*/".toList ++ '\x7d' :: rest)) :=
      after?_eq_some_iff.2 (by simp [Remark.translation])
    rw [readComment?, hafter, Option.bind_some]
    exact cutAt?_append_key_iff (by decide) (by decide)
  · have hsplit : c.translation = "\x7b/*".toList ++ c.text ++ ("*/".toList ++ ['\x7d']) := by
      simp [Remark.translation]
    rw [hsplit, cutAt?_append_key_iff (by decide) (by decide), within_opening_iff, not_or, and_comm]

/-- **A comment with the mark of the new markup's comments in it.** -/
def codeRemark : Remark := ⟨" a */ b ".toList, by decide⟩

/-- **A comment can come to light**: what is behind the first `*/` in it. -/
theorem comment_leaks : convertComments codeRemark.source = "\x7b/* a */ b */\x7d".toList ∧
    readComment? (convertComments codeRemark.source) = some (" a ".toList, " b */\x7d".toList) := by
  decide

end DocFerry.Markup
