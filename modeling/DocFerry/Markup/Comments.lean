import DocFerry.Text.Basic
/-!
# Comments

A comment of the old markup ends at the first `-->`; the new markup writes it as an expression that
holds nothing but a comment.
-/
namespace DocFerry.Markup

open Text

/-- **A comment of the old markup**: its text, and what follows it. -/
def comment? (s : Text) : Option (Text × Text) :=
  (after? "<!--".toList s).bind (cutAt? "-->".toList)

/-- **A comment of the new markup.** -/
def expressionComment (text : Text) : Text := "\x7b/*".toList ++ text ++ "*/\x7d".toList

/-- **Every comment written as an expression comment.** -/
def convertComments (s : Text) : Text :=
  substitute (fun t => (comment? t).map fun c => (expressionComment c.1, c.2)) s

theorem comment?_eq_some {s text rest : Text} (h : comment? s = some (text, rest)) :
    s = "<!--".toList ++ text ++ "-->".toList ++ rest := by
  obtain ⟨inner, hi, hc⟩ := Option.bind_eq_some_iff.1 h
  rw [after?_eq_some_iff.1 hi, cutAt?_eq_some hc]
  simp only [List.append_assoc]

end DocFerry.Markup
