import DocFerry.Proofs.Text.Pieces
import DocFerry.Proofs.Text.Trimming
import DocFerry.Markup.Admonitions
/-!
# Admonitions line by line

Lines that open no admonition are kept whatever follows them (`rewrites_rows`), and an admonition whose inside holds no
closing line becomes one callout (`rewrites_admonition`).
-/
namespace DocFerry.Markup

open Text

/-- **A line without three colons** is no fence. -/
theorem fence?_eq_none {line : Text} (h : ¬ ":::".toList <:+: line) : fence? line = none := by
  have hafter : after? ":::".toList (line.dropWhile isSpaceOrTab) = none :=
    after?_eq_none_iff.2 fun hk => h (hk.isInfix.trans (List.dropWhile_suffix _).isInfix)
  rw [fence?, hafter]

theorem opening?_eq_none {line : Text} (h : fence? line = none) : opening? line = none := by
  rw [opening?, h]
  rfl

theorem isClosing_eq_false {line : Text} (h : fence? line = none) : isClosing line = false := by
  rw [isClosing, h]
  rfl

/-! ## Lines that stay -/

theorem convertLines_cons {line : Text} (h : opening? line = none) (rest : List Text) :
    convertLines (line :: rest) = line :: convertLines rest := by
  rw [convertLines, convertLinesFrom, h]
  rfl

theorem convertLines_append (rest : List Text) : ∀ {ls : List Text}, (∀ line ∈ ls, opening? line = none) →
    convertLines (ls ++ rest) = ls ++ convertLines rest
  | [], _ => rfl
  | line :: ls, h => by
    rw [List.cons_append, convertLines_cons (h line List.mem_cons_self),
      convertLines_append rest fun k hk => h k (List.mem_cons_of_mem line hk), List.cons_append]

theorem convertLinesFrom_skip (rest : List Text) : ∀ (ls : List Text),
    convertLinesFrom ls.length (ls ++ rest) = convertLinesFrom 0 rest
  | [] => rfl
  | _ :: ls => convertLinesFrom_skip rest ls

theorem convertLines_ne_nil {ls : List Text} (h : ls ≠ []) : convertLines ls ≠ [] := by
  cases ls with
  | nil => exact absurd rfl h
  | cons line rest =>
    rw [convertLines, convertLinesFrom]
    split <;> simp

theorem rewrites_rows {ls : List Text} (hone : ∀ line ∈ ls, '\n' ∉ line) (h : ∀ line ∈ ls, opening? line = none) :
    Rewrites convertAdmonitions (rows ls) (rows ls) := by
  intro rest
  unfold convertAdmonitions
  rw [lines_rows_append rest hone, convertLines_append _ h, unlines_append (convertLines_ne_nil (lines_ne_nil rest))]

/-! ## An admonition -/

theorem cutAtClosing?_append {closing : Text} (hc : isClosing closing = true) (rest : List Text) :
    ∀ {body : List Text}, (∀ line ∈ body, isClosing line = false) →
      cutAtClosing? (body ++ closing :: rest) = some (body, rest)
  | [], _ => by simp [cutAtClosing?, hc]
  | line :: body, h => by
    rw [List.cons_append, cutAtClosing?, h line List.mem_cons_self,
      cutAtClosing?_append hc rest fun k hk => h k (List.mem_cons_of_mem line hk)]
    rfl

/-- **An admonition becomes one callout**, if only its last line closes it. -/
theorem convertLines_admonition {opening closing kind : Text} {body : List Text} (ho : opening? opening = some kind)
    (hb : body ≠ []) (hi : ∀ line ∈ body, isClosing line = false) (hc : isClosing closing = true) (rest : List Text) :
    convertLines (opening :: (body ++ closing :: rest)) =
      callout (admonitionTag kind) (unlines body) :: convertLines rest := by
  cases body with
  | nil => exact absurd rfl hb
  | cons first body =>
    have hinside : inside? ((first :: body) ++ closing :: rest) = some (first :: body, rest) := by
      rw [List.cons_append, inside?, cutAtClosing?_append hc rest fun k hk => hi k (List.mem_cons_of_mem first hk)]
      rfl
    have hlength : ((first :: body) ++ closing :: rest).length - rest.length = (first :: body ++ [closing]).length := by
      simp only [List.length_append, List.length_cons, List.length_nil]
      omega
    rw [convertLines, convertLinesFrom, ho, hinside]
    simp only [hlength]
    rw [List.append_cons (first :: body) closing rest, convertLinesFrom_skip]
    rfl

theorem rewrites_admonition {opening closing kind : Text} {body : List Text} (ho : opening? opening = some kind)
    (hb : body ≠ []) (hi : ∀ line ∈ body, isClosing line = false) (hc : isClosing closing = true)
    (hone : ∀ line ∈ opening :: (body ++ [closing]), '\n' ∉ line) :
    Rewrites convertAdmonitions (rows (opening :: (body ++ [closing])))
      (callout (admonitionTag kind) (rows body) ++ ['\n']) := by
  intro rest
  have htrim : callout (admonitionTag kind) (rows body) = callout (admonitionTag kind) (unlines body) := by
    rw [callout, callout, rows_eq_unlines hb, trim_concat_newline]
  unfold convertAdmonitions
  rw [lines_rows_append rest hone, List.cons_append, List.append_assoc, List.singleton_append,
    convertLines_admonition ho hb hi hc, unlines_cons _ (convertLines_ne_nil (lines_ne_nil rest)), htrim,
    List.append_assoc, List.singleton_append]

end DocFerry.Markup
