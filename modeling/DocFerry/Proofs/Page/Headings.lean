import DocFerry.Page.Heading
import DocFerry.Proofs.Text.Pieces
import DocFerry.Proofs.Text.Trimming
/-!
# The first heading line

The first heading of a text is its first heading line, trimmed, between the offsets of that line
(`firstHeading_of_lines`).  Taken out, it leaves an empty line in its place and all other lines as they are
(`without_of_lines`).

A match of the heading pattern (`HeadingMatch`) may cut the blanks of its line in several ways, but it always spans a
heading line (`HeadingMatch.exists_lines`), and every heading line has one (`exists_match`).  So whatever the order in
which the matches at one place are tried, the first match is the first heading line (`firstHeading_first_match`).
-/
namespace DocFerry.Page

open Text

/-- **A heading line**: a hash, a space or tab, and at least one more character. -/
def IsHeading (line : Text) : Prop := ∃ c rest, line = '#' :: c :: rest ∧ isSpaceOrTab c = true ∧ rest ≠ []

theorem headingText?_eq_some_iff {line text : Text} :
    headingText? line = some text ↔ IsHeading line ∧ text = trim line.tail := by
  unfold headingText?
  split
  · rename_i c rest
    constructor
    · intro h
      split at h
      · rename_i hc
        rw [Bool.and_eq_true] at hc
        cases h
        exact ⟨⟨c, rest, rfl, hc.1, by simpa using hc.2⟩, rfl⟩
      · cases h
    · rintro ⟨⟨c', rest', he, hc, hne⟩, rfl⟩
      cases he
      rw [if_pos (by simp [hc, hne])]
      rfl
  · rename_i hnot
    refine ⟨nofun, ?_⟩
    rintro ⟨⟨c, rest, rfl, -, -⟩, -⟩
    exact absurd rfl (hnot c rest)

theorem isHeading_iff_isSome {line : Text} : (headingText? line).isSome = true ↔ IsHeading line := by
  rw [Option.isSome_iff_exists]
  exact ⟨fun ⟨_, h⟩ => (headingText?_eq_some_iff.1 h).1, fun h => ⟨_, headingText?_eq_some_iff.2 ⟨h, rfl⟩⟩⟩

instance (line : Text) : Decidable (IsHeading line) := decidable_of_iff _ isHeading_iff_isSome

theorem headingText?_eq_none {line : Text} (h : ¬ IsHeading line) : headingText? line = none :=
  Option.not_isSome_iff_eq_none.1 fun hs => h (isHeading_iff_isSome.1 hs)

theorem firstHeadingFrom_eq_none : ∀ {ls : List Text} (offset : Nat), (∀ l ∈ ls, ¬ IsHeading l) →
    firstHeadingFrom offset ls = none
  | [], _, _ => rfl
  | line :: ls, offset, h => by
    rw [firstHeadingFrom, headingText?_eq_none (h line List.mem_cons_self)]
    exact firstHeadingFrom_eq_none _ fun l hl => h l (List.mem_cons_of_mem line hl)

/-- **Lines with a heading line have a first one.** -/
theorem exists_first_heading {ls : List Text} (h : ∃ l ∈ ls, IsHeading l) :
    ∃ before line after, ls = before ++ line :: after ∧ (∀ l ∈ before, ¬ IsHeading l) ∧ IsHeading line := by
  have hfound : ∃ l ∈ ls, decide (IsHeading l) = true := by simpa using h
  obtain ⟨line, hfirst⟩ := Option.isSome_iff_exists.1 (List.find?_isSome.2 hfound)
  obtain ⟨hline, before, after, hl, hb⟩ := List.find?_eq_some_iff_append.1 hfirst
  exact ⟨before, line, after, hl, by simpa using hb, of_decide_eq_true hline⟩

section FirstHeading

variable {line : Text} {after : List Text}

-- The offset of a line is the length of the lines before it with their newlines.
theorem firstHeadingFrom_append (hh : IsHeading line) : ∀ {before : List Text} (offset : Nat),
    (∀ l ∈ before, ¬ IsHeading l) → firstHeadingFrom offset (before ++ line :: after) =
      some ⟨trim line.tail, offset + (rows before).length, offset + (rows before).length + line.length⟩
  | [], offset, _ => by
    have htext : headingText? line = some (trim line.tail) := headingText?_eq_some_iff.2 ⟨hh, rfl⟩
    rw [List.nil_append, firstHeadingFrom, htext]
    rfl
  | l :: before, offset, h => by
    have hlength : offset + (rows (l :: before)).length = offset + l.length + 1 + (rows before).length := by
      rw [rows_cons, List.length_append, List.length_cons]
      omega
    rw [List.cons_append, firstHeadingFrom, headingText?_eq_none (h l List.mem_cons_self), hlength]
    exact firstHeadingFrom_append hh _ fun k hk => h k (List.mem_cons_of_mem l hk)

variable {s : Text} {before : List Text}

theorem firstHeading_of_lines (hl : lines s = before ++ line :: after) (hb : ∀ l ∈ before, ¬ IsHeading l)
    (hh : IsHeading line) :
    firstHeading s = some ⟨trim line.tail, (rows before).length, (rows before).length + line.length⟩ := by
  rw [firstHeading, hl, firstHeadingFrom_append hh 0 hb, Nat.zero_add]

theorem text_of_lines (hl : lines s = before ++ line :: after) :
    s = rows before ++ (line ++ unlines ([] :: after)) := by
  have hline : unlines (line :: after) = line ++ unlines ([] :: after) := by
    cases after with
    | nil => simp [unlines, join]
    | cons next after => rw [unlines_cons line (by simp), unlines_cons [] (by simp), List.nil_append]
  rw [← unlines_lines s, hl, unlines_append (by simp), hline]

/-- **A text without one of its lines** keeps all other lines, and an empty one in its place. -/
theorem without_of_lines (hl : lines s = before ++ line :: after) (text : Text) :
    (Heading.mk text (rows before).length ((rows before).length + line.length)).without s =
      unlines (before ++ [] :: after) := by
  have hs := text_of_lines hl
  have htake : s.take (rows before).length = rows before := by rw [hs, List.take_left]
  have hdrop : s.drop ((rows before).length + line.length) = unlines ([] :: after) := by
    rw [hs, ← List.append_assoc, ← List.length_append, List.drop_left]
  rw [unlines_append (by simp), Heading.without, htake, hdrop]

theorem slice_of_lines (hl : lines s = before ++ line :: after) :
    (s.drop (rows before).length).take line.length = line := by
  have hdrop : s.drop (rows before).length = line ++ unlines ([] :: after) := by
    rw [text_of_lines hl, List.drop_left]
  rw [hdrop, List.take_left]

end FirstHeading

/-! ## The heading pattern -/

/-- **A match of the heading pattern** in a text: at the start of a line a hash, spaces and tabs, a body of one line,
and spaces and tabs up to the end of a line. -/
structure HeadingMatch (s : Text) where
  before : Text
  gap : Text
  body : Text
  blanks : Text
  after : Text
  text_eq : s = before ++ ('#' :: (gap ++ body ++ blanks) ++ after)
  lineStart : before = [] ∨ before.getLast? = some '\n'
  gap_ne_nil : gap ≠ []
  gap_blank : ∀ c ∈ gap, isSpaceOrTab c = true
  body_ne_nil : body ≠ []
  body_oneLine : '\n' ∉ body
  blanks_blank : ∀ c ∈ blanks, isSpaceOrTab c = true
  lineEnd : after = [] ∨ after.head? = some '\n'

/-! ## Lines around a place -/

/-- **What stands before the start of a line** is lines, each with its newline. -/
theorem exists_rows {before : Text} (h : before = [] ∨ before.getLast? = some '\n') :
    ∃ ls, before = rows ls ∧ ∀ l ∈ ls, '\n' ∉ l := by
  rcases h with rfl | h
  · exact ⟨[], rfl, nofun⟩
  · obtain ⟨start, rfl⟩ := List.getLast?_eq_some_iff.1 h
    exact ⟨lines start, by rw [rows_eq_unlines (lines_ne_nil start), unlines_lines],
      not_mem_of_mem_splitWhere (by decide) start⟩

theorem rows_start (ls : List Text) : rows ls = [] ∨ (rows ls).getLast? = some '\n' := by
  by_cases h : ls = []
  · exact .inl (by rw [h]; rfl)
  · exact .inr (by rw [rows_eq_unlines h, List.getLast?_concat])

/-- **A line up to the end of a line** is the next one. -/
theorem exists_lines_append {line after : Text} (hline : '\n' ∉ line) (h : after = [] ∨ after.head? = some '\n') :
    ∃ more, lines (line ++ after) = line :: more := by
  rcases h with rfl | h
  · exact ⟨[], by rw [List.append_nil, lines, splitWhere_of_not_mem hline]⟩
  · obtain ⟨rest, rfl⟩ := List.head?_eq_some_iff.1 h
    exact ⟨lines rest, by rw [lines, splitWhere_append_sep rest hline, lines]⟩

theorem unlines_end (after : List Text) :
    unlines ([] :: after) = [] ∨ (unlines ([] :: after)).head? = some '\n' := by
  cases after with
  | nil => exact .inl rfl
  | cons next after => exact .inr (by rw [unlines_cons [] (by simp)]; rfl)

theorem prefix_rows {ls more : List Text} (h : ls <+: more) : rows ls <+: rows more := by
  obtain ⟨rest, rfl⟩ := h
  exact ⟨rows rest, (rows_append ls rest).symm⟩

/-! ## Matches and heading lines -/

namespace HeadingMatch

variable {s : Text} (m : HeadingMatch s)

/-- The characters that a match spans. -/
def line : Text := '#' :: (m.gap ++ m.body ++ m.blanks)

def start : Nat := m.before.length

/-- **The heading of a match**: its body, trimmed, between the offsets of the match. -/
def heading : Heading := ⟨trim m.body, m.start, m.start + m.line.length⟩

theorem isHeading : IsHeading m.line := by
  obtain ⟨c, rest, hgap⟩ := List.exists_cons_of_ne_nil m.gap_ne_nil
  refine ⟨c, rest ++ m.body ++ m.blanks, by simp [line, hgap], m.gap_blank c (by simp [hgap]), ?_⟩
  simp [m.body_ne_nil]

theorem newline_not_mem_line : '\n' ∉ m.line := by
  have hgap : '\n' ∉ m.gap := fun h => absurd (m.gap_blank _ h) (by decide)
  have hblanks : '\n' ∉ m.blanks := fun h => absurd (m.blanks_blank _ h) (by decide)
  simp [line, hgap, m.body_oneLine, hblanks]

/-- **A match spans a heading line** of the text. -/
theorem exists_lines : ∃ ls more, lines s = ls ++ m.line :: more ∧ m.before = rows ls := by
  obtain ⟨ls, hbefore, hfree⟩ := exists_rows m.lineStart
  obtain ⟨more, hmore⟩ := exists_lines_append m.newline_not_mem_line m.lineEnd
  refine ⟨ls, more, ?_, hbefore⟩
  calc lines s = lines (rows ls ++ (m.line ++ m.after)) := by rw [← hbefore]; exact congrArg lines m.text_eq
    _ = ls ++ m.line :: more := by rw [lines_rows_append _ hfree, hmore]

theorem trim_body : trim m.line.tail = trim m.body := by
  have hgap : ∀ c ∈ m.gap, isBlank c = true := fun c hc => isBlank_of_isSpaceOrTab (m.gap_blank c hc)
  have hblanks : ∀ c ∈ m.blanks, isBlank c = true := fun c hc => isBlank_of_isSpaceOrTab (m.blanks_blank c hc)
  rw [line, List.tail_cons, trim_append_blank hblanks, trim_blank_append hgap]

end HeadingMatch

variable {s line : Text} {before after : List Text}

/-- **Every heading line has a match.** -/
theorem exists_match (hl : lines s = before ++ line :: after) (hh : IsHeading line) :
    ∃ m : HeadingMatch s, m.before = rows before ∧ m.line = line := by
  have hline : '\n' ∉ line := not_mem_of_mem_splitWhere (by decide) s line (show line ∈ lines s by simp [hl])
  obtain ⟨c, body, rfl, hc, hbody⟩ := hh
  let m : HeadingMatch s :=
    { before := rows before
      gap := [c]
      body := body
      blanks := []
      after := unlines ([] :: after)
      text_eq := by simpa using text_of_lines hl
      lineStart := rows_start before
      gap_ne_nil := by simp
      gap_blank := by simpa using hc
      body_ne_nil := hbody
      body_oneLine := fun h => hline (by simp [h])
      blanks_blank := nofun
      lineEnd := unlines_end after }
  exact ⟨m, rfl, by simp [m, HeadingMatch.line]⟩

/-- **The lines before the first heading line** are before every heading line. -/
theorem prefix_of_no_heading {line' : Text} {before' after' : List Text}
    (he : before ++ line :: after = before' ++ line' :: after') (hb : ∀ l ∈ before, ¬ IsHeading l)
    (hh : IsHeading line') : before <+: before' := by
  rcases List.append_eq_append_iff.1 he with ⟨more, rfl, -⟩ | ⟨more, rfl, hmore⟩
  · exact List.prefix_append before more
  · cases more with
    | nil => simp
    | cons l more =>
      obtain ⟨rfl, -⟩ := List.cons.inj hmore
      exact absurd hh (hb line' (by simp))

theorem heading_of_match (m : HeadingMatch s) (hbefore : m.before = rows before) (hline : m.line = line) :
    m.heading = ⟨trim line.tail, (rows before).length, (rows before).length + line.length⟩ := by
  rw [HeadingMatch.heading, HeadingMatch.start, ← m.trim_body, hbefore, hline]

theorem firstHeading_eq_none_iff : firstHeading s = none ↔ ∀ l ∈ lines s, ¬ IsHeading l := by
  refine ⟨fun hnone l hl hh => ?_, firstHeadingFrom_eq_none 0⟩
  obtain ⟨before, line, after, hl, hb, hh⟩ := exists_first_heading ⟨l, hl, hh⟩
  rw [firstHeading_of_lines hl hb hh] at hnone
  cases hnone

/-- **The first heading** is that of a match before which there is none. -/
theorem firstHeading_eq_some_iff {h : Heading} :
    firstHeading s = some h ↔ ∃ m : HeadingMatch s, (∀ m' : HeadingMatch s, m.start ≤ m'.start) ∧ h = m.heading := by
  constructor
  · intro hfound
    have hsome : ∃ l ∈ lines s, IsHeading l := Classical.byContradiction fun hnone => by
      rw [firstHeading_eq_none_iff.2 fun l hl hh => hnone ⟨l, hl, hh⟩] at hfound
      cases hfound
    obtain ⟨before, line, after, hl, hb, hh⟩ := exists_first_heading hsome
    obtain ⟨m, hbefore, hline⟩ := exists_match hl hh
    refine ⟨m, fun m' => ?_, ?_⟩
    · obtain ⟨ls, more, hl', hbefore'⟩ := m'.exists_lines
      rw [HeadingMatch.start, HeadingMatch.start, hbefore, hbefore']
      exact (prefix_rows (prefix_of_no_heading (hl.symm.trans hl') hb m'.isHeading)).length_le
    · rw [firstHeading_of_lines hl hb hh] at hfound
      rw [heading_of_match m hbefore hline, Option.some.inj hfound]
  · rintro ⟨m, hleast, rfl⟩
    obtain ⟨ls, more, hl, hbefore⟩ := m.exists_lines
    have hnone : ∀ l ∈ ls, ¬ IsHeading l := by
      intro l hmem hh
      -- A heading line before the match has a match of its own, and that one starts earlier.
      obtain ⟨first, rest, rfl⟩ := List.append_of_mem hmem
      rw [List.append_assoc] at hl
      obtain ⟨m', hbefore', -⟩ := exists_match hl hh
      have hle := hleast m'
      rw [HeadingMatch.start, HeadingMatch.start, hbefore, hbefore', rows_append, rows_cons, List.length_append,
        List.length_append, List.length_cons] at hle
      omega
    rw [firstHeading_of_lines hl hnone m.isHeading, heading_of_match m hbefore rfl]

/-- **The heading search finds the first heading line.**  It finds nothing exactly if no line is a hash, a space or
tab, and at least one further character.  What it finds is the heading of the matches of the pattern that start first.
And for the first heading line the offsets enclose that line, the text is the line without its hash, trimmed, and a text
without what is between the offsets keeps all its other characters, the newlines around the line included. -/
theorem firstHeading_first_match (s : Text) :
    (firstHeading s = none ↔ ∀ line ∈ lines s, ¬ IsHeading line) ∧
    (∀ h, firstHeading s = some h ↔
      ∃ m : HeadingMatch s, (∀ m' : HeadingMatch s, m.start ≤ m'.start) ∧ h = m.heading) ∧
    ∀ before line after, lines s = before ++ line :: after → (∀ l ∈ before, ¬ IsHeading l) → IsHeading line →
      ∃ h, firstHeading s = some h ∧ h.text = trim line.tail ∧ h.start = (rows before).length ∧
        h.stop = h.start + line.length ∧ (s.drop h.start).take (h.stop - h.start) = line ∧
        h.without s = unlines (before ++ [] :: after) := by
  refine ⟨firstHeading_eq_none_iff, fun h => firstHeading_eq_some_iff, fun before line after hl hb hh => ?_⟩
  refine ⟨_, firstHeading_of_lines hl hb hh, rfl, rfl, rfl, ?_, without_of_lines hl _⟩
  rw [Nat.add_sub_cancel_left]
  exact slice_of_lines hl

/-- **A heading after a line that is none**, between other line separators and blanks. -/
theorem firstHeading_first_match_afterNote :
    ∃ h, firstHeading "##\u2028# no\n#\t A\u2028b \nend".toList = some h ∧ h.text = "A\u2028b".toList ∧
      h.without "##\u2028# no\n#\t A\u2028b \nend".toList = "##\u2028# no\n\nend".toList := by
  obtain ⟨h, hfound, htext, -, -, -, hwithout⟩ :=
    (firstHeading_first_match "##\u2028# no\n#\t A\u2028b \nend".toList).2.2 ["##\u2028# no".toList]
      "#\t A\u2028b ".toList ["end".toList] (by decide) (by decide) (by decide)
  exact ⟨h, hfound, htext.trans (by decide), hwithout⟩

end DocFerry.Page
