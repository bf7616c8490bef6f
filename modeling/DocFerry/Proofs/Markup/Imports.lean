import Mathlib.Data.List.TakeWhile
import DocFerry.Proofs.Markup.Tags
import DocFerry.Proofs.Text.Pieces
import DocFerry.Proofs.Text.Trimming
/-!
# Which lines the dropping of imports takes out

An import line names its module in the only quotation it has, so there is one place on it where the word `from` leads to
a quotation (`fromClause?_before`), and an import goes if and only if that module is wanted.  What goes with it are
blank lines after it at most (`dropImports_wanted`).  So the lines that can be seen are those of the page without the
imports of the old site (`stripPlatformImports_rows`), whatever blanks stand on an import line and however imports and
other lines alternate.
-/
namespace DocFerry.Markup

open Text

/-! ## Lines of a page -/

/-- **A line on which nothing can be seen.** -/
def isBlankLine (line : Text) : Bool := line.all isBlank

/-- **A gap on a line**: blanks, but no newline. -/
structure Gap where
  text : Text
  nonempty : text ≠ []
  blank : ∀ c ∈ text, isBlank c = true
  one : '\n' ∉ text

/-- **The end of an import line** after its module name: blanks, and a semicolon with spaces or tabs after it or
nothing. -/
structure ImportEnding where
  blanks : Text
  blank : ∀ c ∈ blanks, isBlank c = true
  one : '\n' ∉ blanks
  semicolon : Option { s : Text // ∀ c ∈ s, isSpaceOrTab c = true }

def ImportEnding.text (e : ImportEnding) : Text := e.blanks ++ e.semicolon.elim [] fun s => ';' :: s.1

/-- **An import on one line**: a clause without quotation marks, the word `from`, and a module name between quotation
marks that holds neither marks nor blanks. -/
structure ImportLine where
  afterImport : Gap
  clause : Text
  beforeFrom : Gap
  afterFrom : Gap
  opening : Char
  source : Text
  closing : Char
  ending : ImportEnding
  clauseClean : ∀ c ∈ clause, isQuote c = false
  clauseOne : '\n' ∉ clause
  isOpening : isQuote opening = true
  sourceClean : ∀ c ∈ source, isQuote c = false ∧ isBlank c = false
  isClosing : isQuote closing = true

namespace ImportLine

/-- What stands before the word `from`. -/
def start (i : ImportLine) : Text := i.afterImport.text ++ (i.clause ++ i.beforeFrom.text)

/-- What stands after the module name. -/
def rest (i : ImportLine) : Text := i.closing :: i.ending.text

/-- What stands after the word `from`. -/
def clauseEnd (i : ImportLine) : Text := i.afterFrom.text ++ i.opening :: (i.source ++ i.rest)

def text (i : ImportLine) : Text := "import".toList ++ (i.start ++ ("from".toList ++ i.clauseEnd))

end ImportLine

/-- **Any other line**: it does not begin like an import, and is not a semicolon alone. -/
structure OtherLine where
  text : Text
  one : '\n' ∉ text
  notImport : ¬ "import".toList <+: text
  notSemicolon : trim text ≠ [';']

/-- **A line of a page.** -/
inductive BodyLine where
  | importing (i : ImportLine)
  | other (l : OtherLine)

namespace BodyLine

def text : BodyLine → Text
  | importing i => i.text
  | other l => l.text

/-- **An import of a wanted module.** -/
def imports (wanted : Text → Bool) : BodyLine → Bool
  | importing i => wanted i.source
  | other _ => false

end BodyLine

/-! ## The word `from` on an import line -/

theorem isBlank_of_isQuote {c : Char} (h : isQuote c = true) : isBlank c = false := by
  simp only [isQuote, Bool.or_eq_true, beq_iff_eq] at h
  rcases h with rfl | rfl <;> decide

theorem isQuote_of_isBlank {c : Char} (h : isBlank c = true) : isQuote c = false :=
  Bool.eq_false_iff.2 fun hq => by simp [isBlank_of_isQuote hq] at h

theorem ne_of_isQuote {c d : Char} (hc : isQuote c = true) (hd : isQuote d = false) : d ≠ c := fun h => by
  simp [h, hc] at hd

theorem isQuote_from {blanks : Text} (hb : ∀ c ∈ blanks, isBlank c = true) :
    ∀ c ∈ "from".toList ++ blanks, isQuote c = false := by
  intro c hc
  rcases List.mem_append.1 hc with hc | hc
  · exact (by decide : ∀ c ∈ "from".toList, isQuote c = false) c hc
  · exact isQuote_of_isBlank (hb c hc)

theorem run_to_quote {s rest : Text} {mark : Char} (hs : ∀ c ∈ s, isQuote c = false) (hm : isQuote mark = true) :
    (s ++ mark :: rest).takeWhile (!isQuote ·) = s ∧ (s ++ mark :: rest).dropWhile (!isQuote ·) = mark :: rest := by
  have hclean : ∀ c ∈ s, (!isQuote c) = true := by simpa using hs
  constructor
  · rw [List.takeWhile_append_of_pos hclean, List.takeWhile_cons_of_neg (by simp [hm]), List.append_nil]
  · rw [List.dropWhile_append_of_pos hclean, List.dropWhile_cons_of_neg (by simp [hm])]

theorem skipBlanks?_append {blanks s : Text} (hne : blanks ≠ []) (hb : ∀ c ∈ blanks, isBlank c = true) :
    skipBlanks? (blanks ++ s) = some (trimStart s) := by
  obtain ⟨b, more, rfl⟩ := List.exists_cons_of_ne_nil hne
  rw [List.cons_append, skipBlanks?, if_pos (hb b List.mem_cons_self),
    trimStart_append_of_blank fun c hc => hb c (List.mem_cons_of_mem b hc)]

theorem skipBlanks?_eq_some {s rest : Text} (h : skipBlanks? s = some rest) :
    ∃ blanks, s = blanks ++ rest ∧ blanks ≠ [] ∧ ∀ c ∈ blanks, isBlank c = true := by
  cases s with
  | nil => cases h
  | cons c s =>
    rw [skipBlanks?] at h
    split at h
    · rename_i hc
      obtain rfl := Option.some.inj h
      refine ⟨c :: s.takeWhile isBlank, ?_, by simp, ?_⟩
      · rw [List.cons_append, trimStart, List.takeWhile_append_dropWhile]
      · intro d hd
        rcases List.mem_cons.1 hd with rfl | hd
        · exact hc
        · exact List.mem_takeWhile_imp hd
    · cases h

/-- **What a clause needs**: the word `from`, blanks, and a quotation mark. -/
theorem fromClause?_eq_some {wanted : Text → Bool} {s after : Text} (h : fromClause? wanted s = some after) :
    ∃ blanks mark rest, s = "from".toList ++ (blanks ++ mark :: rest) ∧ blanks ≠ [] ∧
      (∀ c ∈ blanks, isBlank c = true) ∧ isQuote mark = true := by
  unfold fromClause? at h
  split at h
  · rename_i r hr
    obtain ⟨t, ht, hquote⟩ := Option.bind_eq_some_iff.1 hr
    obtain ⟨u, hu, hskip⟩ := Option.bind_eq_some_iff.1 ht
    obtain ⟨blanks, rfl, hne, hb⟩ := skipBlanks?_eq_some hskip
    obtain ⟨mark, rfl, hmark⟩ := quote?_eq_some hquote
    exact ⟨blanks, mark, r, after?_eq_some_iff.1 hu, hne, hb, hmark⟩
  · cases h

theorem fromClause?_of_head {wanted : Text → Bool} {c : Char} {s : Text} (hc : c ≠ 'f') :
    fromClause? wanted (c :: s) = none :=
  Option.eq_none_iff_forall_ne_some.2 fun after h => by
    obtain ⟨blanks, mark, rest, hs, -⟩ := fromClause?_eq_some h
    exact hc (List.cons.inj hs).1

/-- Both texts begin with what stands before their first quotation mark. -/
theorem eq_of_append_quote {s t rest more : Text} {a b : Char} (hs : ∀ c ∈ s, isQuote c = false)
    (ht : ∀ c ∈ t, isQuote c = false) (ha : isQuote a = true) (hb : isQuote b = true)
    (h : s ++ a :: rest = t ++ b :: more) : s = t := by
  rw [← (run_to_quote hs ha).1, h, (run_to_quote ht hb).1]

/-- **No clause begins before the last `from` in front of the quotation.** -/
theorem fromClause?_before (wanted : Text → Bool) {before blanks rest : Text} {mark : Char} (hne : before ≠ [])
    (hbefore : ∀ c ∈ before, isQuote c = false) (hb : ∀ c ∈ blanks, isBlank c = true) (hm : isQuote mark = true) :
    fromClause? wanted (before ++ ("from".toList ++ (blanks ++ mark :: rest))) = none :=
  Option.eq_none_iff_forall_ne_some.2 fun after h => by
    obtain ⟨blanks', mark', rest', hs, -, hb', hm'⟩ := fromClause?_eq_some h
    have hsame : before ++ "from".toList ++ blanks = "from".toList ++ blanks' := by
      refine eq_of_append_quote ?_ (isQuote_from hb') hm hm' (by simpa using hs)
      intro c hc
      rw [List.append_assoc] at hc
      exact (List.mem_append.1 hc).elim (hbefore c) (isQuote_from hb c)
    -- without the blanks at the end both are the word `from`, so nothing stands before it
    have htrim := congrArg trimEnd hsame
    have hword : trimEnd "from".toList = "from".toList := by decide
    rw [trimEnd_append_of_blank hb, trimEnd_append_of_blank hb', trimEnd_append, hword, if_neg (by decide)] at htrim
    exact hne (List.append_left_eq_self.1 htrim)

theorem seekFrom?_append {wanted : Text → Bool} {rest : Text} : ∀ {s : Text}, '\n' ∉ s →
    (∀ t, t <:+ s → t ≠ [] → fromClause? wanted (t ++ rest) = none) →
    seekFrom? wanted (s ++ rest) = seekFrom? wanted rest
  | [], _, _ => rfl
  | c :: s, hone, h => by
    have hn := h (c :: s) List.suffix_rfl (by simp)
    rw [List.mem_cons, not_or] at hone
    have hc : (c == '\n') = false := by simpa using fun e => hone.1 e.symm
    rw [List.cons_append] at hn ⊢
    rw [seekFrom?, hn, hc]
    exact seekFrom?_append hone.2 fun t ht => h t (ht.trans (List.suffix_cons c s))

theorem seekFrom?_of_no_f {wanted : Text → Bool} {s rest : Text} (hone : '\n' ∉ s) (h : 'f' ∉ s) :
    seekFrom? wanted (s ++ rest) = seekFrom? wanted rest :=
  seekFrom?_append hone fun t ht hne => by
    obtain ⟨c, t, rfl⟩ := List.exists_cons_of_ne_nil hne
    exact fromClause?_of_head fun hc => h (hc ▸ ht.subset List.mem_cons_self)

theorem seekFrom?_newline {wanted : Text → Bool} {rest : Text} : seekFrom? wanted ('\n' :: rest) = none := by
  rw [seekFrom?, fromClause?_of_head (by decide)]
  rfl

namespace ImportLine

variable {wanted : Text → Bool} (i : ImportLine)

theorem text_quotation (more : Text) :
    i.clauseEnd ++ more = i.afterFrom.text ++ i.opening :: (i.source ++ i.closing :: (i.ending.text ++ more)) := by
  simp [clauseEnd, rest]

theorem start_clean : ∀ c ∈ i.start, isQuote c = false := by
  intro c hc
  rcases List.mem_append.1 hc with hc | hc
  · exact isQuote_of_isBlank (i.afterImport.blank c hc)
  · rcases List.mem_append.1 hc with hc | hc
    · exact i.clauseClean c hc
    · exact isQuote_of_isBlank (i.beforeFrom.blank c hc)

theorem newline_not_mem_start : '\n' ∉ i.start := by
  simp [start, i.afterImport.one, i.clauseOne, i.beforeFrom.one]

theorem newline_not_mem_source : '\n' ∉ i.source := fun hm => absurd (i.sourceClean _ hm).2 (by decide)

/-- **The clause at the word `from`** is there if and only if the module is wanted. -/
theorem fromClause?_eq (more : Text) :
    fromClause? wanted ("from".toList ++ (i.clauseEnd ++ more)) =
      if wanted i.source then importEnd? (i.ending.text ++ more) else none := by
  have hafter : after? "from".toList ("from".toList ++ (i.clauseEnd ++ more)) = some (i.clauseEnd ++ more) :=
    after?_eq_some_iff.2 rfl
  have hskip : skipBlanks? (i.clauseEnd ++ more) =
      some (i.opening :: (i.source ++ i.closing :: (i.ending.text ++ more))) := by
    rw [text_quotation, skipBlanks?_append i.afterFrom.nonempty i.afterFrom.blank, trimStart,
      List.dropWhile_cons_of_neg (by simp [isBlank_of_isQuote i.isOpening])]
  have hquote : quote? (i.opening :: (i.source ++ i.closing :: (i.ending.text ++ more))) =
      some (i.source ++ i.closing :: (i.ending.text ++ more)) := by rw [quote?, if_pos i.isOpening]
  obtain ⟨hname, hrest⟩ :=
    @run_to_quote _ (i.ending.text ++ more) _ (fun c hc => (i.sourceClean c hc).1) i.isClosing
  simp only [fromClause?, hafter, Option.bind_some, hskip, hquote, hrest, hname]

/-- **No clause begins within the module name**: it holds no blanks, and a quotation mark ends it. -/
theorem fromClause?_source {t : Text} (ht : t <:+ i.source) (more : Text) :
    fromClause? wanted (t ++ i.closing :: more) = none :=
  Option.eq_none_iff_forall_ne_some.2 fun after h => by
    obtain ⟨blanks, mark, rest, hs, hblanks, hb, hm⟩ := fromClause?_eq_some h
    have hsame : t = "from".toList ++ blanks :=
      eq_of_append_quote (fun c hc => (i.sourceClean c (ht.subset hc)).1) (isQuote_from hb) i.isClosing hm
        (by simpa using hs)
    -- the clause would need blanks, and there are none
    obtain ⟨b, more, rfl⟩ := List.exists_cons_of_ne_nil hblanks
    have hmem : b ∈ i.source := ht.subset (hsame ▸ by simp)
    simp [(i.sourceClean b hmem).2] at hb

end ImportLine

namespace ImportEnding

variable (e : ImportEnding)

theorem semicolon_cases :
    e.text = e.blanks ∨ ∃ s : Text, (∀ c ∈ s, isSpaceOrTab c = true) ∧ e.text = e.blanks ++ ';' :: s := by
  unfold text
  cases e.semicolon with
  | none => exact .inl (List.append_nil _)
  | some s => exact .inr ⟨s.1, s.2, rfl⟩

theorem newline_not_mem : '\n' ∉ e.text := by
  rcases e.semicolon_cases with h | ⟨s, hs, h⟩
  · exact h ▸ e.one
  · have hspaces : '\n' ∉ s := fun hm => absurd (hs _ hm) (by decide)
    simp [h, e.one, hspaces]

theorem f_not_mem : 'f' ∉ e.text := by
  have hblanks : 'f' ∉ e.blanks := not_mem_of_blank e.blank (by decide)
  rcases e.semicolon_cases with h | ⟨s, hs, h⟩
  · exact h ▸ hblanks
  · have hspaces : 'f' ∉ s := fun hm => absurd (hs _ hm) (by decide)
    simp [h, hblanks, hspaces]

end ImportEnding

namespace ImportLine

variable {wanted : Text → Bool} (i : ImportLine)

theorem newline_not_mem_clauseEnd : '\n' ∉ i.clauseEnd := by
  have hmark : ∀ {c : Char}, isQuote c = true → '\n' ≠ c := fun hc => ne_of_isQuote hc (by decide)
  simp [clauseEnd, rest, i.afterFrom.one, hmark i.isOpening, hmark i.isClosing, i.newline_not_mem_source,
    i.ending.newline_not_mem]

theorem newline_not_mem : '\n' ∉ i.text := by
  have himport : '\n' ∉ "import".toList := by decide
  have hfrom : '\n' ∉ "from".toList := by decide
  simp only [text, List.mem_append, not_or]
  exact ⟨himport, i.newline_not_mem_start, hfrom, i.newline_not_mem_clauseEnd⟩

/-- **No clause begins after the word `from`** on an import line. -/
theorem seekFrom?_rest (more : Text) : seekFrom? wanted ("rom".toList ++ (i.clauseEnd ++ '\n' :: more)) = none := by
  have hmark : ∀ {c : Char}, isQuote c = true → '\n' ≠ c ∧ 'f' ≠ c := fun hc =>
    ⟨ne_of_isQuote hc (by decide), ne_of_isQuote hc (by decide)⟩
  have hgap : 'f' ∉ i.afterFrom.text := not_mem_of_blank i.afterFrom.blank (by decide)
  have hpassed : "rom".toList ++ (i.clauseEnd ++ '\n' :: more) =
      ("rom".toList ++ i.afterFrom.text ++ [i.opening]) ++ (i.source ++ (i.rest ++ '\n' :: more)) := by
    simp [clauseEnd]
  have hname : ∀ t, t <:+ i.source → t ≠ [] → fromClause? wanted (t ++ (i.rest ++ '\n' :: more)) = none :=
    fun t ht _ => i.fromClause?_source ht _
  rw [hpassed, seekFrom?_of_no_f (by simp [i.afterFrom.one, (hmark i.isOpening).1])
      (by simp [hgap, (hmark i.isOpening).2]),
    seekFrom?_append i.newline_not_mem_source hname,
    seekFrom?_of_no_f (by simp [rest, (hmark i.isClosing).1, i.ending.newline_not_mem])
      (by simp [rest, (hmark i.isClosing).2, i.ending.f_not_mem]), seekFrom?_newline]

/-- **The search for a clause on an import line** ends at its module name, wherever in front of the word `from` it
begins. -/
theorem seekFrom?_eq {before : Text} (hb : before <:+ i.start) (more : Text) :
    seekFrom? wanted (before ++ ("from".toList ++ (i.clauseEnd ++ '\n' :: more))) =
      if wanted i.source then importEnd? (i.ending.text ++ '\n' :: more) else none := by
  have hbefore : ∀ t, t <:+ before → t ≠ [] →
      fromClause? wanted (t ++ ("from".toList ++ (i.clauseEnd ++ '\n' :: more))) = none := fun t ht hne => by
    rw [text_quotation]
    exact fromClause?_before wanted hne (fun c hc => i.start_clean c (hb.subset (ht.subset hc))) i.afterFrom.blank
      i.isOpening
  have hone : '\n' ∉ before := fun hm => i.newline_not_mem_start (hb.subset hm)
  have hword : "from".toList ++ (i.clauseEnd ++ '\n' :: more) =
      'f' :: ("rom".toList ++ (i.clauseEnd ++ '\n' :: more)) := rfl
  rw [seekFrom?_append hone hbefore, hword, seekFrom?, ← hword, i.fromClause?_eq, i.seekFrom?_rest]
  cases (if wanted i.source then importEnd? (i.ending.text ++ '\n' :: more) else none) <;> rfl

/-- **What the search for an import makes of an import line**: what follows it, if its module is wanted. -/
theorem import?_eq (more : Text) : import? wanted (i.text ++ '\n' :: more) =
    if wanted i.source then importEnd? (i.ending.text ++ '\n' :: more) else none := by
  have hafter : after? "import".toList (i.text ++ '\n' :: more) =
      some (i.start ++ ("from".toList ++ (i.clauseEnd ++ '\n' :: more))) :=
    after?_eq_some_iff.2 (by simp [text])
  have htrim : ∀ s : Text, trimStart (s ++ ("from".toList ++ (i.clauseEnd ++ '\n' :: more))) =
      trimStart s ++ ("from".toList ++ (i.clauseEnd ++ '\n' :: more)) := fun s => by
    rw [trimStart, List.dropWhile_append]
    split
    · rename_i hs
      rw [trimStart, List.isEmpty_iff.1 hs]
      rfl
    · rfl
  have hsuffix : trimStart (i.clause ++ i.beforeFrom.text) <:+ i.start :=
    (List.dropWhile_suffix isBlank).trans (List.suffix_append _ _)
  have hskip : skipBlanks? (i.start ++ ("from".toList ++ (i.clauseEnd ++ '\n' :: more))) =
      some (trimStart (i.clause ++ i.beforeFrom.text) ++ ("from".toList ++ (i.clauseEnd ++ '\n' :: more))) := by
    rw [start, List.append_assoc, skipBlanks?_append i.afterImport.nonempty i.afterImport.blank, htrim]
  rw [import?, hafter, Option.bind_some, hskip, Option.bind_some, i.seekFrom?_eq hsuffix]

end ImportLine

/-! ## The end of an import line -/

theorem afterLastNewline?_of_blank {line more : Text} (hb : ∀ c ∈ line, isBlank c = true) :
    afterLastNewline? (line ++ '\n' :: more) = some ((afterLastNewline? more).getD more) := by
  induction line with
  | nil =>
    rw [List.nil_append, afterLastNewline?, if_pos (by decide)]
    cases afterLastNewline? more <;> rfl
  | cons c line ih =>
    rw [List.cons_append, afterLastNewline?, if_pos (hb c List.mem_cons_self),
      ih fun d hd => hb d (List.mem_cons_of_mem c hd)]

theorem afterLastNewline?_of_visible {line more : Text} (hone : '\n' ∉ line) (hv : isBlankLine line = false) :
    afterLastNewline? (line ++ more) = none := by
  induction line with
  | nil => cases hv
  | cons c line ih =>
    rw [List.mem_cons, not_or] at hone
    have hc : (c == '\n') = false := by simpa using fun e => hone.1 e.symm
    rw [List.cons_append, afterLastNewline?, hc]
    split
    · rename_i hblank
      rw [isBlankLine, List.all_cons, hblank, Bool.true_and] at hv
      rw [ih hone.2 hv]
      rfl
    · rfl

/-- **What follows the last newline of the leading blanks** are the lines from the first one that can be seen. -/
theorem afterLastNewline?_rows : ∀ {ls : List Text}, (∀ l ∈ ls, '\n' ∉ l) →
    (afterLastNewline? (rows ls)).getD (rows ls) = rows (ls.dropWhile isBlankLine)
  | [], _ => rfl
  | l :: ls, h => by
    cases hl : isBlankLine l with
    | true =>
      rw [List.dropWhile_cons_of_pos hl, rows_cons, afterLastNewline?_of_blank (List.all_eq_true.1 hl),
        Option.getD_some, afterLastNewline?_rows fun k hk => h k (List.mem_cons_of_mem l hk)]
    | false =>
      rw [List.dropWhile_cons_of_neg (by simp [hl]), rows_cons,
        afterLastNewline?_of_visible (h l List.mem_cons_self) hl, Option.getD_none]

theorem spaces_of_dropWhile {line rest after : Text} (hone : '\n' ∉ line)
    (h : (line ++ rest).dropWhile isSpaceOrTab = '\n' :: after) : ∀ c ∈ line, isSpaceOrTab c = true := by
  rw [List.dropWhile_append] at h
  split at h
  · rename_i hall
    exact List.dropWhile_eq_nil_iff.1 (List.isEmpty_iff.1 hall)
  · rename_i hsome
    cases hd : line.dropWhile isSpaceOrTab with
    | nil => exact absurd (List.isEmpty_iff.2 hd) hsome
    | cons d more =>
      rw [hd, List.cons_append] at h
      obtain ⟨rfl, -⟩ := List.cons.inj h
      exact absurd ((List.dropWhile_suffix isSpaceOrTab).subset (hd ▸ List.mem_cons_self)) hone

/-- **No semicolon stands alone on the first line that can be seen.** -/
theorem semicolon_of_trimStart_rows : ∀ {ls : List Text} {rest : Text}, (∀ l ∈ ls, '\n' ∉ l ∧ trim l ≠ [';']) →
    trimStart (rows ls) = ';' :: rest → ∀ after, rest.dropWhile isSpaceOrTab ≠ '\n' :: after
  | [], _, _, h, _ => by cases h
  | l :: ls, rest, hls, h, after => by
    obtain ⟨hone, hnot⟩ := hls l List.mem_cons_self
    rw [rows_cons] at h
    cases hl : trimStart l with
    | nil =>
      have hblank : ∀ c ∈ l ++ ['\n'], isBlank c = true :=
        List.forall_mem_append.2 ⟨List.dropWhile_eq_nil_iff.1 hl, by decide⟩
      rw [List.append_cons, trimStart_append_of_blank hblank] at h
      exact semicolon_of_trimStart_rows (fun k hk => hls k (List.mem_cons_of_mem l hk)) h after
    | cons c more =>
      have hsplit : trimStart (l ++ '\n' :: rows ls) = c :: (more ++ '\n' :: rows ls) := by
        rw [trimStart] at hl ⊢
        rw [List.dropWhile_append, hl]
        rfl
      have hmore : '\n' ∉ more := fun hm =>
        hone ((List.dropWhile_suffix isBlank).subset (show '\n' ∈ trimStart l from hl ▸ List.mem_cons_of_mem c hm))
      rw [hsplit] at h
      obtain ⟨rfl, rfl⟩ := List.cons.inj h
      intro hspaces
      -- nothing but spaces and tabs follows the semicolon, so it is all of the line
      have htrim : trim l = trimEnd [';'] := by
        rw [trim, hl]
        exact trimEnd_append_of_blank
          (fun c hc => isBlank_of_isSpaceOrTab (spaces_of_dropWhile hmore hspaces c hc)) [';']
      exact hnot htrim

namespace ImportEnding

variable (e : ImportEnding)

/-- **An import line with a semicolon** ends with its newline. -/
theorem importEnd?_of_semicolon {s : { s : Text // ∀ c ∈ s, isSpaceOrTab c = true }} (h : e.semicolon = some s)
    (more : Text) : importEnd? (e.text ++ '\n' :: more) = some more := by
  have hrest : trimStart (e.text ++ '\n' :: more) = ';' :: (s.1 ++ '\n' :: more) := by
    rw [text, h, List.append_assoc, trimStart_append_of_blank e.blank]
    rfl
  have hend : (s.1 ++ '\n' :: more).dropWhile isSpaceOrTab = '\n' :: more := by
    rw [List.dropWhile_append_of_pos s.2]
    rfl
  rw [importEnd?, hrest]
  simp only [hend]

/-- **An import line without a semicolon** takes the blank lines after it along. -/
theorem importEnd?_of_none (h : e.semicolon = none) {ls : List Text} (hls : ∀ l ∈ ls, '\n' ∉ l ∧ trim l ≠ [';']) :
    importEnd? (e.text ++ '\n' :: rows ls) = some (rows (ls.dropWhile isBlankLine)) := by
  have htext : e.text = e.blanks := by rw [text, h, Option.elim_none, List.append_nil]
  have hlast : afterLastNewline? (e.blanks ++ '\n' :: rows ls) = some (rows (ls.dropWhile isBlankLine)) := by
    rw [afterLastNewline?_of_blank e.blank, afterLastNewline?_rows fun l hl => (hls l hl).1]
  have htrim : trimStart (e.blanks ++ '\n' :: rows ls) = trimStart (rows ls) :=
    trimStart_append_of_blank e.blank _
  rw [htext, importEnd?, htrim]
  split
  · rename_i rest hrest
    split
    · rename_i after hafter
      exact absurd hafter (semicolon_of_trimStart_rows hls hrest after)
    · exact hlast
  · exact hlast

end ImportEnding

/-! ## Dropping imports from lines -/

theorem dropImportsFrom_skip (wanted : Text → Bool) (rest : Text) : ∀ (lineStart : Bool) (s : Text),
    dropImportsFrom wanted (s.length + 1) lineStart (s ++ '\n' :: rest) = dropImports wanted rest
  | _, [] => rfl
  | _, c :: s => by
    rw [List.cons_append, List.length_cons, dropImportsFrom]
    exact dropImportsFrom_skip wanted rest (c == '\n') s

theorem dropImports_of_import {wanted : Text → Bool} {s rest : Text} (hne : s ≠ [])
    (h : import? wanted (s ++ '\n' :: rest) = some rest) :
    dropImports wanted (s ++ '\n' :: rest) = dropImports wanted rest := by
  obtain ⟨c, s, rfl⟩ := List.exists_cons_of_ne_nil hne
  rw [List.cons_append] at h ⊢
  have hlength : (s ++ '\n' :: rest).length - rest.length = s.length + 1 := by simp; omega
  rw [dropImports, dropImportsFrom, if_pos rfl, h]
  simp only [hlength, dropImportsFrom_skip]

namespace BodyLine

theorem newline_not_mem : ∀ l : BodyLine, '\n' ∉ l.text
  | importing i => i.newline_not_mem
  | other l => l.one

theorem trim_ne_semicolon : ∀ l : BodyLine, trim l.text ≠ [';']
  | importing i => by
    have hstart : trimStart i.text = 'i' :: ("mport".toList ++ (i.start ++ ("from".toList ++ i.clauseEnd))) := rfl
    have hend : trimEnd ['i'] = ['i'] := by decide
    have hsplit := trimEnd_append ['i'] ("mport".toList ++ (i.start ++ ("from".toList ++ i.clauseEnd)))
    rw [text, trim, hstart, ← List.singleton_append, hsplit, hend]
    split <;> simp
  | other l => l.notSemicolon

theorem rewrites_of_not_wanted {wanted : Text → Bool} : ∀ {l : BodyLine}, l.imports wanted = false →
    Rewrites (dropImports wanted) (l.text ++ ['\n']) (l.text ++ ['\n'])
  | importing i, h => rewrites_dropImports_of_none wanted i.newline_not_mem fun rest => by
      rw [text, i.import?_eq, if_neg (by simpa [imports] using h)]
  | other l, _ => rewrites_dropImports wanted l.one l.notImport

end BodyLine

/-- **The lines that can be seen.** -/
def shownLines (page : List BodyLine) : List BodyLine := page.filter fun l => !isBlankLine l.text

theorem shownLines_cons (l : BodyLine) (page : List BodyLine) :
    shownLines (l :: page) = if isBlankLine l.text then shownLines page else l :: shownLines page := by
  rw [shownLines, List.filter_cons]
  cases isBlankLine l.text <;> rfl

theorem shownLines_filter (p : BodyLine → Bool) (page : List BodyLine) :
    shownLines (page.filter p) = (shownLines page).filter p := by
  simp only [shownLines, List.filter_filter, Bool.and_comm]

theorem shownLines_dropWhile (page : List BodyLine) (p : BodyLine → Bool) :
    shownLines ((page.dropWhile fun l => isBlankLine l.text).filter p) = shownLines (page.filter p) := by
  induction page with
  | nil => rfl
  | cons l page ih =>
    rw [List.dropWhile_cons]
    split
    · rename_i hl
      rw [ih, shownLines, shownLines, List.filter_filter, List.filter_filter, List.filter_cons_of_neg (by simp [hl])]
    · rfl

/-- **A newline and lines** end with the newline in front of the lines that are left. -/
theorem newline_rows_dropWhile (p : Text → Bool) : ∀ ls : List Text,
    ∃ taken, '\n' :: rows ls = taken ++ '\n' :: rows (ls.dropWhile p)
  | [] => ⟨[], rfl⟩
  | l :: ls => by
    cases hl : p l with
    | true =>
      obtain ⟨taken, htaken⟩ := newline_rows_dropWhile p ls
      refine ⟨'\n' :: (l ++ taken), ?_⟩
      rw [List.dropWhile_cons_of_pos hl, rows_cons, htaken, List.cons_append, List.append_assoc]
    | false => exact ⟨[], by rw [List.dropWhile_cons_of_neg (by simp [hl]), List.nil_append]⟩

/-- **A wanted import** goes, and blank lines after it at most go with it. -/
theorem dropImports_wanted {wanted : Text → Bool} {i : ImportLine} (h : wanted i.source = true) (page : List BodyLine) :
    ∃ rest, (rest = page ∨ rest = page.dropWhile fun l => isBlankLine l.text) ∧
      dropImports wanted (i.text ++ '\n' :: rows (page.map BodyLine.text)) =
        dropImports wanted (rows (rest.map BodyLine.text)) := by
  have hne : i.text ≠ [] := by simp [ImportLine.text]
  cases hs : i.ending.semicolon with
  | some s =>
    refine ⟨page, .inl rfl, dropImports_of_import hne ?_⟩
    rw [i.import?_eq, if_pos h, i.ending.importEnd?_of_semicolon hs]
  | none =>
    have hlines : ∀ l ∈ page.map BodyLine.text, '\n' ∉ l ∧ trim l ≠ [';'] := fun l hl => by
      obtain ⟨b, -, rfl⟩ := List.mem_map.1 hl
      exact ⟨b.newline_not_mem, b.trim_ne_semicolon⟩
    have hblank : (page.map BodyLine.text).dropWhile isBlankLine =
        (page.dropWhile fun l => isBlankLine l.text).map BodyLine.text := List.dropWhile_map ..
    obtain ⟨taken, htaken⟩ := newline_rows_dropWhile isBlankLine (page.map BodyLine.text)
    have hsplit : i.text ++ '\n' :: rows (page.map BodyLine.text) =
        i.text ++ taken ++ '\n' :: rows ((page.map BodyLine.text).dropWhile isBlankLine) := by
      rw [htaken, List.append_assoc]
    refine ⟨page.dropWhile fun l => isBlankLine l.text, .inr rfl, ?_⟩
    rw [← hblank, hsplit]
    refine dropImports_of_import (by simp [hne]) ?_
    rw [← hsplit, i.import?_eq, if_pos h, i.ending.importEnd?_of_none hs hlines]

/-- **Dropping the wanted imports of a page** leaves the lines of a page, on which the same can be seen but for these
imports. -/
theorem dropImports_rows (wanted : Text → Bool) : ∀ page : List BodyLine, ∃ kept : List BodyLine,
    dropImports wanted (rows (page.map BodyLine.text)) = rows (kept.map BodyLine.text) ∧
      shownLines kept = shownLines (page.filter (!·.imports wanted))
  | [] => ⟨[], rfl, rfl⟩
  | l :: page => by
    cases hl : l.imports wanted with
    | false =>
      obtain ⟨kept, hkept, hshown⟩ := dropImports_rows wanted page
      refine ⟨l :: kept, ?_, ?_⟩
      · rw [List.map_cons, rows_cons, List.append_cons, BodyLine.rewrites_of_not_wanted hl, hkept, List.map_cons,
          rows_cons, ← List.append_cons]
      · rw [List.filter_cons_of_pos (by simp [hl]), shownLines_cons, shownLines_cons, hshown]
    | true =>
      cases l with
      | other l => cases hl
      | importing i =>
        obtain ⟨rest, hrest, hdrop⟩ := dropImports_wanted hl page
        -- the recursion is on what is left, which may be less than the page by blank lines
        have hlength : rest.length ≤ page.length := by
          rcases hrest with rfl | rfl
          · exact le_rfl
          · exact (List.dropWhile_suffix _).length_le
        obtain ⟨kept, hkept, hshown⟩ := dropImports_rows wanted rest
        refine ⟨kept, ?_, ?_⟩
        · rw [List.map_cons, rows_cons, BodyLine.text, hdrop, hkept]
        · rw [hshown, List.filter_cons_of_neg (by simp [hl])]
          rcases hrest with rfl | rfl
          · rfl
          · exact shownLines_dropWhile page _
termination_by page => page.length

/-! ## The imports of the old site -/

/-- **A module that only the old site can serve**: one of its own, by the beginning of its name, or a partial page. -/
def OfOldSite (source : Text) : Prop :=
  (∃ start ∈ ["@site", "@theme", "@docusaurus", "react-feather", "@fluentui"], start.toList <+: source) ∨
    "partials".toList <:+: source

instance : DecidablePred OfOldSite := fun _ => inferInstanceAs (Decidable (_ ∨ _))

theorem has_eq_true_iff {key : Text} : ∀ {s : Text}, has key s = true ↔ key <:+: s
  | [] => by simp [has, cutAt?, List.isEmpty_iff]
  | c :: s => by
    have ih := @has_eq_true_iff key s
    rw [has] at ih ⊢
    rw [cutAt?, List.infix_cons_iff, ← ih]
    cases hc : after? key (c :: s) with
    | some rest => simpa using Or.inl ⟨rest, (after?_eq_some_iff.1 hc).symm⟩
    | none => simp [after?_eq_none_iff.1 hc]

theorem ofOldSite_iff {source : Text} :
    OfOldSite source ↔ isPlatformModule source = true ∨ isPartialModule source = true := by
  simp [OfOldSite, isPlatformModule, platformModules, isPartialModule, has_eq_true_iff, List.isPrefixOf_iff_prefix]

/-- **A line that imports from the old site.** -/
def BodyLine.isOfOldSite : BodyLine → Bool
  | importing i => decide (OfOldSite i.source)
  | other _ => false

theorem BodyLine.isOfOldSite_eq (l : BodyLine) :
    l.isOfOldSite = (l.imports isPlatformModule || l.imports isPartialModule) := by
  cases l with
  | importing i =>
    rw [isOfOldSite, imports, imports, Bool.eq_iff_iff, decide_eq_true_iff, ofOldSite_iff, Bool.or_eq_true]
  | other l => rfl

/-- **Stripping the imports of the old site** takes out these imports and nothing else that can be seen: every other
line that is not blank stays as it is, in its place. -/
theorem stripPlatformImports_rows (page : List BodyLine) :
    (lines (stripPlatformImports (rows (page.map BodyLine.text)))).filter (!isBlankLine ·) =
      ((page.filter (!·.isOfOldSite)).map BodyLine.text).filter (!isBlankLine ·) := by
  obtain ⟨first, hfirst, hshown⟩ := dropImports_rows isPlatformModule page
  obtain ⟨kept, hkept, hlast⟩ := dropImports_rows isPartialModule first
  have hone : ∀ l ∈ kept.map BodyLine.text, '\n' ∉ l := fun l hl => by
    obtain ⟨b, -, rfl⟩ := List.mem_map.1 hl
    exact b.newline_not_mem
  have hlines : lines (rows (kept.map BodyLine.text)) = kept.map BodyLine.text ++ [[]] := by
    have h := lines_rows_append [] hone
    rwa [List.append_nil] at h
  have hboth : ∀ l : BodyLine, (!l.isOfOldSite) = (!l.imports isPartialModule && !l.imports isPlatformModule) := by
    intro l
    rw [l.isOfOldSite_eq, Bool.not_or, Bool.and_comm]
  have hpage : shownLines kept = shownLines (page.filter (!·.isOfOldSite)) := by
    simp only [hlast, shownLines_filter, hshown, hboth, List.filter_filter]
  rw [stripPlatformImports, hfirst, hkept, hlines, List.filter_append, List.filter_map, List.filter_map]
  exact (List.append_nil _).trans (congrArg (List.map BodyLine.text) hpage)

/-- Blank lines after an import may go with it. -/
example : stripPlatformImports "import A from '@site/a'\n\nimport B from 'b';\n".toList =
    "import B from 'b';\n".toList := by decide +kernel

end DocFerry.Markup
