import Mathlib.Data.List.TakeWhile
import DocFerry.Proofs.Markup.Images
import DocFerry.Proofs.Page.Converted
/-!
# How a converted text opens

Behind its leading blanks a text opens with a rule of three hyphens or it does not.  Dropping imports keeps a rule that
is there (`OpensWithRule.stripPlatformImports`), and no later conversion brings one, since none writes a text that
begins with a hyphen (`opensWithRule_of_convertMarkup`).
-/
namespace DocFerry.Page

open Text Markup

/-- **A text that opens with a rule**, as delimiter lines begin with one. -/
def OpensWithRule (s : Text) : Prop := delimiter <+: trimStart s

instance (s : Text) : Decidable (OpensWithRule s) := inferInstanceAs (Decidable (_ <+: _))

theorem trimStart_cons_of_blank {c : Char} (hc : isBlank c = true) (s : Text) : trimStart (c :: s) = trimStart s := by
  rw [trimStart, List.dropWhile_cons_of_pos hc, trimStart]

theorem trimStart_cons_of_visible {c : Char} (hc : ¬ isBlank c = true) (s : Text) : trimStart (c :: s) = c :: s := by
  rw [trimStart, List.dropWhile_cons_of_neg hc]

/-! ## Imports -/

/-- **No import begins** in a start without its first letter. -/
theorem dropImportsFrom_append (wanted : Text → Bool) (rest : Text) : ∀ {start : Text} (lineStart : Bool), 'i' ∉ start →
    ∃ lineStart', dropImportsFrom wanted 0 lineStart (start ++ rest) =
      start ++ dropImportsFrom wanted 0 lineStart' rest
  | [], lineStart, _ => ⟨lineStart, rfl⟩
  | c :: start, lineStart, h => by
    rw [List.mem_cons, not_or] at h
    obtain ⟨lineStart', hrest⟩ := dropImportsFrom_append wanted rest (c == '\n') h.2
    have hkey : ¬ "import".toList <+: c :: (start ++ rest) := fun hk => h.1 (List.cons_prefix_cons.1 hk).1
    have hnone : (if lineStart then import? wanted (c :: (start ++ rest)) else none) = none := by
      rw [Markup.import?_eq_none hkey, ite_self]
    refine ⟨lineStart', ?_⟩
    rw [List.cons_append, dropImportsFrom, hnone]
    simp only [hrest, List.cons_append]

theorem OpensWithRule.dropImports {s : Text} (h : OpensWithRule s) (wanted : Text → Bool) :
    OpensWithRule (dropImports wanted s) := by
  obtain ⟨rest, hrest⟩ := h
  have hblank : ∀ c ∈ s.takeWhile isBlank, isBlank c = true := fun c hc => List.mem_takeWhile_imp hc
  have hplain : 'i' ∉ s.takeWhile isBlank ++ delimiter := by
    rw [List.mem_append, not_or]
    exact ⟨fun hi => absurd (hblank _ hi) (by decide), by decide⟩
  have hs : s = s.takeWhile isBlank ++ delimiter ++ rest := by
    rw [List.append_assoc, hrest, trimStart, List.takeWhile_append_dropWhile]
  obtain ⟨lineStart, hkept⟩ := dropImportsFrom_append wanted rest true hplain
  rw [OpensWithRule, Markup.dropImports, hs, hkept, List.append_assoc, trimStart_append_of_blank hblank]
  exact List.prefix_append _ _

theorem OpensWithRule.stripPlatformImports {s : Text} (h : OpensWithRule s) : OpensWithRule (stripPlatformImports s) :=
  (h.dropImports isPlatformModule).dropImports isPartialModule

/-! ## Replacing matches -/

/-- **A text that opens with something else than a hyphen.** -/
def OpensElse (s : Text) : Prop := (trimStart s).head?.any (· != '-') = true

theorem OpensElse.not_rule {s : Text} (h : OpensElse s) (rest : Text) : ¬ OpensWithRule (s ++ rest) := by
  unfold OpensElse trimStart at h
  unfold OpensWithRule trimStart
  rw [List.dropWhile_append]
  cases hs : s.dropWhile isBlank with
  | nil => simp [hs] at h
  | cons c more =>
    have hc : c ≠ '-' := by simpa [hs] using h
    exact fun hr => hc (List.cons_prefix_cons.1 hr).1.symm

theorem OpensElse.not_hyphens {s : Text} (h : OpensElse s) (n : Nat) (rest : Text) :
    ¬ List.replicate (n + 1) '-' <+: s ++ rest := by
  have hhyphen : ¬ isBlank '-' = true := by decide
  cases s with
  | nil => exact absurd h (by simp [OpensElse, trimStart])
  | cons c s =>
    intro hn
    obtain ⟨rfl, -⟩ := List.cons_prefix_cons.1 hn
    rw [OpensElse, trimStart_cons_of_visible hhyphen] at h
    exact absurd h (by simp)

/-- **A matcher that never writes a hyphen first.** -/
def WritesElse (m : Matcher) : Prop := ∀ s written rest, m s = some (written, rest) → OpensElse written

section Substitute

variable {m : Matcher}

-- By induction along the text: a match at a hyphen would write something else in its place, so the hyphens that stand
-- in front afterwards are those of the text.
theorem hyphens_of_substitute (hm : WritesElse m) : ∀ {n : Nat} {s : Text},
    List.replicate n '-' <+: substitute m s → List.replicate n '-' <+: s
  | 0, s, _ => List.nil_prefix
  | n + 1, [], h => h
  | n + 1, c :: s, h => by
    cases hc : m (c :: s) with
    | some found =>
      obtain ⟨more, hmore⟩ := substitute_cons_of_some hc
      rw [hmore] at h
      exact absurd h ((hm _ _ _ hc).not_hyphens n more)
    | none =>
      rw [substitute_cons_of_none hc] at h
      obtain ⟨hhyphen, hrest⟩ := List.cons_prefix_cons.1 h
      exact List.cons_prefix_cons.2 ⟨hhyphen, hyphens_of_substitute hm hrest⟩

/-- **Replacing matches brings no rule**, if no match is replaced by something that begins with a hyphen. -/
theorem opensWithRule_of_substitute (hm : WritesElse m) : ∀ {s : Text},
    OpensWithRule (substitute m s) → OpensWithRule s
  | [], h => h
  | c :: s, h => by
    cases hc : m (c :: s) with
    | some found =>
      obtain ⟨more, hmore⟩ := substitute_cons_of_some hc
      rw [hmore] at h
      exact absurd h ((hm _ _ _ hc).not_rule more)
    | none =>
      rw [substitute_cons_of_none hc] at h
      unfold OpensWithRule at h ⊢
      by_cases hb : isBlank c = true
      · rw [trimStart_cons_of_blank hb] at h ⊢
        exact opensWithRule_of_substitute hm h
      · rw [trimStart_cons_of_visible hb] at h ⊢
        obtain ⟨hhyphen, hrest⟩ := List.cons_prefix_cons.1 h
        exact List.cons_prefix_cons.2 ⟨hhyphen, @hyphens_of_substitute m hm 2 s hrest⟩

end Substitute

/-! ## Conversion by conversion -/

/-- **A conversion that brings no rule**: what opens with one afterwards did so before. -/
def BringsNoRule (f : Text → Text) : Prop := ∀ s, OpensWithRule (f s) → OpensWithRule s

theorem BringsNoRule.comp {f g : Text → Text} (hf : BringsNoRule f) (hg : BringsNoRule g) :
    BringsNoRule fun s => g (f s) := fun s h => hf s (hg _ h)

theorem bringsNoRule_substitute {m : Matcher} (hm : WritesElse m) : BringsNoRule (substitute m) := fun _ =>
  opensWithRule_of_substitute hm

theorem writesElse_map {α : Type} {find : Text → Option α} {write : α → Text × Text} (h : ∀ a, OpensElse (write a).1) :
    WritesElse fun s => (find s).map write := by
  intro s written rest hs
  obtain ⟨a, -, he⟩ := Option.map_eq_some_iff.1 hs
  have hwritten : (write a).1 = written := by rw [he]
  exact hwritten ▸ h a

theorem writesElse_literal (found : Text) {written : Text} (h : OpensElse written) :
    WritesElse (literal found written) := writesElse_map fun _ => h

theorem writesElse_openTag (name : Text) {written : Text → Text} (h : ∀ attributes, OpensElse (written attributes)) :
    WritesElse (openTag name written) := writesElse_map fun _ => h _

theorem bringsNoRule_convertComments : BringsNoRule convertComments :=
  bringsNoRule_substitute (writesElse_map fun _ => by rfl)

theorem bringsNoRule_convertTabs : BringsNoRule convertTabs :=
  (((bringsNoRule_substitute (writesElse_openTag _ fun _ => by rfl)).comp
    (bringsNoRule_substitute (writesElse_literal _ (by rfl)))).comp
    (bringsNoRule_substitute (writesElse_openTag _ fun _ => by rfl))).comp
    (bringsNoRule_substitute (writesElse_literal _ (by rfl)))

theorem bringsNoRule_redirectImages : BringsNoRule redirectImages :=
  bringsNoRule_substitute (writesElse_map fun _ => by rfl)

theorem writesElse_tagImage (shape : SourceShape) : WritesElse shape.tagImage := by
  intro s w rest hs
  obtain ⟨target, rfl⟩ := exists_target_of_tagImage hs
  rfl

theorem writesElse_linkedCard : WritesElse linkedCard := by
  intro s w rest hs
  obtain ⟨inner, -, hs⟩ := Option.bind_eq_some_iff.1 hs
  obtain ⟨⟨before, d⟩, -, he⟩ := Option.bind_eq_some_iff.1 hs
  cases he
  rfl

theorem bringsNoRule_convertRest : BringsNoRule convertRest := by
  have himages : BringsNoRule convertImageTags :=
    ((bringsNoRule_substitute (writesElse_tagImage _)).comp (bringsNoRule_substitute (writesElse_tagImage _))).comp
      (bringsNoRule_substitute (writesElse_tagImage _))
  have hcards : BringsNoRule convertCards :=
    ((bringsNoRule_substitute (writesElse_openTag _ fun _ => by rfl)).comp
      (bringsNoRule_substitute (writesElse_literal _ (by rfl)))).comp (bringsNoRule_substitute writesElse_linkedCard)
  have hbrackets : BringsNoRule escapeBracketedTags := bringsNoRule_substitute (writesElse_map fun _ => by rfl)
  exact (himages.comp hcards).comp hbrackets

/-! ## Admonitions -/

/-- **A line decides** how the text opens, unless it is blank. -/
theorem opensWithRule_line {line s t : Text} (h : OpensWithRule s → OpensWithRule t)
    (hs : OpensWithRule (line ++ '\n' :: s)) : OpensWithRule (line ++ '\n' :: t) := by
  have hnewline : isBlank '\n' = true := by decide
  unfold OpensWithRule at *
  by_cases hb : trimStart line = []
  · have hall : ∀ c ∈ line ++ ['\n'], isBlank c = true := by
      intro c hc
      rcases List.mem_append.1 hc with hc | hc
      · exact List.dropWhile_eq_nil_iff.1 hb c hc
      · exact List.mem_singleton.1 hc ▸ hnewline
    rw [List.append_cons, trimStart_append_of_blank hall] at hs ⊢
    exact h hs
  · have hkept : ∀ u, trimStart (line ++ u) = trimStart line ++ u := fun u => by
      unfold trimStart at hb ⊢
      rw [List.dropWhile_append, if_neg (by simpa using hb)]
    rw [hkept] at hs ⊢
    exact (start_of_start_append (by decide) hs).trans (List.prefix_append _ _)

theorem not_opensWithRule_callout (tag body : Text) (more : List Text) :
    ¬ OpensWithRule (unlines (callout tag body :: more)) := by
  have helse : OpensElse (callout tag body) := rfl
  cases more with
  | nil => simpa [unlines, join] using helse.not_rule []
  | cons next more =>
    rw [unlines_cons _ (by simp)]
    exact helse.not_rule _

theorem convertLines_cons_cases (line : Text) (rest : List Text) :
    (∃ tag body more, convertLines (line :: rest) = callout tag body :: more) ∨
      convertLines (line :: rest) = line :: convertLines rest := by
  rw [convertLines, convertLinesFrom]
  split
  · exact .inl ⟨_, _, _, rfl⟩
  · exact .inr rfl

theorem opensWithRule_of_convertLines : ∀ {ls : List Text},
    OpensWithRule (unlines (convertLines ls)) → OpensWithRule (unlines ls)
  | [], h => h
  | [line], h => by
    rcases convertLines_cons_cases line [] with ⟨tag, body, more, hcallout⟩ | hkept
    · rw [hcallout] at h
      exact absurd h (not_opensWithRule_callout tag body more)
    · rwa [hkept] at h
  | line :: next :: rest, h => by
    rcases convertLines_cons_cases line (next :: rest) with ⟨tag, body, more, hcallout⟩ | hkept
    · rw [hcallout] at h
      exact absurd h (not_opensWithRule_callout tag body more)
    · rw [hkept, unlines_cons line (convertLines_ne_nil (by simp))] at h
      rw [unlines_cons line (by simp)]
      exact opensWithRule_line opensWithRule_of_convertLines h

theorem bringsNoRule_convertAdmonitions : BringsNoRule convertAdmonitions := by
  intro s h
  have hlines := opensWithRule_of_convertLines (show OpensWithRule (unlines (convertLines (lines s))) from h)
  rwa [unlines_lines] at hlines

/-- **No conversion but the dropping of imports brings a rule** to where a text opens. -/
theorem opensWithRule_of_convertMarkup {s : Text} (h : OpensWithRule (convertMarkup s)) :
    OpensWithRule (stripPlatformImports s) := by
  rw [convertMarkup_eq] at h
  exact (((bringsNoRule_convertComments.comp bringsNoRule_convertTabs).comp bringsNoRule_convertAdmonitions).comp
    bringsNoRule_redirectImages).comp bringsNoRule_convertRest _ h

end DocFerry.Page
