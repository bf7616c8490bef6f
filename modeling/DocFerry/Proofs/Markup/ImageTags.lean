import DocFerry.Proofs.Markup.Attributes
import DocFerry.Proofs.Markup.References
/-!
# The tag of an image

A tag with a source in an asset folder has one of three shapes, and is recognised as an image of that shape
(`tagImage_source`) and of no other (`tagImage_other`): up to its end there is one place where the attribute of a source
begins, even if the path holds the text that it begins with.
-/
namespace DocFerry.Markup

open Text

/-- **A path into an asset folder**, after anything that leads there. -/
structure AssetPath where
  lead : Lead
  folder : Text
  name : ImageName
  isFolder : folder ∈ assetFolders

def AssetPath.text (path : AssetPath) : Text := path.lead.reference path.folder ++ path.name.text

/-- **The shapes of a source**: quoted, required, and required with its default export. -/
inductive TagShape where
  | quoted
  | required
  | defaulted
  deriving DecidableEq

namespace TagShape

/-- **What stands in front of the quoted path** of a source. -/
def opener : TagShape → Text
  | .quoted => []
  | .required => "\x7brequire(".toList
  | .defaulted => "\x7brequire(".toList

/-- **What stands behind the quoted path** of a source. -/
def closer : TagShape → Text
  | .quoted => []
  | .required => ")\x7d".toList
  | .defaulted => ").default\x7d".toList

end TagShape

/-- **Attributes beside the source** of a tag. -/
structure OtherAttributes where
  text : Text
  clean : ∀ c ∈ text, c ∉ "<>!".toList
  noSource : ¬ "src=".toList <:+: text

/-- **A tag of an image** in an asset folder. -/
structure ImageTag where
  shape : TagShape
  before : OtherAttributes
  /-- The quotation mark at both ends of the path. -/
  mark : Char
  path : AssetPath
  after : OtherAttributes
  before_head : before.text.head?.any isBlank = true
  before_last : before.text.getLast?.any isBlank = true
  isQuote : isQuote mark = true

/-- **The source text of the tag.** -/
def ImageTag.source (tag : ImageTag) : Text :=
  "<img".toList ++ tag.before.text ++ "src=".toList ++ tag.shape.opener ++ [tag.mark] ++ tag.path.text ++ [tag.mark] ++
    tag.shape.closer ++ tag.after.text ++ ['>']

/-! ## Characters -/

namespace AssetPath

variable (path : AssetPath)

theorem not_mem {c : Char} (h : c ∈ "()[]<>".toList) : c ∉ path.text := by
  have hlead : ∀ c ∈ "()[]<>".toList, ¬ (isBlank c = true ∨ c ∈ "./@siteacmg".toList) := by decide
  intro hc
  rcases List.mem_append.1 hc with hc | hc
  · exact hlead c h (path.lead.mem_reference path.isFolder hc)
  · exact path.name.not_mem h hc

theorem isQuote_eq_false {c : Char} (hc : c ∈ path.text) : isQuote c = false := by
  have hmarks : ∀ c ∈ ['"', '\''], ¬ (isBlank c = true ∨ c ∈ "./@siteacmg".toList) := by decide
  rcases List.mem_append.1 hc with hc | hc
  · refine Bool.eq_false_iff.2 fun hquote => ?_
    exact hmarks c (by simpa [isQuote] using hquote) (path.lead.mem_reference path.isFolder hc)
  · exact (path.name.clean c hc).1

end AssetPath

theorem OtherAttributes.not_mem (attributes : OtherAttributes) {c : Char} (h : c ∈ "<>!".toList) : c ∉ attributes.text :=
  fun hc => attributes.clean c hc h

/-! ## Shapes -/

namespace TagShape

/-- **What is looked for** in a tag of a shape. -/
def sourceShape (shape : TagShape) : SourceShape := ⟨shape.opener, shape.closer⟩

theorem not_mem_opener (shape : TagShape) : ∀ c ∈ "<>![\"'".toList, c ∉ "src=".toList ++ shape.opener := by
  cases shape <;> decide

theorem not_mem_closer (shape : TagShape) : ∀ c ∈ "<>![s".toList, c ∉ shape.closer := by
  cases shape <;> decide

end TagShape

theorem source?_eq_none {shape : SourceShape} {s : Text} (h : ¬ "src=".toList <+: s) : shape.source? s = none := by
  have hafter : after? ("src=".toList ++ shape.opener) s = none := by
    cases ha : after? ("src=".toList ++ shape.opener) s with
    | none => rfl
    | some rest =>
      refine absurd ?_ h
      rw [after?_eq_some_iff.1 ha, List.append_assoc]
      exact List.prefix_append _ _
  rw [SourceShape.source?, hafter]
  rfl

/-- **What a recognised source begins with.** -/
theorem start_of_source? {shape : SourceShape} {s target rest : Text} (h : shape.source? s = some (target, rest)) :
    ∃ mark value, s = "src=".toList ++ shape.opener ++ mark :: value ∧ isQuote mark = true ∧ assetPath? value ≠ none := by
  obtain ⟨value, hvalue, hrest⟩ := Option.bind_eq_some_iff.1 h
  obtain ⟨quoted, hquoted, hmark⟩ := Option.bind_eq_some_iff.1 hvalue
  obtain ⟨run, hrun, -⟩ := Option.bind_eq_some_iff.1 hrest
  obtain ⟨path, hpath, -⟩ := Option.bind_eq_some_iff.1 hrun
  obtain ⟨mark, rfl, hquote⟩ := quote?_eq_some hmark
  exact ⟨mark, value, after?_eq_some_iff.1 hquoted, hquote, by simp [hpath]⟩

theorem source?_of_opener {shape other : TagShape} (h : shape.opener ≠ other.opener) {mark : Char}
    (hm : isQuote mark = true) (s : Text) :
    shape.sourceShape.source? ("src=".toList ++ other.opener ++ mark :: s) = none := by
  have hmark : mark = '"' ∨ mark = '\'' := by simpa [isQuote] using hm
  cases shape with
  | quoted =>
    cases other with
    | quoted => exact absurd rfl h
    | required => rfl
    | defaulted => rfl
  | required =>
    cases other with
    | quoted => rcases hmark with rfl | rfl <;> rfl
    | required => exact absurd rfl h
    | defaulted => exact absurd rfl h
  | defaulted =>
    cases other with
    | quoted => rcases hmark with rfl | rfl <;> rfl
    | required => exact absurd rfl h
    | defaulted => exact absurd rfl h

theorem after?_closer {shape other : TagShape} (h : shape ≠ other) (ho : shape.opener = other.opener) (s : Text) :
    after? shape.closer (other.closer ++ s) = none := by
  cases shape with
  | quoted =>
    cases other with
    | quoted => exact absurd rfl h
    | required => exact absurd ho (by decide)
    | defaulted => exact absurd ho (by decide)
  | required =>
    cases other with
    | quoted => exact absurd ho (by decide)
    | required => exact absurd rfl h
    | defaulted => rfl
  | defaulted =>
    cases other with
    | quoted => exact absurd ho (by decide)
    | required => rfl
    | defaulted => exact absurd rfl h

/-! ## A tag -/

namespace ImageTag

variable (tag : ImageTag) (rest : Text)

/-- **The attribute of the source** and all that follows it in the tag. -/
def sourcePart : Text :=
  "src=".toList ++ tag.shape.opener ++
    tag.mark :: (tag.path.text ++ tag.mark :: (tag.shape.closer ++ tag.after.text))

theorem source_eq : tag.source = "<img".toList ++ (tag.before.text ++ tag.sourcePart) ++ ['>'] := by
  unfold source sourcePart
  simp only [List.append_assoc, List.cons_append, List.nil_append]

theorem ne_mark {c : Char} (h : Markup.isQuote c = false) : c ≠ tag.mark := fun he => by
  rw [he, tag.isQuote] at h
  cases h

theorem not_mem_sourcePart {c : Char} (h : c ∈ "<>".toList) : c ∉ tag.sourcePart := by
  have hmarks : ∀ c ∈ "<>".toList, Markup.isQuote c = false ∧ c ∈ "<>![\"'".toList ∧ c ∈ "<>![s".toList ∧
      c ∈ "()[]<>".toList ∧ c ∈ "<>!".toList := by decide
  obtain ⟨hquote, hopener, hcloser, hpath, hother⟩ := hmarks c h
  intro hc
  rcases List.mem_append.1 hc with hc | hc
  · exact tag.shape.not_mem_opener c hopener hc
  rw [List.mem_cons, List.mem_append, List.mem_cons, List.mem_append] at hc
  rcases hc with hc | hc | hc | hc | hc
  · exact tag.ne_mark hquote hc
  · exact tag.path.not_mem hpath hc
  · exact tag.ne_mark hquote hc
  · exact tag.shape.not_mem_closer c hcloser hc
  · exact tag.after.not_mem hother hc

theorem opens : Opens '<' tag.source := by
  refine ⟨by rw [source_eq]; rfl, ?_⟩
  rw [source_eq]
  show '<' ∉ "img".toList ++ (tag.before.text ++ tag.sourcePart) ++ ['>']
  simp only [List.mem_append, not_or]
  exact ⟨⟨by decide, tag.before.not_mem (by decide), tag.not_mem_sourcePart (by decide)⟩, by decide⟩

theorem tagStart?_source : tagStart? "img".toList (tag.source ++ rest) =
    some (tag.before.text ++ (tag.sourcePart ++ '>' :: rest)) := by
  have hsplit : tag.source ++ rest = "<img".toList ++ (tag.before.text ++ (tag.sourcePart ++ '>' :: rest)) := by
    simp [source_eq]
  have hstart : after? ('<' :: "img".toList) ("<img".toList ++ (tag.before.text ++ (tag.sourcePart ++ '>' :: rest))) =
      some (tag.before.text ++ (tag.sourcePart ++ '>' :: rest)) := after?_eq_some_iff.2 rfl
  obtain ⟨c, hc, hblank⟩ := Option.any_eq_true _ _ |>.1 tag.before_head
  obtain ⟨more, hmore⟩ := List.head?_eq_some_iff.1 hc
  have hword : isWordChar c = false := by
    have hattribute := isAttributeChar_of_isBlank hblank
    rw [isAttributeChar, Bool.or_eq_false_iff] at hattribute
    exact hattribute.1
  rw [tagStart?, hsplit, hstart, hmore]
  simp [hword]

theorem silent_before (shape : SourceShape) : Silent shape.source? tag.before.text rest := by
  obtain ⟨c, hc, hblank⟩ := Option.any_eq_true _ _ |>.1 tag.before_last
  obtain ⟨start, hstart⟩ := List.getLast?_eq_some_iff.1 hc
  have hkey : c ∉ "src=".toList := fun hmem =>
    absurd hblank (by rw [(by decide : ∀ c ∈ "src=".toList, isBlank c = false) c hmem]; simp)
  have hnone : ¬ "src=".toList <:+: start := fun hk =>
    tag.before.noSource (hstart ▸ hk.trans (List.prefix_append start [c]).isInfix)
  rw [hstart]
  exact silent_of_not_within (fun s => source?_eq_none) hkey hnone rest

/-- **A tag is recognised in its own shape.** -/
theorem tagImage_source : tag.shape.sourceShape.tagImage (tag.source ++ rest) =
    some (markdownImage "Image".toList tag.path.name.text, rest) := by
  obtain ⟨c, hc, hblank⟩ := Option.any_eq_true _ _ |>.1 tag.before_last
  have hsource : tag.shape.sourceShape.source? (tag.sourcePart ++ '>' :: rest) = some (tag.path.name.text, rest) := by
    have hlead := source?_lead tag.shape.sourceShape tag.path.lead tag.path.isFolder tag.isQuote tag.isQuote
      (fun c hc => (tag.path.name.clean c hc).1) tag.path.name.nonempty (tag.after.not_mem (by decide)) rest
    simpa [sourcePart, AssetPath.text, TagShape.sourceShape] using hlead
  have hhere : seekAttribute tag.shape.sourceShape.source? c (tag.sourcePart ++ '>' :: rest) =
      some ([], tag.path.name.text, rest) :=
    seekAttribute_here (by simp [sourcePart]) (isAttributeChar_of_isBlank hblank) hsource
  unfold SourceShape.tagImage
  rw [tagStart?_source, Option.bind_eq_bind, Option.bind_some,
    seekAttribute_append 'g' (tag.before.not_mem (by decide)) (tag.silent_before _ _), hc, Option.getD_some, hhere]
  rfl

/-! ## Other shapes -/

section Other

variable {tag rest} {shape : TagShape} (h : shape ≠ tag.shape)

include h

theorem source?_sourcePart : shape.sourceShape.source? (tag.sourcePart ++ rest) = none := by
  have hsplit : tag.sourcePart ++ rest = "src=".toList ++ tag.shape.opener ++ tag.mark ::
      (tag.path.lead.reference tag.path.folder ++ (tag.path.name.text ++
        tag.mark :: (tag.shape.closer ++ (tag.after.text ++ rest)))) := by
    unfold sourcePart AssetPath.text
    simp only [List.append_assoc, List.cons_append]
  rw [hsplit]
  by_cases ho : shape.opener = tag.shape.opener
  · have hvalue := source?_value shape.sourceShape tag.path.lead tag.path.isFolder tag.isQuote tag.isQuote
      (fun c hc => (tag.path.name.clean c hc).1) tag.path.name.nonempty (tag.shape.closer ++ (tag.after.text ++ rest))
    rw [← ho]
    refine hvalue.trans ?_
    rw [TagShape.sourceShape, after?_closer h ho]
    rfl
  · exact source?_of_opener ho tag.isQuote _

/-- **No source begins in the path**, even if the path holds what one begins with. -/
theorem silent_path (s : Text) :
    Silent shape.sourceShape.source? tag.path.text (tag.mark :: (tag.shape.closer ++ s)) := by
  intro t ht hne
  cases hfound : shape.sourceShape.source? (t ++ tag.mark :: (tag.shape.closer ++ s)) with
  | none => rfl
  | some found =>
    obtain ⟨mark, value, he, hm, hpath⟩ := start_of_source? hfound
    -- The mark behind the path cuts what a source begins with, so all of that is within the path.
    have hcut : tag.mark ∉ "src=".toList ++ shape.opener := by
      have hmark : tag.mark ∈ "<>![\"'".toList := by
        have hquote : tag.mark = '"' ∨ tag.mark = '\'' := by simpa [Markup.isQuote] using tag.isQuote
        rcases hquote with hq | hq <;> rw [hq] <;> decide
      exact shape.not_mem_opener _ hmark
    obtain ⟨w, rfl⟩ := start_of_start_append hcut ⟨mark :: value, he.symm⟩
    have hopener : '(' ∉ shape.opener := fun hp =>
      tag.path.not_mem (by decide) (ht.subset (List.mem_append_left w (List.mem_append_right _ hp)))
    rw [TagShape.sourceShape, List.append_assoc, List.append_cancel_left_eq] at he
    cases w with
    | nil =>
      obtain ⟨-, rfl⟩ := List.cons.inj he
      cases shape with
      | quoted =>
        cases hs : tag.shape with
        | quoted => exact absurd hs.symm h
        | required => exact absurd (by rw [hs]; rfl) hpath
        | defaulted => exact absurd (by rw [hs]; rfl) hpath
      | required => exact absurd (by decide) hopener
      | defaulted => exact absurd (by decide) hopener
    | cons c w =>
      obtain ⟨rfl, -⟩ := List.cons.inj he
      have hc := tag.path.isQuote_eq_false (ht.subset (List.mem_append_right _ List.mem_cons_self))
      rw [hm] at hc
      cases hc

theorem silent_sourcePart : Silent shape.sourceShape.source? (tag.sourcePart ++ ['>']) rest := by
  have hs : ∀ {s : Text}, 's' ∉ s → ∀ rest, Silent shape.sourceShape.source? s rest := fun hs rest =>
    silent_of_not_mem (fun s => source?_eq_none) (by decide : "src=".toList.head? = some 's') hs rest
  have hmark : 's' ∉ [tag.mark] := fun hm => tag.ne_mark (by decide) (List.mem_singleton.1 hm)
  have hopener : 's' ∉ "rc=".toList ++ tag.shape.opener := by cases tag.shape <;> decide
  have hend : Silent shape.sourceShape.source? (tag.after.text ++ ['>']) rest :=
    silent_of_not_within (fun s => source?_eq_none) (by decide) tag.after.noSource rest
  have hclose : Silent shape.sourceShape.source? ([tag.mark] ++ tag.shape.closer ++ (tag.after.text ++ ['>'])) rest :=
    ((hs hmark _).append (hs (tag.shape.not_mem_closer 's' (by decide)) _)).append hend
  have hpath : Silent shape.sourceShape.source?
      (tag.path.text ++ ([tag.mark] ++ tag.shape.closer ++ (tag.after.text ++ ['>']))) rest := by
    refine Silent.append ?_ hclose
    have hwithin := silent_path h (tag.after.text ++ ['>'] ++ rest)
    rwa [← List.append_assoc, ← List.singleton_append, ← List.append_assoc, ← List.append_assoc] at hwithin
  have hsplit : tag.sourcePart ++ ['>'] = 's' :: ("rc=".toList ++ tag.shape.opener ++ ([tag.mark] ++
      (tag.path.text ++ ([tag.mark] ++ tag.shape.closer ++ (tag.after.text ++ ['>']))))) := by
    have hstart : "src=".toList = 's' :: "rc=".toList := by decide
    unfold sourcePart
    rw [hstart]
    simp only [List.append_assoc, List.cons_append, List.nil_append]
  have hfirst : shape.sourceShape.source? (tag.sourcePart ++ (['>'] ++ rest)) = none := source?_sourcePart h
  rw [← List.append_assoc, hsplit] at hfirst
  rw [hsplit]
  exact ((hs hopener _).append ((hs hmark _).append hpath)).cons hfirst

/-- **A tag is recognised in no other shape** than its own. -/
theorem tagImage_other : shape.sourceShape.tagImage (tag.source ++ rest) = none := by
  have hend : '>' ∉ tag.before.text ++ tag.sourcePart := fun hm =>
    (List.mem_append.1 hm).elim (tag.before.not_mem (by decide)) (tag.not_mem_sourcePart (by decide))
  have hsilent : Silent shape.sourceShape.source? (tag.before.text ++ tag.sourcePart ++ ['>']) rest := by
    rw [List.append_assoc]
    exact (tag.silent_before _ _).append (silent_sourcePart h)
  unfold SourceShape.tagImage
  rw [tagStart?_source, ← List.append_assoc, Option.bind_eq_bind, Option.bind_some,
    seekAttribute_eq_none 'g' hend hsilent]
  rfl

end Other

end ImageTag

end DocFerry.Markup
