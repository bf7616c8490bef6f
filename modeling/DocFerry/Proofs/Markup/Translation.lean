import Mathlib.Data.List.TakeWhile
import DocFerry.Proofs.Markup.Images
/-!
# Markup rewriting is a translation

Items without admonitions become lines without fences, of which the later conversions rewrite every piece on its own
(`Staged`), so that trimming the inside of an admonition does not matter to them.  The markup of a page is therefore its
translation, construct by construct (`convertMarkup_source`).
-/
namespace DocFerry.Markup

open Text

/-- **The conversions up to that of tabs.** -/
def convertOpening (s : Text) : Text := convertTabs (convertComments (stripPlatformImports s))

theorem rewrites_convertOpening {line converted : Text} (hone : '\n' ∉ line) (himport : ¬ "import".toList <+: line)
    (hc : Clear ["!--".toList] line) (ht : Rewrites convertTabs line converted) :
    Rewrites convertOpening (line ++ ['\n']) (converted ++ ['\n']) := by
  have hcomments : Rewrites convertComments (line ++ ['\n']) (line ++ ['\n']) :=
    (hc.rewrites (by decide) needs_comment).append (rewrites_of_not_mem needs_comment (by decide))
  have htabs : Rewrites convertTabs (line ++ ['\n']) (converted ++ ['\n']) :=
    ht.append (rewrites_convertTabs (.inl (by decide)))
  exact ((rewrites_stripPlatformImports hone himport).comp hcomments).comp htabs

/-! ## Items without admonitions -/

/-- **A quiet line**: no fence, and no image that a reference stands for. -/
structure IsQuiet (line : Text) : Prop where
  oneLine : '\n' ∉ line
  noFence : fence? line = none
  noImage : ¬ "![".toList <:+: line

/-- **A source that becomes quiet lines** and then, piece by piece, its translation. -/
def Staged (s s' : Text) : Prop :=
  ∃ ls : List Text, (∀ line ∈ ls, IsQuiet line) ∧ Rewrites convertOpening s (rows ls) ∧
    Piecewise convertRest (rows ls) s'

theorem isQuiet_of_opens {tag : Text} (h : Opens '<' tag) (hone : '\n' ∉ tag) (hb : '[' ∉ tag) : IsQuiet tag := by
  refine ⟨hone, ?_, fun hi => hb (hi.subset (by decide))⟩
  obtain ⟨tail, rfl⟩ := List.head?_eq_some_iff.1 h.head
  rfl

theorem piecewise_of_plain {s : Text} (h : '<' ∉ s) : Piecewise convertRest s s :=
  .of_chars fun _ hc => rewrites_convertRest fun hm => h (List.mem_singleton.1 hm ▸ hc)

theorem not_import_of_opens {line : Text} (h : Opens '<' line) : ¬ "import".toList <+: line := by
  obtain ⟨tail, rfl⟩ := List.head?_eq_some_iff.1 h.head
  exact fun hp => absurd (List.cons_prefix_cons.1 hp).1 (by decide)

theorem staged_text (line : PlainLine) : Staged (line.text ++ ['\n']) (line.text ++ ['\n']) := by
  have hquiet : ∀ l ∈ [line.text], IsQuiet l := fun l hl =>
    List.mem_singleton.1 hl ▸ ⟨line.oneLine, fence?_eq_none line.noFence, line.noImage⟩
  refine ⟨[line.text], hquiet, ?_, ?_⟩
  · rw [rows_singleton]
    exact rewrites_convertOpening line.oneLine line.noImport (.inl line.noTag) (rewrites_convertTabs (.inl line.noTag))
  · rw [rows_singleton]
    refine piecewise_of_plain fun hm => ?_
    rcases List.mem_append.1 hm with hm | hm
    · exact line.noTag hm
    · exact absurd hm (by decide)

theorem staged_image (name : ImageName) :
    Staged (imageTag name.text ++ ['\n']) ("![Image](/images/".toList ++ name.text ++ ")\n".toList) := by
  have hopens := opens_imageTag name
  have hone : '\n' ∉ imageTag name.text := by
    unfold imageTag
    rw [List.mem_append, List.mem_append, not_or, not_or]
    exact ⟨⟨by decide, fun hm => absurd (name.clean _ hm).2.1 (by decide)⟩, by decide⟩
  have hbracket : '[' ∉ imageTag name.text := by
    unfold imageTag
    rw [List.mem_append, List.mem_append, not_or, not_or]
    exact ⟨⟨by decide, name.not_mem (by decide)⟩, by decide⟩
  have hdiffer : ∀ key ∈ "!--".toList :: tabNames, Differ ('<' :: key) (imageTag name.text) := fun key hk =>
    (((by decide : ∀ key ∈ "!--".toList :: tabNames, Differ ('<' :: key) "<img src=\"/img/".toList) key hk).append
      _).append _
  have hquiet : ∀ l ∈ [imageTag name.text], IsQuiet l := fun l hl =>
    List.mem_singleton.1 hl ▸ isQuiet_of_opens hopens hone hbracket
  have hclear : ∀ {names}, names ⊆ "!--".toList :: tabNames → Clear names (imageTag name.text) := fun hsub =>
    .inr ⟨hopens, fun key hk => hdiffer key (hsub hk)⟩
  refine ⟨[imageTag name.text], hquiet, ?_, ?_⟩
  · rw [rows_singleton]
    exact rewrites_convertOpening hone (not_import_of_opens hopens) (hclear (by simp))
      (rewrites_convertTabs (hclear (List.subset_cons_self _ _)))
  · have hsolid : Solid (imageTag name.text) := Solid.around ⟨by decide, by decide⟩ ⟨by decide, by decide⟩ _
    have hsolid' : Solid ("![Image](/images/".toList ++ name.text ++ [')']) :=
      Solid.around ⟨by decide, by decide⟩ ⟨by decide, by decide⟩ _
    have hshape : "![Image](/images/".toList ++ name.text ++ ")\n".toList =
        "![Image](/images/".toList ++ name.text ++ [')'] ++ ['\n'] := by simp
    rw [rows_singleton, hshape]
    exact (Piecewise.of_solid (rewrites_image name) hsolid hsolid').append (piecewise_of_plain (by decide))

/-- **A tag that is set on a paragraph of its own.** -/
theorem staged_tag {line tag : Text} (hl : Opens '<' line) (hone : '\n' ∉ line) (hc : Differ ('<' :: "!--".toList) line)
    (ht : Rewrites convertTabs line (paragraph tag)) (hq : IsQuiet tag) (hs : Solid tag)
    (hr : Rewrites convertRest tag tag) : Staged (line ++ ['\n']) (paragraph tag ++ ['\n']) := by
  have hrows : rows [[], [], tag, [], []] = paragraph tag ++ ['\n'] := by simp [rows, paragraph]
  have hempty : IsQuiet [] := ⟨by decide, by decide, by decide⟩
  refine ⟨[[], [], tag, [], []], ?_, ?_, ?_⟩
  · simpa using ⟨hempty, hq, hempty⟩
  · rw [hrows]
    refine rewrites_convertOpening hone (not_import_of_opens hl) (.inr ⟨hl, ?_⟩) ht
    simpa using hc
  · rw [hrows]
    have hplain : Piecewise convertRest "\n\n".toList "\n\n".toList := piecewise_of_plain (by decide)
    exact ((hplain.append (.of_solid hr hs hs)).append hplain).append (piecewise_of_plain (by decide))

theorem Staged.append {s s' t t' : Text} : Staged s s' → Staged t t' → Staged (s ++ t) (s' ++ t') := by
  rintro ⟨ls, hls, hs, hp⟩ ⟨ms, hms, ht, hq⟩
  refine ⟨ls ++ ms, fun line hl => (List.mem_append.1 hl).elim (hls line) (hms line), ?_, ?_⟩
  · rw [rows_append]
    exact hs.append ht
  · rw [rows_append]
    exact hp.append hq

theorem staged_openTabs : Staged "<Tabs>\n".toList "\n\n<Tabs>\n\n\n".toList := by
  have hsource : "<Tabs>\n".toList = "<Tabs>".toList ++ ['\n'] := by decide
  have hshape : "\n\n<Tabs>\n\n\n".toList = paragraph "<Tabs>".toList ++ ['\n'] := by decide
  have hopens : Opens '<' "<Tabs>".toList := ⟨by decide, by decide⟩
  rw [hsource, hshape]
  exact staged_tag hopens (by decide) (by decide) rewrites_openTabs (isQuiet_of_opens hopens (by decide) (by decide))
    ⟨by decide, by decide⟩ (rewrites_convertRest_of_opens hopens (by decide) fun _ => rfl)

theorem staged_closeTabs : Staged "</Tabs>\n".toList "\n\n</Tabs>\n\n\n".toList := by
  have hsource : "</Tabs>\n".toList = "</Tabs>".toList ++ ['\n'] := by decide
  have hshape : "\n\n</Tabs>\n\n\n".toList = paragraph "</Tabs>".toList ++ ['\n'] := by decide
  have hopens : Opens '<' "</Tabs>".toList := ⟨by decide, by decide⟩
  rw [hsource, hshape]
  exact staged_tag hopens (by decide) (by decide) rewrites_closeTabs (isQuiet_of_opens hopens (by decide) (by decide))
    ⟨by decide, by decide⟩ (rewrites_convertRest_of_opens hopens (by decide) fun _ => rfl)

theorem staged_closePane : Staged "</TabItem>\n".toList "\n\n</Tab>\n\n\n".toList := by
  have hsource : "</TabItem>\n".toList = "</TabItem>".toList ++ ['\n'] := by decide
  have hshape : "\n\n</Tab>\n\n\n".toList = paragraph "</Tab>".toList ++ ['\n'] := by decide
  have hopens : Opens '<' "</Tab>".toList := ⟨by decide, by decide⟩
  rw [hsource, hshape]
  exact staged_tag ⟨by decide, by decide⟩ (by decide) (by decide) rewrites_closePane
    (isQuiet_of_opens hopens (by decide) (by decide)) ⟨by decide, by decide⟩
    (rewrites_convertRest_of_opens hopens (by decide) fun _ => rfl)

theorem staged_openPane (value label : Caption) : Staged (tabItemTag value.text label.text ++ ['\n'])
    ("\n\n<Tab title=\"".toList ++ label.text ++ "\">\n\n\n".toList) := by
  have hshape : "\n\n<Tab title=\"".toList ++ label.text ++ "\">\n\n\n".toList =
      paragraph (tabTag label.text) ++ ['\n'] := by
    unfold paragraph tabTag
    simp
  have hone : '\n' ∉ tabItemTag value.text label.text := by
    unfold tabItemTag
    simp only [List.mem_append, not_or]
    exact ⟨⟨⟨⟨by decide, value.not_mem (by decide)⟩, by decide⟩, label.not_mem (by decide)⟩, by decide⟩
  have hplain : ∀ {c : Char}, c ∉ "<Tab title=\"".toList → c ∈ "<>[:=\n".toList → c ∉ "\">".toList →
      c ∉ tabTag label.text := by
    intro c hstart hcaption hend
    unfold tabTag
    rw [List.mem_append, List.mem_append, not_or, not_or]
    exact ⟨⟨hstart, label.not_mem hcaption⟩, hend⟩
  have hopens : Opens '<' (tabTag label.text) := opens_tabTag (label.not_mem (by decide))
  have hquiet : IsQuiet (tabTag label.text) := isQuiet_of_opens hopens
    (hplain (by decide) (by decide) (by decide)) (hplain (by decide) (by decide) (by decide))
  have hcomment : Differ ('<' :: "!--".toList) "<TabItem value=\"".toList := by decide
  have hrest : ∀ name ∈ restNames, Differ ('<' :: name) "<Tab title=\"".toList := by decide
  have hkept : Rewrites convertRest (tabTag label.text) (tabTag label.text) :=
    rewrites_convertRest_of_opens hopens (fun name hn => ((hrest name hn).append _).append _) fun _ => rfl
  rw [hshape]
  exact staged_tag (opens_tabItemTag value label) hone ((((hcomment.append _).append _).append _).append _)
    (rewrites_openPane value label) hquiet (Solid.around ⟨by decide, by decide⟩ ⟨by decide, by decide⟩ _)
    hkept

theorem staged_compositional : Compositional Staged where
  nil := ⟨[], by simp, .nil _, .nil⟩
  append := .append
  text := staged_text
  image := staged_image
  openTabs := staged_openTabs
  closeTabs := staged_closeTabs
  openPane := staged_openPane
  closePane := staged_closePane

/-! ## Pages -/

theorem rewrites_redirectImages {s : Text} (h : '!' ∉ s) : Rewrites redirectImages s s :=
  rewrites_of_not_mem (show Needs ('!' :: ['[']) _ from needs_markdownReference) h

theorem rewrites_redirectImages_line {s : Text} (h : ¬ "![".toList <:+: s) :
    Rewrites redirectImages (s ++ ['\n']) (s ++ ['\n']) :=
  rewrites_of_not_within needs_markdownReference (by decide) (by decide) h

theorem rewrites_redirectImages_rows : ∀ {ls : List Text}, (∀ line ∈ ls, IsQuiet line) →
    Rewrites redirectImages (rows ls) (rows ls)
  | [], _ => .nil _
  | line :: ls, h => by
    have hrows : rows (line :: ls) = line ++ ['\n'] ++ rows ls := by simp [rows]
    rw [hrows]
    exact (rewrites_redirectImages_line (h line List.mem_cons_self).noImage).append
      (rewrites_redirectImages_rows fun l hl => h l (List.mem_cons_of_mem line hl))

theorem rows_noImage : ∀ {ls : List Text}, (∀ line ∈ ls, IsQuiet line) → ¬ "![".toList <:+: rows ls
  | [], _ => by decide
  | line :: ls, h => fun hi => by
    rw [rows_cons] at hi
    rcases infix_of_infix_append (by decide) hi with hi | hi
    · exact (h line List.mem_cons_self).noImage hi
    · exact rows_noImage (fun l hl => h l (List.mem_cons_of_mem line hl)) hi

theorem rewrites_convertMarkup {s s₁ s₂ s₃ s₄ : Text} (h₁ : Rewrites convertOpening s s₁)
    (h₂ : Rewrites convertAdmonitions s₁ s₂) (h₃ : Rewrites redirectImages s₂ s₃) (h₄ : Rewrites convertRest s₃ s₄) :
    Rewrites convertMarkup s s₄ := fun rest => by
  rw [convertMarkup_eq, convertMarkup_eq]
  exact (((h₁.comp h₂).comp h₃).comp h₄) rest

theorem Staged.rewrites {s s' : Text} : Staged s s' → Rewrites convertMarkup s s' := by
  rintro ⟨ls, hquiet, hopening, hrest⟩
  have hkept : Rewrites convertAdmonitions (rows ls) (rows ls) :=
    rewrites_rows (fun l hl => (hquiet l hl).oneLine) fun l hl => opening?_eq_none (hquiet l hl).noFence
  exact rewrites_convertMarkup hopening hkept (rewrites_redirectImages_rows hquiet) hrest.rewrites

/-! ## Admonitions -/

/-- **The components that admonitions become.** -/
def componentNames : List Text := ["Info", "Note", "Tip", "Warning"].map String.toList

theorem admonitionTag_mem (kind : Text) : admonitionTag kind ∈ componentNames := by
  unfold admonitionTag
  cases h : calloutTags.lookup (lower kind) with
  | none => decide
  | some tag =>
    obtain ⟨before, after, hsplit, _⟩ := List.lookup_eq_some_iff.1 h
    have hmem : (lower kind, tag) ∈ calloutTags := by simp [hsplit]
    have hall : ∀ t ∈ calloutTags, t.2 ∈ componentNames := by decide
    exact hall _ hmem

theorem rewrites_component {tag : Text} (h : tag ∈ componentNames) :
    Rewrites convertRest ('<' :: tag ++ ['>']) ('<' :: tag ++ ['>']) ∧
      Rewrites convertRest ("</".toList ++ tag ++ ['>']) ("</".toList ++ tag ++ ['>']) := by
  simp only [componentNames, List.map_cons, List.map_nil, List.mem_cons, List.not_mem_nil, or_false] at h
  rcases h with rfl | rfl | rfl | rfl <;>
    exact ⟨rewrites_convertRest_of_opens ⟨by decide, by decide⟩ (by decide) fun _ => rfl,
      rewrites_convertRest_of_opens ⟨by decide, by decide⟩ (by decide) fun _ => rfl⟩

/-- **The conversions of images** leave the components of admonitions alone. -/
theorem rewrites_redirectImages_callout {tag body : Text} (ht : tag ∈ componentNames) (hb : ¬ "![".toList <:+: body) :
    Rewrites redirectImages (callout tag body ++ ['\n']) (callout tag body ++ ['\n']) := by
  have hplain : ∀ tag ∈ componentNames, '!' ∉ paragraph ('<' :: tag ++ ['>']) ∧
      '!' ∉ '\n' :: ("</".toList ++ tag ++ ['>'] ++ "\n\n\n".toList) := by decide
  have hshape : callout tag body ++ ['\n'] = paragraph ('<' :: tag ++ ['>']) ++ (trim body ++ ['\n']) ++
      '\n' :: ("</".toList ++ tag ++ ['>'] ++ "\n\n\n".toList) := by
    unfold callout paragraph
    simp
  rw [hshape]
  exact ((rewrites_redirectImages (hplain tag ht).1).append (rewrites_redirectImages_line fun hi =>
    hb (hi.trans (trim_within body)))).append (rewrites_redirectImages (hplain tag ht).2)

/-- **The last conversions** rewrite the inside of a callout, trimmed. -/
theorem rewrites_convertRest_callout {tag body body' : Text} (ht : tag ∈ componentNames)
    (hb : Piecewise convertRest body body') :
    Rewrites convertRest (callout tag body ++ ['\n']) (callout tag body' ++ ['\n']) := by
  have hplain : Rewrites convertRest "\n\n".toList "\n\n".toList := rewrites_convertRest (by decide)
  have hend : Rewrites convertRest ['\n'] ['\n'] := rewrites_convertRest (by decide)
  obtain ⟨hopen, hclose⟩ := rewrites_component ht
  exact (((rewrites_paragraph hplain hopen).append hb.trim.rewrites).append (rewrites_paragraph hplain hclose)).append
    hend

/-! ## Admonitions -/

theorem translation_ne_nil (item : Item Empty) : item.translation Empty.elim ≠ [] := by
  cases item with
  | text line => exact List.append_ne_nil_of_right_ne_nil _ (by decide)
  | image name => exact List.append_ne_nil_of_right_ne_nil _ (by decide)
  | admonition block => exact block.elim
  | tabs panes => exact List.append_ne_nil_of_right_ne_nil _ (by decide)

/-- **A fence** is converted with the admonition only. -/
theorem rewrites_fence {line : Text} (hone : '\n' ∉ line) (hf : ":::".toList <+: line) (htag : '<' ∉ line) :
    Rewrites convertOpening (line ++ ['\n']) (line ++ ['\n']) := by
  have himport : ¬ "import".toList <+: line := fun hi => by
    obtain ⟨rest, rfl⟩ := hf
    exact absurd (List.cons_prefix_cons.1 hi).1 (by decide)
  exact rewrites_convertOpening hone himport (.inl htag) (rewrites_convertTabs (.inl htag))

theorem opening?_of_kind (kind : Kind) : opening? (":::".toList ++ kind.text) = some kind.text := by
  have hfence : fence? (":::".toList ++ kind.text) = some kind.text := rfl
  rw [opening?, hfence, Option.map_some, List.takeWhile_eq_self_iff.2 kind.letters]

/-- **An admonition becomes the translation of its items** in the component of its kind. -/
theorem rewrites_source (a : Admonition) : Rewrites convertMarkup a.source a.translation := by
  obtain ⟨ls, hquiet, hopening, hrest⟩ := @Compositional.items _ _ Empty.elim Empty.elim staged_compositional
    (fun b => b.elim) (a.first :: a.rest)
  have hne : ls ≠ [] := by
    rintro rfl
    have hnil := hrest.eq_nil_iff.1 rfl
    exact translation_ne_nil a.first (List.append_eq_nil_iff.1 hnil).1
  have hfence : ∀ {c : Char}, c ∉ ":::".toList → ¬ c.isAlpha = true → c ∉ ":::".toList ++ a.kind.text := by
    intro c hcolon halpha hm
    rcases List.mem_append.1 hm with hm | hm
    · exact hcolon hm
    · exact halpha (a.kind.letters c hm)
  have hline : '\n' ∉ ":::".toList ++ a.kind.text := hfence (by decide) (by decide)
  have hfenced : Rewrites convertOpening a.source (rows ((":::".toList ++ a.kind.text) :: (ls ++ [":::".toList]))) := by
    have hstart := rewrites_fence hline (List.prefix_append _ _) (hfence (by decide) (by decide))
    have hend : Rewrites convertOpening (":::".toList ++ ['\n']) (":::".toList ++ ['\n']) :=
      rewrites_fence (by decide) (List.prefix_refl _) (by decide)
    have hrows : rows ((":::".toList ++ a.kind.text) :: (ls ++ [":::".toList])) =
        ":::".toList ++ a.kind.text ++ ['\n'] ++ rows ls ++ (":::".toList ++ ['\n']) := by
      rw [rows_cons, rows_append, rows_singleton, List.append_cons, List.append_assoc _ (rows ls)]
    rw [hrows]
    exact (hstart.append hopening).append hend
  have hone : ∀ line ∈ (":::".toList ++ a.kind.text) :: (ls ++ [":::".toList]), '\n' ∉ line := by
    intro line hl
    rcases List.mem_cons.1 hl with rfl | hl
    · exact hline
    · rcases List.mem_append.1 hl with hl | hl
      · exact (hquiet line hl).oneLine
      · exact List.mem_singleton.1 hl ▸ by decide
  have hadmonition := rewrites_admonition (opening?_of_kind a.kind) hne
    (fun line hl => isClosing_eq_false (hquiet line hl).noFence) (by decide) hone
  have htag := admonitionTag_mem a.kind.text
  have htranslation : a.translation = callout (admonitionTag a.kind.text)
      (translationOfItems Empty.elim (a.first :: a.rest)) ++ ['\n'] := by
    unfold Admonition.translation callout paragraph
    simp
  rw [htranslation]
  exact rewrites_convertMarkup hfenced hadmonition (rewrites_redirectImages_callout htag (rows_noImage hquiet))
    (rewrites_convertRest_callout htag hrest)

/-- **Markup rewriting is a compositional translation.**  The markup of a page is converted to its translation. -/
theorem convertMarkup_source (page : Page) : convertMarkup page.source = page.translation := by
  have h : Compositional (Rewrites convertMarkup) := staged_compositional.weaken (fun _ _ => Staged.rewrites) .append
  exact (h.items rewrites_source page).eq (by decide)

example : convertMarkup ":::tip\n<img src=\"/img/a.png\" />\n:::\n".toList =
    "\n\n<Tip>\n\n![Image](/images/a.png)\n\n</Tip>\n\n\n".toList := by decide +kernel

end DocFerry.Markup
