import DocFerry.Proofs.Markup.ImageTags
/-!
# Images and the tags around them

The conversions that come after that of admonitions keep plain text (`rewrites_convertRest`) and the tags of tabs and
callouts (`rewrites_convertRest_of_opens`), and make the tag of an image in the old asset folder a reference to it
(`rewrites_image`).
-/
namespace DocFerry.Markup

open Text

/-- **References to images** led to where the images are after the move. -/
def redirectImages (s : Text) : Text :=
  substitute (fun t => (markdownReference? t).map fun r => (markdownImage r.1 r.2.1, r.2.2)) s

/-- **Image tags** as references. -/
def convertImageTags (s : Text) : Text := sourceShapes.foldl (fun s shape => substitute shape.tagImage s) s

/-- **The conversions from image tags on.** -/
def convertRest (s : Text) : Text := escapeBracketedTags (convertCards (convertImageTags s))

theorem convertMarkup_eq (s : Text) : convertMarkup s =
    convertRest (redirectImages (convertAdmonitions (convertTabs (convertComments (stripPlatformImports s))))) := by
  simp only [convertMarkup, conversions, List.foldl_cons, List.foldl_nil]
  unfold convertRest convertImageTags redirectImages canonicalizeImages
  rfl

/-! ## Pieces that stay -/

/-- **The tags that the last conversions look for.** -/
def restNames : List Text := ["img", "CardList", "/CardList>", "Card"].map String.toList

theorem rewrites_convertCards {s : Text} (h : Clear restNames s) : Rewrites convertCards s s :=
  ((h.rewrites (by decide) (needs_openTag "CardList".toList _)).comp
    (h.rewrites (by decide) (needs_literal "</CardList>".toList _))).comp
    (h.rewrites (by decide) needs_linkedCard)

theorem rewrites_convertImageTags {s : Text} (h : Clear restNames s) : Rewrites convertImageTags s s := by
  have hshape : ∀ shape : SourceShape, Rewrites (substitute shape.tagImage) s s := fun shape =>
    h.rewrites (by decide) (needs_tagImage shape)
  exact ((hshape _).comp (hshape _)).comp (hshape _)

theorem rewrites_convertRest {s : Text} (h : '<' ∉ s) : Rewrites convertRest s s :=
  ((rewrites_convertImageTags (.inl h)).comp (rewrites_convertCards (.inl h))).comp
    (rewrites_of_not_mem needs_bracketed h)

/-- **A tag** of another name is kept, if its name runs into no bracket. -/
theorem rewrites_convertRest_of_opens {s : Text} (h : Opens '<' s) (hd : ∀ name ∈ restNames, Differ ('<' :: name) s)
    (hb : ∀ rest, bracketed? (s ++ rest) = none) : Rewrites convertRest s s := by
  have hescape : Rewrites escapeBracketedTags s s := rewrites_of_opens needs_bracketed h fun rest => by rw [hb]; rfl
  exact ((rewrites_convertImageTags (.inr ⟨h, hd⟩)).comp (rewrites_convertCards (.inr ⟨h, hd⟩))).comp hescape

/-! ## The tag of an image -/

/-- **An image is written** for a tag of any shape. -/
theorem exists_target_of_tagImage {shape : SourceShape} {s written rest : Text}
    (h : shape.tagImage s = some (written, rest)) : ∃ target, written = markdownImage "Image".toList target := by
  obtain ⟨inner, -, h⟩ := Option.bind_eq_some_iff.1 h
  obtain ⟨⟨before, target, after⟩, -, he⟩ := Option.bind_eq_some_iff.1 h
  cases he
  exact ⟨target, rfl⟩

/-- **The tag of an image in any shape becomes a reference**: that shape is the only one it is recognised in. -/
theorem ImageTag.rewrites (tag : ImageTag) :
    Rewrites convertImageTags tag.source (markdownImage "Image".toList tag.path.name.text) := by
  have hplain : '<' ∉ markdownImage "Image".toList tag.path.name.text := by
    simp only [markdownImage, List.mem_append, not_or]
    exact ⟨⟨⟨⟨⟨by decide, by decide⟩, by decide⟩, by decide⟩, tag.path.name.not_mem (by decide)⟩, by decide⟩
  have hne : tag.source ≠ [] := fun he => absurd (he ▸ tag.opens.head) (by simp)
  have hmatch : Rewrites (substitute tag.shape.sourceShape.tagImage) tag.source
      (markdownImage "Image".toList tag.path.name.text) := rewrites_of_match hne tag.tagImage_source
  have hother : ∀ shape : TagShape, shape ≠ tag.shape →
      Rewrites (substitute shape.sourceShape.tagImage) tag.source tag.source := fun shape hs =>
    rewrites_of_opens (needs_tagImage _) tag.opens fun rest => tag.tagImage_other hs
  have hdone : ∀ shape : SourceShape, Rewrites (substitute shape.tagImage)
      (markdownImage "Image".toList tag.path.name.text) (markdownImage "Image".toList tag.path.name.text) :=
    fun shape => rewrites_of_not_mem (needs_tagImage shape) hplain
  cases hs : tag.shape with
  | quoted =>
    rw [hs] at hmatch
    exact (hmatch.comp (hdone _)).comp (hdone _)
  | required =>
    rw [hs] at hmatch
    exact ((hother .quoted (by simp [hs])).comp hmatch).comp (hdone _)
  | defaulted =>
    rw [hs] at hmatch
    exact ((hother .quoted (by simp [hs])).comp (hother .required (by simp [hs]))).comp hmatch

/-- **The tag of an image** in the old asset folder, as one of a shape. -/
def ImageTag.ofName (name : ImageName) : ImageTag where
  shape := .quoted
  before := ⟨[' '], by decide, by decide⟩
  mark := '"'
  path := ⟨⟨[], ['/'], false, false, by simp, .slash⟩, "img/".toList, name, by decide⟩
  after := ⟨" /".toList, by decide, by decide⟩
  before_head := by decide
  before_last := by decide
  isQuote := by decide

theorem ImageTag.source_ofName (name : ImageName) : (ImageTag.ofName name).source = imageTag name.text := by
  have hopen : "<img".toList ++ [' '] ++ "src=".toList ++ [] ++ ['"'] ++ ([] ++ ['/'] ++ ([] ++ [] ++ "img/".toList)) =
      "<img src=\"/img/".toList := by decide
  have hclose : ['"'] ++ [] ++ " /".toList ++ ['>'] = "\" />".toList := by decide
  unfold imageTag
  rw [← hopen, ← hclose]
  simp only [List.append_assoc]
  unfold source AssetPath.text Lead.reference Lead.place
  simp only [List.append_assoc]
  rfl

theorem opens_imageTag (name : ImageName) : Opens '<' (imageTag name.text) :=
  ImageTag.source_ofName name ▸ (ImageTag.ofName name).opens

/-- **The tag of an image becomes a reference.** -/
theorem rewrites_image (name : ImageName) :
    Rewrites convertRest (imageTag name.text) ("![Image](/images/".toList ++ name.text ++ [')']) := by
  have hplain : '<' ∉ "![Image](/images/".toList ++ name.text ++ [')'] := by
    rw [List.mem_append, List.mem_append, not_or, not_or]
    exact ⟨⟨by decide, name.not_mem (by decide)⟩, by decide⟩
  have himages : Rewrites convertImageTags (imageTag name.text) ("![Image](/images/".toList ++ name.text ++ [')']) := by
    rw [← ImageTag.source_ofName]
    exact (ImageTag.ofName name).rewrites
  exact (himages.comp (rewrites_convertCards (.inl hplain))).comp (rewrites_of_not_mem needs_bracketed hplain)

end DocFerry.Markup
