import DocFerry.Proofs.Markup.Images
/-!
# References to images in a document

A document refers to its images in several shapes, with plain text between the references.  Every conversion of images
keeps the text up to the next reference, at which it leaves a reference (`Passes`), and rewrites that reference whatever
follows it (`ImageReference.rewrites`): no reference runs into another, however many there are and in whatever order
(`canonicalizeImages_source`).
-/
namespace DocFerry.Markup

open Text

/-- **The source text of an image.** -/
def imageSource (alt target : Text) : Text := "![".toList ++ alt ++ "](".toList ++ target ++ [')']

/-- **The text of an image.** -/
structure AltText where
  text : Text
  clean : ∀ c ∈ text, c ∉ "[]<".toList

/-- **An address outside the site.** -/
structure Address where
  text : Text
  isExternal : "http".toList <+: text
  clean : ∀ c ∈ text, c ∉ "[<".toList

/-- **A reference to an image**: to an asset, as an image or in a tag, or to an address. -/
inductive ImageReference where
  | image (alt : AltText) (path : AssetPath)
  | tag (tag : ImageTag)
  | external (alt : AltText) (address : Address)

namespace ImageReference

def source : ImageReference → Text
  | .image alt path => imageSource alt.text path.text
  | .tag t => t.source
  | .external alt address => imageSource alt.text address.text

/-- **The reference after the move**, to the path of the asset below the folder of all images. -/
def translation : ImageReference → Text
  | .image alt path => imageSource alt.text ("/images/".toList ++ path.name.text)
  | .tag t => imageSource "Image".toList ("/images/".toList ++ t.path.name.text)
  | .external alt address => imageSource alt.text address.text

end ImageReference

/-- **Text between references.** -/
structure PlainPiece where
  text : Text
  noImage : ¬ "![".toList <:+: text
  noTag : ¬ "<img".toList <:+: text

/-- **A document with references to images**, each with the plain text behind it. -/
structure ImageDocument where
  first : PlainPiece
  rest : List (ImageReference × PlainPiece)

namespace ImageDocument

def source (d : ImageDocument) : Text := d.first.text ++ d.rest.flatMap fun p => p.1.source ++ p.2.text

def translation (d : ImageDocument) : Text := d.first.text ++ d.rest.flatMap fun p => p.1.translation ++ p.2.text

end ImageDocument

/-! ## Text up to the next reference -/

/-- **Where a reference may begin**, or the end of the text. -/
def AtReference (s : Text) : Prop := ∀ c ∈ s.head?, c ∈ ['!', '<']

/-- **A text is passed over** up to the next reference, which is again at the beginning of one. -/
def Passes (f : Text → Text) (s : Text) : Prop :=
  ∀ rest, AtReference rest → AtReference (f rest) ∧ f (s ++ rest) = s ++ f rest

theorem Passes.comp {f g : Text → Text} {s : Text} (h : Passes f s) (k : Passes g s) : Passes (fun x => g (f x)) s := by
  intro rest hr
  obtain ⟨hf, he⟩ := h rest hr
  obtain ⟨hg, hk⟩ := k (f rest) hf
  exact ⟨hg, by rw [← hk, ← he]⟩

/-- **A matcher that writes images** for what it finds. -/
def WritesImage (m : Matcher) : Prop := ∀ s written rest, m s = some (written, rest) → written.head? = some '!'

theorem writesImage_markdownReference :
    WritesImage fun t => (markdownReference? t).map fun r => (markdownImage r.1 r.2.1, r.2.2) := by
  intro s written rest hs
  obtain ⟨found, -, he⟩ := Option.map_eq_some_iff.1 hs
  cases he
  rfl

theorem writesImage_tagImage (shape : SourceShape) : WritesImage shape.tagImage := by
  intro s written rest hs
  obtain ⟨target, rfl⟩ := exists_target_of_tagImage hs
  rfl

theorem atReference_substitute {m : Matcher} (hw : WritesImage m) {s : Text} (hs : AtReference s) :
    AtReference (substitute m s) := by
  cases s with
  | nil => exact hs
  | cons c s =>
    cases hm : m (c :: s) with
    | none =>
      rw [substitute_cons_of_none hm]
      exact hs
    | some found =>
      obtain ⟨more, hmore⟩ := substitute_cons_of_some hm
      obtain ⟨written, hwritten⟩ := List.head?_eq_some_iff.1 (hw _ _ _ hm)
      rw [hmore, hwritten]
      intro a ha
      obtain rfl : '!' = a := by simpa using ha
      decide

theorem passes_substitute {m : Matcher} {key s : Text} (hm : Needs key m) (hw : WritesImage m)
    (hkey : ∀ c ∈ ['!', '<'], c ∉ key.tail) (h : ¬ key <:+: s) : Passes (substitute m) s := fun _ hr =>
  ⟨atReference_substitute hw hr, substitute_append_of_not_within hm (fun a ha => hkey a (hr a ha)) h⟩

theorem PlainPiece.passes (p : PlainPiece) : Passes canonicalizeImages p.text := by
  have himage : Passes redirectImages p.text :=
    passes_substitute needs_markdownReference writesImage_markdownReference (by decide) p.noImage
  have hshape : ∀ shape : SourceShape, Passes (substitute shape.tagImage) p.text := fun shape =>
    passes_substitute (needs_tagImage shape) (writesImage_tagImage shape) (by decide) p.noTag
  exact ((himage.comp (hshape _)).comp (hshape _)).comp (hshape _)

/-! ## A reference -/

theorem imageSource_root (alt target : Text) : imageSource alt ("/images/".toList ++ target) = markdownImage alt target := by
  unfold imageSource markdownImage imageRoot
  simp only [List.append_assoc]

theorem imageSource_append (alt target rest : Text) :
    imageSource alt target ++ rest = "![".toList ++ (alt ++ ']' :: '(' :: (target ++ ')' :: rest)) := by
  have hmid : "](".toList = [']', '('] := by decide
  unfold imageSource
  simp only [hmid, List.append_assoc, List.cons_append, List.nil_append]

theorem lt_not_mem_imageSource {alt target : Text} (ha : '<' ∉ alt) (ht : '<' ∉ target) : '<' ∉ imageSource alt target := by
  simp only [imageSource, List.mem_append, not_or]
  exact ⟨⟨⟨⟨by decide, ha⟩, by decide⟩, ht⟩, by decide⟩

theorem trimTarget_of_no_blank {s : Text} (h : ∀ c ∈ s, isBlank c = false) : trimTarget s = s := by
  cases s with
  | nil => rfl
  | cons c s => rw [trimTarget, trimEnd_of_no_blank fun a ha => h a (List.mem_cons_of_mem c ha)]

namespace AltText

variable (alt : AltText)

/-- **An image of an asset** is led to the path of the asset. -/
theorem rewrites_redirectImages (path : AssetPath) :
    Rewrites redirectImages (imageSource alt.text path.text)
      (imageSource alt.text ("/images/".toList ++ path.name.text)) := by
  refine rewrites_of_match (by simp [imageSource]) fun rest => ?_
  have hlead := markdownReference?_lead path.lead path.isFolder (fun hc => alt.clean _ hc (by decide))
    (path.name.not_mem (by decide)) path.name.nonempty rest
  rw [trimTarget_of_no_blank fun c hc => (path.name.clean c hc).2.1] at hlead
  rw [imageSource_append, AssetPath.text, List.append_assoc, hlead, imageSource_root]
  rfl

theorem markdownReference?_external (address : Address) (rest : Text) :
    markdownReference? (imageSource alt.text address.text ++ rest) = none := by
  obtain ⟨more, hmore⟩ := address.isExternal
  have hstart : after? "![".toList (imageSource alt.text address.text ++ rest) =
      some (alt.text ++ ']' :: '(' :: (address.text ++ ')' :: rest)) := after?_eq_some_iff.2 (imageSource_append _ _ _)
  have hcut : cutAt? [']'] (alt.text ++ ']' :: '(' :: (address.text ++ ')' :: rest)) =
      some (alt.text, '(' :: (address.text ++ ')' :: rest)) :=
    cutAt?_singleton ']' _ fun hc => alt.clean _ hc (by decide)
  have hparen : after? ['('] ('(' :: (address.text ++ ')' :: rest)) = some (address.text ++ ')' :: rest) :=
    after?_eq_some_iff.2 rfl
  have hpath : assetPath? (address.text ++ ')' :: rest) = none := by
    rw [← hmore]
    rfl
  unfold markdownReference?
  rw [hstart, Option.bind_some, hcut, Option.bind_eq_bind, Option.bind_some]
  dsimp only
  rw [hparen, Option.bind_some, hpath]
  rfl

/-- **An image outside the site** is kept: it leads into no asset folder, and no other image begins in it. -/
theorem rewrites_redirectImages_external (address : Address) :
    Rewrites redirectImages (imageSource alt.text address.text) (imageSource alt.text address.text) := by
  have hsplit : imageSource alt.text address.text =
      '!' :: ('[' :: (alt.text ++ "](".toList ++ address.text) ++ [')']) := by
    have hstart : "![".toList = ['!', '['] := by decide
    unfold imageSource
    simp only [hstart, List.cons_append, List.nil_append]
  have hbracket : '[' ∉ alt.text ++ "](".toList ++ address.text := by
    rw [List.mem_append, List.mem_append, not_or, not_or]
    exact ⟨⟨fun hc => alt.clean _ hc (by decide), by decide⟩, fun hc => address.clean _ hc (by decide)⟩
  have hwithin : ¬ "![".toList <:+: '[' :: (alt.text ++ "](".toList ++ address.text) := by
    intro h
    rcases List.infix_cons_iff.1 h with h | h
    · exact absurd (List.cons_prefix_cons.1 h).1 (by decide)
    · exact hbracket (h.subset (by decide))
  have hnone := markdownReference?_external alt address
  rw [hsplit] at hnone ⊢
  exact rewrites_cons (fun rest => by rw [← List.cons_append, hnone]; rfl)
    (rewrites_of_not_within needs_markdownReference (by decide) (by decide) hwithin)

end AltText

/-- **The tag of an image** holds no image of another kind. -/
theorem ImageTag.rewrites_redirectImages (tag : ImageTag) : Rewrites redirectImages tag.source tag.source := by
  have hmark : tag.mark ∉ "![".toList := fun hm =>
    tag.ne_mark ((by decide : ∀ c ∈ "![".toList, Markup.isQuote c = false) _ hm) rfl
  have hbefore : '!' ∉ "<img".toList ++ tag.before.text ++ ("src=".toList ++ tag.shape.opener) := by
    simp only [List.mem_append, not_or]
    exact ⟨⟨by decide, tag.before.not_mem (by decide)⟩, by simpa using tag.shape.not_mem_opener '!' (by decide)⟩
  have hafter : '!' ∉ tag.shape.closer ++ tag.after.text := by
    rw [List.mem_append, not_or]
    exact ⟨tag.shape.not_mem_closer _ (by decide), tag.after.not_mem (by decide)⟩
  have hsplit : tag.source = "<img".toList ++ tag.before.text ++ ("src=".toList ++ tag.shape.opener) ++
      tag.mark :: (tag.path.text ++ tag.mark :: (tag.shape.closer ++ tag.after.text)) ++ ['>'] := by
    rw [tag.source_eq, ImageTag.sourcePart]
    simp only [List.append_assoc]
  rw [hsplit]
  refine rewrites_of_not_within needs_markdownReference (by decide) (by decide) fun h => ?_
  -- No quotation mark is in the key, so the key is in one of the three parts between those of the path.
  rcases infix_of_infix_append hmark h with h | h
  · exact hbefore (h.subset (by decide))
  rcases infix_of_infix_append hmark h with h | h
  · exact tag.path.not_mem (by decide) (h.subset (by decide : '[' ∈ "![".toList))
  · exact hafter (h.subset (by decide))

/-- **A reference is rewritten** to its translation, whatever follows it. -/
theorem ImageReference.rewrites (r : ImageReference) : Rewrites canonicalizeImages r.source r.translation := by
  cases r with
  | image alt path =>
    have hplain : '<' ∉ imageSource alt.text ("/images/".toList ++ path.name.text) := by
      refine lt_not_mem_imageSource (fun hc => alt.clean _ hc (by decide)) fun hc => ?_
      rcases List.mem_append.1 hc with hc | hc
      · exact absurd hc (by decide)
      · exact path.name.not_mem (by decide) hc
    exact (alt.rewrites_redirectImages path).comp (rewrites_convertImageTags (.inl hplain))
  | tag tag =>
    rw [source, translation, imageSource_root]
    exact tag.rewrites_redirectImages.comp tag.rewrites
  | external alt address =>
    have hplain : '<' ∉ imageSource alt.text address.text :=
      lt_not_mem_imageSource (fun hc => alt.clean _ hc (by decide)) fun hc => address.clean _ hc (by decide)
    exact (alt.rewrites_redirectImages_external address).comp (rewrites_convertImageTags (.inl hplain))

theorem ImageReference.atReference (r : ImageReference) (rest : Text) : AtReference (r.source ++ rest) := by
  have hhead : r.source.head? = some '!' ∨ r.source.head? = some '<' := by
    cases r with
    | image alt path => exact .inl rfl
    | tag tag => exact .inr tag.opens.head
    | external alt address => exact .inl rfl
  intro c hc
  rcases hhead with hhead | hhead <;> rw [List.head?_append, hhead] at hc <;> cases hc <;> decide

/-! ## A document -/

theorem canonicalizeImages_pieces : ∀ pieces : List (ImageReference × PlainPiece),
    AtReference (pieces.flatMap fun p => p.1.source ++ p.2.text) ∧
      canonicalizeImages (pieces.flatMap fun p => p.1.source ++ p.2.text) =
        pieces.flatMap fun p => p.1.translation ++ p.2.text
  | [] => by
    refine ⟨fun c hc => ?_, rfl⟩
    cases hc
  | (r, p) :: pieces => by
    obtain ⟨hat, ih⟩ := canonicalizeImages_pieces pieces
    rw [List.flatMap_cons, List.flatMap_cons]
    refine ⟨?_, ?_⟩
    · rw [List.append_assoc]
      exact r.atReference _
    · rw [List.append_assoc, r.rewrites, (p.passes _ hat).2, ih, List.append_assoc]

/-- **Every reference to an image is rewritten by its shape**, and all that stands between them is kept. -/
theorem canonicalizeImages_source (d : ImageDocument) : canonicalizeImages d.source = d.translation := by
  obtain ⟨hat, hpieces⟩ := canonicalizeImages_pieces d.rest
  rw [ImageDocument.source, ImageDocument.translation, (d.first.passes _ hat).2, hpieces]

example : canonicalizeImages ("!![a](../img/b/c)<im<img src=\x7brequire('@site/static/img/d').default\x7d>".toList ++
    "![e](http://f/img/)!".toList) =
    "!![a](/images/b/c)<im![Image](/images/d)![e](http://f/img/)!".toList := by decide +kernel

end DocFerry.Markup
