import DocFerry.Proofs.Markup.TidyImages
/-!
# Images that are converted again

Converting the references of a page a second time is meant to change nothing.  Without a tag of an image that is so of
every text, and with tags it is so of tidy ones (`canonicalizeImages_again`); other texts do change, since the path of a
tag keeps blanks that the path of an image loses (`canonicalizeImages_unsettled`).

The tags of each shape are converted in a pass of their own.  A pass leaves the images of a text settled
(`Settled.tags`) and its sources with paths that stay (`TidySources.tags`), no tag of its shape is left, and none of
another comes to light (`TidySources.untagged`).  So after all passes nothing is left to be found
(`settled_convertTagsOf`).
-/
namespace DocFerry.Markup

open Text

/-! ## Tags of one shape -/

/-- **What is sought in a tag** is found from where the tag opens. -/
theorem seekAttribute_of_tag {α : Type} {recognise : Text → Option α} {previous : Char} {inner : Text}
    (h : seekAttribute recognise previous ('<' :: ("img".toList ++ inner)) = none) :
    seekAttribute recognise 'g' inner = none := by
  have hname : "img".toList ++ inner = 'i' :: 'm' :: 'g' :: inner := rfl
  rw [hname] at h
  have hi := (seekAttribute_eq_none_iff.1 h).2 (by decide)
  have hm := (seekAttribute_eq_none_iff.1 hi).2 (by decide)
  have hg := (seekAttribute_eq_none_iff.1 hm).2 (by decide)
  exact (seekAttribute_eq_none_iff.1 hg).2 (by decide)

theorem tagImage_eq_none_iff {shape : SourceShape} {s : Text} : shape.tagImage s = none ↔
    ∀ inner, tagStart? "img".toList s = some inner → seekAttribute shape.source? 'g' inner = none := by
  unfold SourceShape.tagImage
  cases tagStart? "img".toList s with
  | none => simp
  | some inner =>
    cases hseek : seekAttribute shape.source? 'g' inner with
    | none => simp [hseek]
    | some found => simp [hseek]

theorem isWordChar_head {shape : SourceShape} {s : Text}
    (h : ∀ c ∈ (substitute shape.tagImage s).head?, isWordChar c = false) : ∀ c ∈ s.head?, isWordChar c = false := by
  cases s with
  | nil => simp
  | cons c s =>
    intro a ha
    obtain rfl : c = a := by simpa using ha
    cases hfound : shape.tagImage (c :: s) with
    | none =>
      rw [substitute_cons_of_none hfound] at h
      exact h c (by simp)
    | some found =>
      have hstart := needs_tagImage shape (c :: s) (by simp [hfound])
      rw [← (List.cons_prefix_cons.1 hstart).1]
      decide

/-- **A text without a tag of one shape.** -/
def Untagged (shape : SourceShape) (s : Text) : Prop := ∀ z, z <:+ s → shape.tagImage z = none

theorem Untagged.eq {shape : SourceShape} {s : Text} (h : Untagged shape s) : substitute shape.tagImage s = s :=
  substitute_of_none _ _ fun z hz _ => h z hz

theorem SettledWith.tags {shape : SourceShape} {front alt path : Text} (h : SettledWith (front ++ path) alt path) :
    SettledWith (front ++ substitute shape.tagImage path) alt (substitute shape.tagImage path) := by
  obtain ⟨target, rest, rfl, hparen, hclean, hsettled⟩ := h
  have hkept : substitute shape.tagImage (target ++ ')' :: rest) =
      target ++ ')' :: substitute shape.tagImage rest := by
    have hkey : ')' ∉ '<' :: "img".toList := by decide
    have hrewrites := rewrites_of_not_within (needs_tagImage shape) (by simp) hkey hclean rest
    simpa using hrewrites
  refine ⟨target, _, hkept, hparen, hclean, hsettled.imp_right fun ⟨he, htrim⟩ => ⟨?_, htrim⟩⟩
  have hfront : front = "![".toList ++ (alt ++ ']' :: '(' :: imageRoot) := by
    have hwhole : front ++ (target ++ ')' :: rest) =
        "![".toList ++ (alt ++ ']' :: '(' :: imageRoot) ++ (target ++ ')' :: rest) := by
      rw [he, markdownImage_append]
      simp
    exact List.append_cancel_right hwhole
  rw [hkept, hfront, markdownImage_append]
  simp

section

variable {shape : SourceShape} (hs : shape ∈ sourceShapes) {s : Text}

include hs

/-- **What is written for a tag** has a path that stays. -/
theorem TidySources.written {z written rest : Text} (h : TidySources s) (hz : z <:+ s)
    (hfound : shape.tagImage z = some (written, rest)) :
    ∃ target, TidyRun target ∧ (∀ c ∈ target, isQuote c = false) ∧ written = markdownImage "Image".toList target := by
  obtain ⟨z', path, target, mark, more, hz', hopening, hrun, -, rfl⟩ := tagImage_eq_some hfound
  exact ⟨target, h.tidy (hz'.trans hz) hs hopening (target, mark, more) hrun, (quotedRun?_eq_some hrun).2.2.2, rfl⟩

/-- **Converting tags leaves sources** with paths that stay. -/
theorem TidySources.tags (h : TidySources s) : TidySources (substitute shape.tagImage s) := by
  have hm := findsImages_tagImage hs
  intro z hz other hother path hopening
  rcases suffix_substitute hm.consumes ((List.mem_tails _ _).1 hz) with ⟨r, hr, rfl⟩ | hwithin
  · obtain ⟨path', hpath, rfl⟩ := hm.sourceOpening? hother hopening
    exact hm.tidySource (by decide) (h.tidy hr hother hpath)
  -- What is written for a tag has no quotation mark, so no source begins in it.
  · obtain ⟨r, written, rest, u, hr, hfound, hu, hne, rfl⟩ := hwithin
    obtain ⟨target, -, hplain, rfl⟩ := h.written hs hr hfound
    obtain ⟨start, hstart, hkey, -⟩ := sourceKey_within hother hu hne hopening
    obtain ⟨c, hc, hquote⟩ := hstart.quote
    have hmem := (mem_tagImage (hu.subset (hkey.subset hc))).resolve_right (not_mem_imageFrame hquote)
    rw [hplain c hmem] at hquote
    cases hquote

/-- **Converting tags leaves images settled.** -/
theorem Settled.tags (h : Settled s) (ht : TidySources s) : Settled (substitute shape.tagImage s) := by
  have hm := findsImages_tagImage hs
  have himage : ']' ∉ "Image".toList := by decide
  intro z hz
  rcases suffix_substitute hm.consumes hz with ⟨r, hr, rfl⟩ | ⟨r, written, rest, u, hr, hfound, hu, hne, rfl⟩
  · cases hfound : shape.tagImage r with
    | some found =>
      obtain ⟨written, rest⟩ := found
      obtain ⟨target, hrun, -, rfl⟩ := ht.written hs hr hfound
      rw [substitute_of_some hm.consumes hfound]
      exact hrun.settledAt himage _
    | none =>
      intro alt path hopening
      rcases hm.imageOpening? hfound hopening with ⟨front, path', rfl, hpath, he, rfl⟩ | hwritten
      · rw [he]
        exact (h _ hr alt path' hpath).tags
      -- The text of the image runs into what is written for the first tag.
      · obtain ⟨kept, found, alt', target, rest, rfl, hkept, halt', hfound', he⟩ := hwritten
        have hinner : found <:+ s :=
          ((List.suffix_append kept found).trans (List.suffix_append _ _)).trans hr
        obtain ⟨target', hrun, -, hwritten⟩ := ht.written hs hinner hfound'
        obtain rfl := markdownImage_inj halt' himage hwritten
        have halt := (imageOpening?_eq_some_iff.1 hopening).1
        rw [he] at hopening ⊢
        exact hrun.settledAt halt _ alt path hopening
  · obtain ⟨target, hrun, -, rfl⟩ := ht.written hs hr hfound
    exact settledAt_suffix hu hne (hrun.clean _ (by decide)) fun alt' hsuffix =>
      hrun.settledAt (fun hc => himage (hsuffix.subset hc)) _

variable {other : SourceShape} (ho : other ∈ sourceShapes)

include ho

theorem TidySources.source?_eq_none {z : Text} (h : TidySources s) (hz : z <:+ s) (hn : other.source? z = none) :
    other.source? (substitute shape.tagImage z) = none := by
  have hm := findsImages_tagImage hs
  have hplain : ∀ shape ∈ sourceShapes, '!' ∉ shape.closer := by
    simp only [sourceShapes, List.forall_mem_cons]
    decide
  cases hsource : other.source? (substitute shape.tagImage z) with
  | none => rfl
  | some found =>
    rw [source?_eq] at hsource
    obtain ⟨path, hopening, hsource⟩ := Option.bind_eq_some_iff.1 hsource
    obtain ⟨⟨run, mark, more⟩, hrun, hsource⟩ := Option.bind_eq_some_iff.1 hsource
    obtain ⟨⟨attributes, rest⟩, hend, -⟩ := Option.map_eq_some_iff.1 hsource
    obtain ⟨left, hleft, hend⟩ := Option.bind_eq_some_iff.1 hend
    obtain ⟨path', hpath, rfl⟩ := hm.sourceOpening? ho hopening
    have htidy := h.tidy hz ho hpath
    have hclean : ∀ run mark more, quotedRun? path' = some (run, mark, more) → ¬ '<' :: "img".toList <:+: run :=
      fun run mark more hrun => (htidy (run, mark, more) hrun).clean _ (by decide)
    obtain ⟨more', hrun', rfl⟩ := hm.quotedRun? (by simp) (by decide) hclean hrun
    obtain ⟨left', rfl, rfl⟩ := hm.start (hplain other ho) (after?_eq_some_iff.1 hleft)
    have hclosed : '>' ∈ left' := hm.mem (tagEnd?_eq_some hend ▸ by simp) (by decide)
    obtain ⟨attributes', rest', rfl, hfirst⟩ := List.eq_append_cons_of_mem hclosed
    rw [source?_eq, hpath, Option.bind_some, hrun', Option.bind_some] at hn
    dsimp only at hn
    rw [after?_eq_some_iff.2 rfl, Option.bind_some, tagEnd?, cutAt?_singleton '>' rest' hfirst] at hn
    cases hn

/-- **No source comes to light in a tag** that has none of either shape. -/
theorem TidySources.seek_eq_none (h : TidySources s) : ∀ {previous : Char} {z : Text}, z <:+ s →
    seekAttribute shape.source? previous z = none → seekAttribute other.source? previous z = none →
      seekAttribute other.source? previous (substitute shape.tagImage z) = none
  | _, [], _, _, _ => rfl
  | previous, c :: z, hz, hshape, hother => by
    have hnone : shape.tagImage (c :: z) = none := by
      rw [tagImage_eq_none_iff]
      intro inner hinner
      rw [(tagStart?_eq_some hinner).1] at hshape
      exact seekAttribute_of_tag hshape
    rw [seekAttribute_eq_none_iff] at hshape hother
    rw [substitute_cons_of_none hnone, seekAttribute_eq_none_iff, ← substitute_cons_of_none hnone]
    have hrest := (List.suffix_cons c z).trans hz
    exact ⟨fun hp => h.source?_eq_none hs ho hz (hother.1 hp),
      fun hc => TidySources.seek_eq_none h hrest (hshape.2 hc) (hother.2 hc)⟩

/-- **Converting the tags of one shape** leaves none of it, and brings none of another. -/
theorem TidySources.untagged (h : TidySources s) (hother : other = shape ∨ Untagged other s) :
    Untagged other (substitute shape.tagImage s) := by
  have hm := findsImages_tagImage hs
  have hneeds := needs_tagImage other
  intro z hz
  rcases suffix_substitute hm.consumes hz with ⟨r, hr, rfl⟩ | ⟨r, written, rest, u, hr, hfound, hu, hne, rfl⟩
  · cases hfound : shape.tagImage r with
    | some found =>
      obtain ⟨written, rest⟩ := found
      obtain ⟨target, -, -, rfl⟩ := h.written hs hr hfound
      rw [substitute_of_some hm.consumes hfound, markdownImage_append]
      exact hneeds.eq_none fun hk => absurd (List.cons_prefix_cons.1 hk).1 (by decide)
    | none =>
      have hnone : other.tagImage r = none := by
        rcases hother with rfl | hother
        · exact hfound
        · exact hother r hr
      rw [tagImage_eq_none_iff] at hfound hnone ⊢
      intro inner hinner
      obtain ⟨he, hinside, hword⟩ := tagStart?_eq_some hinner
      obtain ⟨inner', rfl, rfl⟩ := hm.start (v := '<' :: "img".toList) (by decide) he
      have hstart : tagStart? "img".toList ('<' :: ("img".toList ++ inner')) = some inner' := by
        have hne : inner' ≠ [] := fun hempty => hinside (by rw [hempty]; rfl)
        exact tagStart?_append hne (isWordChar_head hword)
      have hsuffix : inner' <:+ s := ((List.suffix_append _ _).trans (List.suffix_cons _ _)).trans hr
      exact h.seek_eq_none hs ho hsuffix (hfound inner' hstart) (hnone inner' hstart)
  · obtain ⟨target, hrun, -, rfl⟩ := h.written hs hr hfound
    refine hneeds.eq_none fun hk => ?_
    have hstart := start_within hu hne (by decide) hk
    rcases start_in_image (by decide) (by decide) (by decide) hu hstart with ⟨alt, halt, rfl⟩ | ⟨t, ht, rfl⟩
    · have hkey := start_of_start_append (by decide) hstart
      exact absurd (hkey.isInfix.trans halt.isInfix) (by decide)
    · have hkey := start_of_start_append (by decide) hstart
      exact hrun.clean _ (by decide) (hkey.isInfix.trans ht.isInfix)

end

/-! ## All tags -/

/-- **The tags of several shapes**, one shape after the other. -/
def convertTagsOf (shapes : List SourceShape) (s : Text) : Text :=
  shapes.foldl (fun s shape => substitute shape.tagImage s) s

theorem canonicalizeImages_eq (s : Text) : canonicalizeImages s = convertTagsOf sourceShapes (redirectImages s) := rfl

/-- **Converting tags, shape by shape**, leaves images settled and no tag of a shape that was looked for. -/
theorem settled_convertTagsOf : ∀ {shapes done : List SourceShape} {s : Text},
    (∀ shape ∈ shapes, shape ∈ sourceShapes) → (∀ shape ∈ done, shape ∈ sourceShapes ∧ Untagged shape s) →
      Settled s → TidySources s →
        Settled (convertTagsOf shapes s) ∧ ∀ shape ∈ done ++ shapes, Untagged shape (convertTagsOf shapes s)
  | [], done, s, _, hdone, h, _ => ⟨h, fun shape hshape => (hdone shape (by simpa using hshape)).2⟩
  | shape :: shapes, done, s, hshapes, hdone, h, ht => by
    have hs := hshapes shape List.mem_cons_self
    have hdone' : ∀ other ∈ done ++ [shape],
        other ∈ sourceShapes ∧ Untagged other (substitute shape.tagImage s) := by
      intro other hother
      rcases List.mem_append.1 hother with hother | hother
      · obtain ⟨ho, huntagged⟩ := hdone other hother
        exact ⟨ho, ht.untagged hs ho (.inr huntagged)⟩
      · obtain rfl := List.mem_singleton.1 hother
        exact ⟨hs, ht.untagged hs hs (.inl rfl)⟩
    have hrest := settled_convertTagsOf (fun other ho => hshapes other (List.mem_cons_of_mem _ ho)) hdone'
      (h.tags hs ht) (ht.tags hs)
    rwa [List.append_assoc, List.singleton_append] at hrest

theorem convertTagsOf_of_untagged : ∀ {shapes : List SourceShape} {s : Text}, (∀ shape ∈ shapes, Untagged shape s) →
    convertTagsOf shapes s = s
  | [], _, _ => rfl
  | shape :: shapes, s, h => by
    rw [convertTagsOf, List.foldl_cons, (h shape List.mem_cons_self).eq]
    exact convertTagsOf_of_untagged fun other ho => h other (List.mem_cons_of_mem _ ho)

/-- **Redirecting images writes no tag** into a text that has none. -/
theorem not_within_redirectImages {s : Text} (h : ¬ "<img".toList <:+: s) : ¬ "<img".toList <:+: redirectImages s := by
  have hm := findsImages_imageMatcher
  intro hwithin
  obtain ⟨z, hk, hz⟩ := List.infix_iff_prefix_suffix.1 hwithin
  rcases suffix_substitute hm.consumes hz with ⟨r, hr, rfl⟩ | ⟨r, written, rest, u, hr, hfound, hu, hne, rfl⟩
  · obtain ⟨more, he⟩ := hk
    obtain ⟨inner, rfl, -⟩ := hm.start (by decide) he.symm
    exact h ((List.prefix_append _ inner).isInfix.trans hr.isInfix)
  · obtain ⟨alt, target, hopening, -, -, rfl⟩ := imageMatcher_eq_some hfound
    obtain ⟨-, way, -, rfl⟩ := imageOpening?_eq_some_iff.1 hopening
    have hkey := start_within hu hne (by decide) hk
    rcases start_in_image (by decide) (by decide) (by decide) hu hkey with ⟨alt', halt, rfl⟩ | ⟨t, ht, rfl⟩
    · have hstart : "<img".toList <+: alt' := start_of_start_append (by decide) hkey
      refine h ((hstart.isInfix.trans halt.isInfix).trans (List.IsInfix.trans ?_ hr.isInfix))
      exact ⟨"![".toList, _, List.append_assoc _ _ _⟩
    · have hstart : "<img".toList <+: t := start_of_start_append (by decide) hkey
      have htarget := ht.isInfix.trans (trimTarget_within target).isInfix
      refine h ((hstart.isInfix.trans htarget).trans (List.IsInfix.trans ?_ hr.isInfix))
      exact ⟨"![".toList ++ (alt ++ ']' :: '(' :: way), ')' :: rest, by simp⟩

theorem untagged_of_not_within {s : Text} (h : ¬ "<img".toList <:+: s) (shape : SourceShape) : Untagged shape s :=
  fun _ hz => (needs_tagImage shape).eq_none fun hk => h (hk.isInfix.trans hz.isInfix)

/-- **Converting images a second time changes nothing** in a text without a tag of an image, and in a tidy one. -/
theorem canonicalizeImages_again {s : Text} (h : ¬ "<img".toList <:+: s ∨ Tidy s) :
    canonicalizeImages (canonicalizeImages s) = canonicalizeImages s := by
  rcases h with h | h
  · have hredirected : canonicalizeImages s = redirectImages s :=
      convertTagsOf_of_untagged fun shape _ => untagged_of_not_within (not_within_redirectImages h) shape
    rw [hredirected, canonicalizeImages_eq, redirectImages_again]
    exact hredirected
  · have hnone : ∀ shape ∈ [], shape ∈ sourceShapes ∧ Untagged shape (redirectImages s) := by simp
    obtain ⟨hsettled, huntagged⟩ := settled_convertTagsOf (fun _ hs => hs) hnone h.settled h.sources_redirected
    rw [canonicalizeImages_eq s, canonicalizeImages_eq, redirectImages_of_settled hsettled]
    exact convertTagsOf_of_untagged huntagged

/-- **A page with an image and a tag of every shape**, with blanks and parentheses in their paths. -/
def galleryPage : Text :=
  ("![Floor plan](../img/floor plan (1).png )\n<img alt=\"\" src='/img/a (2).png'>\n" ++
    "<img src=\x7brequire('@site/static/img/b')\x7d/>\n<img src=\x7brequire('img/c').default\x7d>").toList

theorem canonicalizeImages_again_gallery : Tidy galleryPage ∧
    canonicalizeImages (canonicalizeImages galleryPage) = canonicalizeImages galleryPage := by
  have htidy : Tidy galleryPage := by decide +kernel
  exact ⟨htidy, canonicalizeImages_again (.inr htidy)⟩

/-- **A text that changes a second time.** -/
def Unsettled (s : Text) : Prop := canonicalizeImages (canonicalizeImages s) ≠ canonicalizeImages s

instance (s : Text) : Decidable (Unsettled s) := inferInstanceAs (Decidable (_ ≠ _))

/-- **Some texts change a second time**: one with a blank at the end of a path in a tag, one with a tag in a path, one
with an image that is closed only by what is written for a tag, and one in which a source comes to light. -/
theorem canonicalizeImages_unsettled :
    Unsettled "<img src=\"/img/a \">".toList ∧
    Unsettled "<img src=\"/img/<img x\">src=\"/img/b\">".toList ∧
    Unsettled "![foo](/img/<img src=\"/img/a\">".toList ∧
    Unsettled "<img src=\x7brequire('/img/ > <img src=\x7brequire('/img/a')\x7d> ')\x7d>".toList := by
  decide +kernel

end DocFerry.Markup
