import DocFerry.Proofs.Markup.ImageDocuments
import DocFerry.Proofs.Text.Replacing
/-!
# Where references to assets begin

An image and a source begin with a way into an asset folder (`IsWay`), whatever path follows it (`imageOpening?`,
`sourceOpening?`).  The matchers of references write images from what they find (`FindsImages`): what comes out and
begins without an exclamation mark is kept from the text (`FindsImages.start`), and an image that comes out begins with
one of the text, or in front of the first that is written (`FindsImages.imageOpening?`).
-/
namespace DocFerry.Markup

open Text

/-! ## Ways into an asset folder -/

/-- **A way into an asset folder**, whatever follows it. -/
structure IsWay (way : Text) : Prop where
  leads : ∀ path, assetPath? (way ++ path) = some path
  plain : ∀ c ∈ way, c ∉ "![]<>()\"'".toList

theorem isWay_reference (l : Lead) {folder : Text} (h : folder ∈ assetFolders) : IsWay (l.reference folder) where
  leads := assetPath?_lead l h
  plain := by
    have hplain : ∀ c ∈ "![]<>()\"'".toList, ¬ (isBlank c = true ∨ c ∈ "./@siteacmg".toList) := by decide
    exact fun c hc hmem => hplain c hmem (l.mem_reference h hc)

theorem isWay_root : IsWay imageRoot := by
  have hroot : imageRoot = (⟨[], ['/'], false, false, by simp, .slash⟩ : Lead).reference "images/".toList := by decide
  rw [hroot]
  exact isWay_reference _ (by decide)

theorem exists_dropOptional (start s : Text) :
    ∃ there : Bool, s = (if there then start else []) ++ dropOptional start s := by
  unfold dropOptional
  cases h : after? start s with
  | none => exact ⟨false, rfl⟩
  | some rest => exact ⟨true, after?_eq_some_iff.1 h⟩

theorem exists_dropSteps (s : Text) :
    ∃ steps : List Text, (∀ x ∈ steps, x = "./".toList ∨ x = "../".toList) ∧ s = steps.flatten ++ dropSteps s := by
  fun_induction dropSteps s with
  | case1 rest ih =>
    obtain ⟨steps, hsteps, hrest⟩ := ih
    refine ⟨"./".toList :: steps, ?_, ?_⟩
    · rintro x (_ | ⟨_, hx⟩)
      · exact .inl rfl
      · exact hsteps x hx
    · rw [List.flatten_cons, List.append_assoc, ← hrest]
      rfl
  | case2 rest ih =>
    obtain ⟨steps, hsteps, hrest⟩ := ih
    refine ⟨"../".toList :: steps, ?_, ?_⟩
    · rintro x (_ | ⟨_, hx⟩)
      · exact .inr rfl
      · exact hsteps x hx
    · rw [List.flatten_cons, List.append_assoc, ← hrest]
      rfl
  | case3 s => exact ⟨[], by simp, rfl⟩

theorem exists_dropBase (s : Text) : ∃ base, IsBase base ∧ s = base ++ dropBase s := by
  unfold dropBase
  split
  · exact ⟨['/'], .slash, rfl⟩
  · obtain ⟨steps, hsteps, hs⟩ := exists_dropSteps s
    exact ⟨steps.flatten, .steps hsteps, hs⟩

theorem exists_way {s path : Text} (h : assetPath? s = some path) : ∃ way, IsWay way ∧ s = way ++ path := by
  obtain ⟨folder, hfolder, hpath⟩ := List.exists_of_findSome?_eq_some h
  have hstart : s = s.takeWhile isBlank ++ trimStart s := List.takeWhile_append_dropWhile.symm
  have hblanks : ∀ c ∈ s.takeWhile isBlank, isBlank c = true := fun c hc => List.mem_takeWhile_imp hc
  generalize s.takeWhile isBlank = blanks, trimStart s = t at hstart hblanks hpath
  obtain ⟨base, hbase, ht⟩ := exists_dropBase t
  generalize dropBase t = u at ht hpath
  obtain ⟨site, hu⟩ := exists_dropOptional "@site/".toList u
  generalize dropOptional "@site/".toList u = v at hu hpath
  obtain ⟨assets, hv⟩ := exists_dropOptional "static/".toList v
  rw [after?_eq_some_iff.1 hpath] at hv
  refine ⟨_, isWay_reference ⟨blanks, base, site, assets, hblanks, hbase⟩ hfolder, ?_⟩
  unfold Lead.reference Lead.place
  simp only [hstart, ht, hu, hv, List.append_assoc]

/-! ## Openings -/

/-- **Where an image begins that leads into an asset folder**: its text, and all that follows the way there. -/
def imageOpening? (s : Text) : Option (Text × Text) :=
  ((after? "![".toList s).bind (cutAt? [']'])).bind fun cut =>
    ((after? ['('] cut.2).bind assetPath?).map fun path => (cut.1, path)

/-- **Where a source begins that leads into an asset folder**: all that follows the way there. -/
def sourceOpening? (shape : SourceShape) (s : Text) : Option Text :=
  ((after? ("src=".toList ++ shape.opener) s).bind quote?).bind assetPath?

theorem markdownReference?_eq (s : Text) : markdownReference? s = (imageOpening? s).bind fun opening =>
    (cutAt? [')'] opening.2).bind fun cut =>
      if cut.1.isEmpty then none else some (opening.1, trimTarget cut.1, cut.2) := by
  unfold markdownReference? imageOpening?
  rcases (after? "![".toList s).bind (cutAt? [']']) with _ | ⟨alt, afterAlt⟩
  · rfl
  · simp only [Option.bind_eq_bind, Option.bind_some]
    rcases (after? ['('] afterAlt).bind assetPath? with _ | path
    · rfl
    · rfl

theorem source?_eq (shape : SourceShape) (s : Text) : shape.source? s = (sourceOpening? shape s).bind fun path =>
    (quotedRun? path).bind fun run =>
      ((after? shape.closer run.2.2).bind tagEnd?).map fun e => (run.1, e.2) := by
  unfold SourceShape.source? sourceOpening?
  rcases (after? ("src=".toList ++ shape.opener) s).bind quote? with _ | value
  · rfl
  · simp only [Option.bind_eq_bind, Option.bind_some]
    rcases assetPath? value with _ | path
    · rfl
    · simp only [Option.bind_some]
      rcases quotedRun? path with _ | run
      · rfl
      · simp only [Option.bind_some, Option.map_eq_bind]
        rfl

theorem imageOpening?_eq_some_iff {s alt path : Text} : imageOpening? s = some (alt, path) ↔
    ']' ∉ alt ∧ ∃ way, IsWay way ∧ s = "![".toList ++ (alt ++ ']' :: '(' :: (way ++ path)) := by
  constructor
  · intro h
    obtain ⟨⟨alt', afterAlt⟩, hcut, hpath⟩ := Option.bind_eq_some_iff.1 h
    obtain ⟨afterMark, hmark, hcut⟩ := Option.bind_eq_some_iff.1 hcut
    obtain ⟨path', hpath, he⟩ := Option.map_eq_some_iff.1 hpath
    obtain ⟨afterParen, hparen, hleads⟩ := Option.bind_eq_some_iff.1 hpath
    obtain ⟨rfl, rfl⟩ := Prod.mk.inj he
    obtain ⟨halt, rfl⟩ := cutAt?_singleton_iff.1 hcut
    obtain ⟨way, hway, rfl⟩ := exists_way hleads
    rw [after?_eq_some_iff] at hparen hmark
    subst hparen
    exact ⟨halt, way, hway, hmark⟩
  · rintro ⟨halt, way, hway, rfl⟩
    have hparen : after? ['('] ('(' :: (way ++ path)) = some (way ++ path) := after?_eq_some_iff.2 rfl
    unfold imageOpening?
    rw [after?_eq_some_iff.2 rfl, Option.bind_some, cutAt?_singleton ']' _ halt, Option.bind_some]
    dsimp only
    rw [hparen, Option.bind_some, hway.leads]
    rfl

theorem sourceOpening?_eq_some_iff {shape : SourceShape} {s path : Text} : sourceOpening? shape s = some path ↔
    ∃ mark way, isQuote mark = true ∧ IsWay way ∧ s = "src=".toList ++ shape.opener ++ mark :: (way ++ path) := by
  constructor
  · intro h
    obtain ⟨value, hvalue, hpath⟩ := Option.bind_eq_some_iff.1 h
    obtain ⟨quoted, hquoted, hmark⟩ := Option.bind_eq_some_iff.1 hvalue
    obtain ⟨mark, rfl, hquote⟩ := quote?_eq_some hmark
    obtain ⟨way, hway, rfl⟩ := exists_way hpath
    exact ⟨mark, way, hquote, hway, after?_eq_some_iff.1 hquoted⟩
  · rintro ⟨mark, way, hquote, hway, rfl⟩
    unfold sourceOpening?
    rw [after?_eq_some_iff.2 rfl, Option.bind_some, quote?, if_pos hquote, Option.bind_some, hway.leads]

/-- **What a source begins with**, whatever path follows. -/
structure SourceKey (shape : SourceShape) (key : Text) : Prop where
  opens : ∀ path, sourceOpening? shape (key ++ path) = some path
  start : "src=".toList <+: key
  quote : ∃ c ∈ key, isQuote c = true
  plain : ∀ c ∈ key, c ∉ "![]<>)".toList

theorem exists_sourceKey {shape : SourceShape} (hs : shape ∈ sourceShapes) {s path : Text}
    (h : sourceOpening? shape s = some path) : ∃ key, SourceKey shape key ∧ s = key ++ path := by
  obtain ⟨mark, way, hquote, hway, rfl⟩ := sourceOpening?_eq_some_iff.1 h
  have hopener : ∀ shape ∈ sourceShapes, ∀ c ∈ "src=".toList ++ shape.opener, c ∉ "![]<>)".toList := by
    simp only [sourceShapes, List.forall_mem_cons]
    decide
  have hmarks : ∀ c ∈ "![]<>)".toList, isQuote c = false ∧ c ∈ "![]<>()\"'".toList := by decide
  refine ⟨"src=".toList ++ shape.opener ++ mark :: way, ⟨fun path => ?_, ?_, ⟨mark, by simp, hquote⟩, ?_⟩, by simp⟩
  · rw [List.append_assoc, List.cons_append]
    exact sourceOpening?_eq_some_iff.2 ⟨mark, way, hquote, hway, rfl⟩
  · rw [List.append_assoc]
    exact List.prefix_append _ _
  · intro c hc hmem
    rcases List.mem_append.1 hc with hc | hc
    · exact hopener shape hs c hc hmem
    rcases List.mem_cons.1 hc with rfl | hc
    · rw [(hmarks _ hmem).1] at hquote
      cases hquote
    · exact hway.plain c hc (hmarks c hmem).2

/-! ## Matches -/

/-- **The matcher of images** of old assets. -/
def imageMatcher : Matcher := fun t => (markdownReference? t).map fun r => (markdownImage r.1 r.2.1, r.2.2)

theorem redirectImages_eq (s : Text) : redirectImages s = substitute imageMatcher s := rfl

theorem imageMatcher_eq_some {s written rest : Text} (h : imageMatcher s = some (written, rest)) :
    ∃ alt target, imageOpening? s = some (alt, target ++ ')' :: rest) ∧ ')' ∉ target ∧ target ≠ [] ∧
      written = markdownImage alt (trimTarget target) := by
  obtain ⟨⟨alt, target', rest'⟩, href, he⟩ := Option.map_eq_some_iff.1 h
  obtain ⟨rfl, rfl⟩ := Prod.mk.inj he
  rw [markdownReference?_eq] at href
  obtain ⟨⟨alt', path⟩, hopening, href⟩ := Option.bind_eq_some_iff.1 href
  obtain ⟨⟨target, rest⟩, hcut, href⟩ := Option.bind_eq_some_iff.1 href
  split at href
  · cases href
  · rename_i hne
    obtain ⟨hparen, rfl⟩ := cutAt?_singleton_iff.1 hcut
    cases href
    exact ⟨alt', target, hopening, hparen, by simpa using hne, rfl⟩

theorem imageMatcher_of_opening {s alt target rest : Text} (h : imageOpening? s = some (alt, target ++ ')' :: rest))
    (ht : ')' ∉ target) (hne : target ≠ []) : imageMatcher s = some (markdownImage alt (trimTarget target), rest) := by
  have href : markdownReference? s = some (alt, trimTarget target, rest) := by
    rw [markdownReference?_eq, h, Option.bind_some, cutAt?_singleton ')' rest ht, Option.bind_some]
    exact if_neg (by simpa using hne)
  rw [imageMatcher, href]
  rfl

theorem seekAttribute_eq_some {α : Type} {recognise : Text → Option α} {found : α} :
    ∀ {previous : Char} {s before : Text}, seekAttribute recognise previous s = some (before, found) →
      ∃ z, z <:+ s ∧ recognise z = some found
  | _, [], _, h => by cases h
  | previous, c :: s, before, h => by
    rw [seekAttribute] at h
    split at h
    · rename_i found' hfound
      obtain ⟨-, rfl⟩ := Prod.mk.inj (Option.some.inj h)
      split at hfound
      · cases hfound
      · exact ⟨c :: s, List.suffix_rfl, hfound⟩
    · split at h
      · cases h
      · obtain ⟨⟨before', found'⟩, hseek, he⟩ := Option.map_eq_some_iff.1 h
        obtain ⟨-, rfl⟩ := Prod.mk.inj he
        obtain ⟨z, hz, hfound⟩ := seekAttribute_eq_some hseek
        exact ⟨z, hz.trans (List.suffix_cons c s), hfound⟩

theorem source?_eq_some {shape : SourceShape} {z target rest : Text} (h : shape.source? z = some (target, rest)) :
    ∃ path mark more, sourceOpening? shape z = some path ∧ quotedRun? path = some (target, mark, more) ∧
      '>' :: rest <:+ more := by
  rw [source?_eq] at h
  obtain ⟨path, hpath, h⟩ := Option.bind_eq_some_iff.1 h
  obtain ⟨⟨target', mark, more⟩, hrun, h⟩ := Option.bind_eq_some_iff.1 h
  obtain ⟨⟨attributes, rest'⟩, hend, he⟩ := Option.map_eq_some_iff.1 h
  obtain ⟨left, hleft, hend⟩ := Option.bind_eq_some_iff.1 hend
  dsimp only at hleft
  cases he
  refine ⟨path, mark, more, hpath, hrun, ?_⟩
  rw [after?_eq_some_iff.1 hleft, tagEnd?_eq_some hend]
  exact (List.suffix_append _ _).trans (List.suffix_append _ _)

theorem tagImage_eq_some {shape : SourceShape} {s written rest : Text} (h : shape.tagImage s = some (written, rest)) :
    ∃ z path target mark more, z <:+ s ∧ sourceOpening? shape z = some path ∧
      quotedRun? path = some (target, mark, more) ∧ '>' :: rest <:+ more ∧
        written = markdownImage "Image".toList target := by
  obtain ⟨inner, hinner, h⟩ := Option.bind_eq_some_iff.1 h
  obtain ⟨⟨before, target, after⟩, hseek, he⟩ := Option.bind_eq_some_iff.1 h
  cases he
  obtain ⟨z, hz, hsource⟩ := seekAttribute_eq_some hseek
  obtain ⟨path, mark, more, hpath, hrun, hmore⟩ := source?_eq_some hsource
  have hinside : inner <:+ s := by
    rw [(tagStart?_eq_some hinner).1]
    exact (List.suffix_append _ _).trans (List.suffix_cons _ _)
  exact ⟨z, path, target, mark, more, hz.trans hinside, hpath, hrun, hmore, rfl⟩

theorem exists_quote_split {s : Text} (h : ∃ c ∈ s, isQuote c = true) :
    ∃ run mark rest, s = run ++ mark :: rest ∧ isQuote mark = true ∧ ∀ c ∈ run, isQuote c = false := by
  obtain ⟨c, hc, hquote⟩ := h
  induction s with
  | nil => cases hc
  | cons a s ih =>
    by_cases ha : isQuote a = true
    · exact ⟨[], a, s, rfl, ha, by simp⟩
    · have hne : c ≠ a := fun he => ha (he ▸ hquote)
      obtain ⟨run, mark, rest, rfl, hmark, hrun⟩ := ih ((List.mem_cons.1 hc).resolve_left hne)
      refine ⟨a :: run, mark, rest, rfl, hmark, fun d hd => ?_⟩
      rcases List.mem_cons.1 hd with rfl | hd
      · simpa using ha
      · exact hrun d hd

/-! ## What a reference is made of -/

theorem markdownImage_eq (alt target : Text) : markdownImage alt target =
    ("![".toList ++ alt) ++ ']' :: '(' :: (imageRoot ++ (target ++ [')'])) := by
  unfold markdownImage
  simp

theorem markdownImage_append (alt target more : Text) : markdownImage alt target ++ more =
    "![".toList ++ (alt ++ ']' :: '(' :: (imageRoot ++ (target ++ ')' :: more))) := by
  rw [markdownImage_eq]
  simp

theorem markdownImage_inj {alt alt' target target' : Text} (h : ']' ∉ alt) (h' : ']' ∉ alt')
    (he : markdownImage alt target = markdownImage alt' target') : target = target' := by
  have hmark : ∀ {alt : Text}, ']' ∉ alt → ']' ∉ "![".toList ++ alt := fun h => by simpa using h
  rw [markdownImage_eq, markdownImage_eq] at he
  obtain ⟨-, hrest⟩ := eq_of_append_cons (hmark h) (hmark h') he
  simpa using hrest

theorem imageOpening?_markdownImage {alt : Text} (h : ']' ∉ alt) (target more : Text) :
    imageOpening? (markdownImage alt target ++ more) = some (alt, target ++ ')' :: more) :=
  imageOpening?_eq_some_iff.2 ⟨h, imageRoot, isWay_root, markdownImage_append alt target more⟩

/-- **What a reference is written with**, but for what it takes from the text. -/
def imageFrame : Text := "![Image](/images/)".toList

theorem not_mem_imageFrame {c : Char} (h : isQuote c = true) : c ∉ imageFrame := by
  have hplain : ∀ c ∈ imageFrame, isQuote c = false := by decide
  intro hc
  rw [hplain c hc] at h
  cases h

theorem mem_markdownImage {c : Char} {alt target : Text} (h : c ∈ markdownImage alt target) :
    c ∈ alt ∨ c ∈ target ∨ c ∈ imageFrame := by
  have hown : ∀ c, c ∈ "![".toList ∨ c ∈ "](".toList ∨ c ∈ imageRoot ∨ c = ')' → c ∈ imageFrame := by
    have hparts : ∀ c ∈ "![".toList ++ "](".toList ++ imageRoot ++ [')'], c ∈ imageFrame := by decide
    intro c hc
    refine hparts c ?_
    simp only [List.mem_append, List.mem_singleton, or_assoc]
    exact hc
  unfold markdownImage at h
  simp only [List.mem_append, List.mem_singleton] at h
  rcases h with ((((h | h) | h) | h) | h) | h
  · exact .inr (.inr (hown c (.inl h)))
  · exact .inl h
  · exact .inr (.inr (hown c (.inr (.inl h))))
  · exact .inr (.inr (hown c (.inr (.inr (.inl h)))))
  · exact .inr (.inl h)
  · exact .inr (.inr (hown c (.inr (.inr (.inr h)))))

theorem trimTarget_within (target : Text) : trimTarget target <+: target := by
  cases target with
  | nil => exact List.prefix_rfl
  | cons c target =>
    obtain ⟨blanks, hblanks⟩ := List.dropWhile_suffix (l := target.reverse) isBlank
    refine ⟨blanks.reverse, ?_⟩
    rw [trimTarget, trimEnd, dropEndWhile, List.cons_append, ← List.reverse_append, hblanks, List.reverse_reverse]

theorem mem_tagImage {c : Char} {target : Text} (h : c ∈ markdownImage "Image".toList target) :
    c ∈ target ∨ c ∈ imageFrame := by
  have himage : ∀ c ∈ "Image".toList, c ∈ imageFrame := by decide
  exact (mem_markdownImage h).elim (fun hc => .inr (himage c hc)) id

/-- **A matcher of references**: a match begins with a key, and is written as an image from its own characters. -/
structure FindsImages (key : Text) (m : Matcher) : Prop where
  needs : Needs key m
  consumes : Consumes m
  writes : ∀ s written rest, m s = some (written, rest) → ∃ alt target, ']' ∉ alt ∧ written = markdownImage alt target
  brings : ∀ s written rest, m s = some (written, rest) → ∀ c ∈ written, c ∈ s ∨ c ∈ imageFrame

theorem findsImages_imageMatcher : FindsImages "![".toList imageMatcher where
  needs := needs_markdownReference
  writes := by
    intro s written rest h
    obtain ⟨alt, target, hopening, -, -, rfl⟩ := imageMatcher_eq_some h
    exact ⟨alt, trimTarget target, (imageOpening?_eq_some_iff.1 hopening).1, rfl⟩
  consumes := by
    intro s written rest h
    obtain ⟨alt, target, hopening, -⟩ := imageMatcher_eq_some h
    obtain ⟨-, way, -, rfl⟩ := imageOpening?_eq_some_iff.1 hopening
    exact ⟨"![".toList ++ (alt ++ ']' :: '(' :: (way ++ (target ++ [')']))), by simp, by simp⟩
  brings := by
    intro s written rest h c hc
    obtain ⟨alt, target, hopening, -, -, rfl⟩ := imageMatcher_eq_some h
    obtain ⟨-, way, -, rfl⟩ := imageOpening?_eq_some_iff.1 hopening
    rcases mem_markdownImage hc with hc | hc | hc
    · exact .inl (by simp [hc])
    · exact .inl (by simp [(trimTarget_within target).subset hc])
    · exact .inr hc

theorem findsImages_tagImage {shape : SourceShape} (hs : shape ∈ sourceShapes) :
    FindsImages ('<' :: "img".toList) shape.tagImage where
  needs := needs_tagImage shape
  writes := by
    intro s written rest h
    obtain ⟨z, path, target, mark, more, -, -, -, -, rfl⟩ := tagImage_eq_some h
    exact ⟨"Image".toList, target, by decide, rfl⟩
  consumes := by
    intro s written rest h
    obtain ⟨z, path, target, mark, more, hz, hopening, hrun, hrest, -⟩ := tagImage_eq_some h
    obtain ⟨key, -, rfl⟩ := exists_sourceKey hs hopening
    obtain ⟨rfl, -⟩ := quotedRun?_eq_some hrun
    have hsuffix : '>' :: rest <:+ s :=
      (((hrest.trans (List.suffix_cons _ _)).trans (List.suffix_append _ _)).trans (List.suffix_append _ _)).trans hz
    obtain ⟨start, rfl⟩ := hsuffix
    exact ⟨start ++ ['>'], by simp, by simp⟩
  brings := by
    intro s written rest h c hc
    obtain ⟨z, path, target, mark, more, hz, hopening, hrun, -, rfl⟩ := tagImage_eq_some h
    obtain ⟨key, -, rfl⟩ := exists_sourceKey hs hopening
    obtain ⟨rfl, -⟩ := quotedRun?_eq_some hrun
    rcases mem_tagImage hc with hc | hc
    · exact .inl (hz.subset (by simp [hc]))
    · exact .inr hc

section

variable {key : Text} {m : Matcher} (hm : FindsImages key m)

include hm

theorem FindsImages.mem {c : Char} {s : Text} (h : c ∈ substitute m s) (hc : c ∉ imageFrame) : c ∈ s :=
  (mem_substitute hm.consumes (fun s written rest hfound hw => hm.brings s written rest hfound c hw) h).resolve_right hc

theorem FindsImages.mem_of_isQuote {c : Char} {s : Text} (h : c ∈ substitute m s) (hc : isQuote c = true) : c ∈ s :=
  hm.mem h (not_mem_imageFrame hc)

/-- **A beginning without an exclamation mark** is kept from the text. -/
theorem FindsImages.start : ∀ {v s more : Text}, '!' ∉ v → substitute m s = v ++ more →
    ∃ s', s = v ++ s' ∧ more = substitute m s'
  | [], s, more, _, h => ⟨s, rfl, h.symm⟩
  | a :: v, s, more, hv, h => by
    rw [List.mem_cons, not_or] at hv
    cases s with
    | nil => cases h
    | cons c s =>
      cases hfound : m (c :: s) with
      | none =>
        rw [substitute_cons_of_none hfound, List.cons_append] at h
        obtain ⟨rfl, hrest⟩ := List.cons.inj h
        obtain ⟨s', rfl, hmore⟩ := FindsImages.start hv.2 hrest
        exact ⟨s', rfl, hmore⟩
      | some found =>
        obtain ⟨written, rest⟩ := found
        obtain ⟨alt, target, -, rfl⟩ := hm.writes _ _ _ hfound
        rw [substitute_of_some hm.consumes hfound, markdownImage_append] at h
        exact absurd (List.cons.inj h).1 hv.1

/-- **An image that comes out** begins with one of the text, or in front of the first that is written. -/
theorem FindsImages.imageOpening? {s alt path : Text} (hn : m s = none)
    (h : Markup.imageOpening? (substitute m s) = some (alt, path)) :
    (∃ front path', s = front ++ path' ∧ Markup.imageOpening? s = some (alt, path') ∧
      substitute m s = front ++ path ∧ path = substitute m path') ∨
      ∃ kept found alt' target rest, s = "![".toList ++ (kept ++ found) ∧ ']' ∉ kept ∧ ']' ∉ alt' ∧
        m found = some (markdownImage alt' target, rest) ∧
          substitute m s = markdownImage alt target ++ substitute m rest := by
  obtain ⟨halt, way, hway, he⟩ := imageOpening?_eq_some_iff.1 h
  have hmark : "![".toList = ['!', '['] := rfl
  rw [hmark, List.cons_append, List.cons_append, List.nil_append] at he
  cases s with
  | nil => cases he
  | cons c s =>
    rw [substitute_cons_of_none hn] at he ⊢
    obtain ⟨rfl, hopen⟩ := List.cons.inj he
    obtain ⟨inner, rfl, hinner⟩ := hm.start (v := ['[']) (by decide) hopen
    have hbracket : ∀ s written rest, m s = some (written, rest) → ']' ∈ written := by
      intro s written rest hfound
      obtain ⟨alt', target, -, rfl⟩ := hm.writes s written rest hfound
      rw [markdownImage_eq]
      simp
    rcases cut_substitute hm.consumes hbracket halt hinner.symm with ⟨rest, rfl, hrest⟩ | hfound
    · have hplain : '!' ∉ '(' :: way := by
        have hroot := fun hc => hway.plain '!' hc (by decide)
        simpa using hroot
      obtain ⟨path', rfl, rfl⟩ := hm.start hplain hrest.symm
      refine .inl ⟨"![".toList ++ (alt ++ ']' :: '(' :: way), path', by simp, ?_, ?_, rfl⟩
      · exact imageOpening?_eq_some_iff.2 ⟨halt, way, hway, rfl⟩
      · rw [hopen]
        simp
    · obtain ⟨kept, found, written, rest, cut, rfl, hfound, rfl, hs, hcut, more, hmore⟩ := hfound
      obtain ⟨alt', target, halt', rfl⟩ := hm.writes _ _ _ hfound
      have hkept : ']' ∉ kept := fun hc => halt (List.mem_append_left _ hc)
      refine .inr ⟨kept, found, alt', target, rest, rfl, hkept, halt', hfound, ?_⟩
      have hmark' : ']' ∉ "![".toList ++ alt' := by simpa using halt'
      obtain ⟨rfl, -⟩ := eq_of_append_cons hmark' hcut ((markdownImage_eq alt' target).symm.trans hmore)
      refine (congrArg ('!' :: ·) (hopen.trans (congrArg ('[' :: ·) (hinner.trans hs)))).trans ?_
      rw [markdownImage_append, markdownImage_append]
      simp

/-- **A run up to a quotation mark is kept** if no reference begins in it. -/
theorem FindsImages.quotedRun? (hne : key ≠ []) (hkey : ∀ c ∈ key, isQuote c = false) {q run more : Text} {mark : Char}
    (hclean : ∀ run mark more, Markup.quotedRun? q = some (run, mark, more) → ¬ key <:+: run)
    (h : Markup.quotedRun? (substitute m q) = some (run, mark, more)) :
    ∃ more', Markup.quotedRun? q = some (run, mark, more') ∧ more = substitute m more' := by
  have hmark : ∃ c ∈ q, isQuote c = true := by
    obtain ⟨hsplit, -, hquote, -⟩ := quotedRun?_eq_some h
    have hmem : mark ∈ substitute m q := hsplit ▸ List.mem_append_right _ List.mem_cons_self
    exact ⟨mark, hm.mem_of_isQuote hmem hquote, hquote⟩
  obtain ⟨first, mark', rest, rfl, hquote, hfirst⟩ := exists_quote_split hmark
  have hkept : ¬ key <:+: first → substitute m (first ++ mark' :: rest) = first ++ mark' :: substitute m rest := by
    intro hwithin
    have hmem : mark' ∉ key := fun hc => absurd hquote (by simp [hkey mark' hc])
    have hrewrites := rewrites_of_not_within hm.needs hne hmem hwithin rest
    simpa using hrewrites
  by_cases hempty : first = []
  · subst hempty
    have hwithin : ¬ key <:+: [] := by simpa using hne
    rw [hkept hwithin, List.nil_append, quotedRun?_of_quote hquote] at h
    cases h
  · have hrun := @quotedRun?_append first rest mark' hempty hfirst hquote
    rw [hkept (hclean _ _ _ hrun), quotedRun?_append hempty hfirst hquote] at h
    cases h
    exact ⟨rest, hrun, rfl⟩

end

end DocFerry.Markup
