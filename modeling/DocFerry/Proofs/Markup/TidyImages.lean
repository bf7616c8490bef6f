import Mathlib.Data.List.Infix
import DocFerry.Proofs.Markup.ImageOpenings
/-!
# Tidy references

Redirecting images a second time changes nothing, in any text (`redirectImages_again`).  Whether the images that are
written for tags stay as well depends on the paths.  In a tidy text (`Tidy`) no path holds the beginning of another
reference, every image is closed, and no path in a tag ends with blanks.  Once its images are redirected they are
settled (`Tidy.settled`), and its sources still have paths that stay (`Tidy.sources_redirected`).
-/
namespace DocFerry.Markup

open Text

/-! ## Paths that stay -/

/-- **What the path of an image must not hold** to stay: a reference or a source would begin in it. -/
def imageKeys : List Text := ["<img", "![", "src="].map String.toList

/-- **What the path of a source must not hold** to stay: a reference would begin in it, or an image go on in it. -/
def sourceKeys : List Text := ["<img", "![", "]("].map String.toList

/-- **A path in a source that an image can hold** as it is: the text in front of its first closing parenthesis has no
blanks to lose. -/
structure TidyRun (run : Text) : Prop where
  clean : ∀ key ∈ sourceKeys, ¬ key <:+: run
  trimmed : trimTarget (run.takeWhile (· != ')')) = run.takeWhile (· != ')')

instance (run : Text) : Decidable (TidyRun run) :=
  decidable_of_iff (_ ∧ _) ⟨fun h => TidyRun.mk h.1 h.2, fun h => ⟨h.clean, h.trimmed⟩⟩

theorem trimTarget_trimTarget (s : Text) : trimTarget (trimTarget s) = trimTarget s := by
  cases s with
  | nil => rfl
  | cons c s => rw [trimTarget, trimTarget, trimEnd_of_last (last_trimEnd s)]

theorem trimTarget_ne_nil {s : Text} (h : s ≠ []) : trimTarget s ≠ [] := by
  cases s with
  | nil => exact absurd rfl h
  | cons c s => exact List.cons_ne_nil c (trimEnd s)

/-! ## Tidy texts -/

/-- **A path in an image that stays**: it is closed, and nothing begins in it. -/
def TidyImage (path : Text) : Prop :=
  ∃ cut ∈ cutAt? [')'] path, ∀ key ∈ imageKeys, ¬ key <:+: cut.1

/-- **A path in a source that stays**, if it is closed by a quotation mark. -/
def TidySource (path : Text) : Prop := ∀ run ∈ quotedRun? path, TidyRun run.1

instance (path : Text) : Decidable (TidyImage path) := inferInstanceAs (Decidable (∃ cut ∈ cutAt? [')'] path, _))

instance (path : Text) : Decidable (TidySource path) := inferInstanceAs (Decidable (∀ run ∈ quotedRun? path, _))

/-- **Every source in a text has a path that stays.** -/
def TidySources (s : Text) : Prop :=
  ∀ z ∈ s.tails, ∀ shape ∈ sourceShapes, ∀ path ∈ sourceOpening? shape z, TidySource path

instance (s : Text) : Decidable (TidySources s) := inferInstanceAs (Decidable (∀ z ∈ s.tails, _))

theorem TidySources.tidy {s z path : Text} {shape : SourceShape} (h : TidySources s) (hz : z <:+ s)
    (hs : shape ∈ sourceShapes) (hopening : sourceOpening? shape z = some path) : TidySource path :=
  h z ((List.mem_tails _ _).2 hz) shape hs path hopening

/-- **A text whose references to assets stay** what they are. -/
structure Tidy (s : Text) : Prop where
  images : ∀ z ∈ s.tails, ∀ opening ∈ imageOpening? z, TidyImage opening.2
  sources : TidySources s

instance (s : Text) : Decidable (Tidy s) :=
  decidable_of_iff ((∀ z ∈ s.tails, ∀ opening ∈ imageOpening? z, TidyImage opening.2) ∧ TidySources s)
    ⟨fun h => ⟨h.1, h.2⟩, fun h => ⟨h.1, h.2⟩⟩

/-- **A text that begins with an image is settled there**: the image is closed, and is as it is written after the move,
if its path is not empty. -/
def SettledWith (s alt path : Text) : Prop :=
  ∃ target rest, path = target ++ ')' :: rest ∧ ')' ∉ target ∧ ¬ "<img".toList <:+: target ∧
    (target = [] ∨ s = markdownImage alt target ++ rest ∧ trimTarget target = target)

/-- **An image at the start of a text is settled**, if there is one. -/
def SettledAt (s : Text) : Prop := ∀ alt path, imageOpening? s = some (alt, path) → SettledWith s alt path

/-- **Every image in a text is settled.** -/
def Settled (s : Text) : Prop := ∀ z, z <:+ s → SettledAt z

/-! ## Images that are written -/

/-- **An image that is written is settled**, even if its path has a closing parenthesis. -/
theorem settledAt_markdownImage {alt target : Text} (halt : ']' ∉ alt) (hclean : ¬ "<img".toList <:+: target)
    (htrim : trimTarget (target.takeWhile (· != ')')) = target.takeWhile (· != ')')) (more : Text) :
    SettledAt (markdownImage alt target ++ more) := by
  intro alt' path h
  rw [imageOpening?_markdownImage halt] at h
  obtain ⟨rfl, rfl⟩ := Prod.mk.inj (Option.some.inj h)
  have hprefix := List.takeWhile_prefix (l := target) (· != ')')
  have hfirst : ')' ∉ target.takeWhile (· != ')') := fun hc => by simpa using List.mem_takeWhile_imp hc
  have hsplit := List.takeWhile_append_dropWhile (p := (· != ')')) (l := target)
  have hnext := List.head?_dropWhile_not (· != ')') target
  have hcut : ∃ rest, target ++ ')' :: more = target.takeWhile (· != ')') ++ ')' :: rest := by
    generalize target.takeWhile (· != ')') = first, target.dropWhile (· != ')') = next at hsplit hnext ⊢
    subst hsplit
    cases next with
    | nil => exact ⟨more, by simp⟩
    | cons c next =>
      obtain rfl : c = ')' := by simpa using hnext
      exact ⟨next ++ ')' :: more, by simp⟩
  obtain ⟨rest, hcut⟩ := hcut
  refine ⟨_, rest, hcut, hfirst, fun hk => hclean (hk.trans hprefix.isInfix), .inr ⟨?_, htrim⟩⟩
  rw [markdownImage_append, markdownImage_append, hcut]

theorem settledAt_trimTarget {alt target : Text} (halt : ']' ∉ alt) (hparen : ')' ∉ target)
    (hclean : ¬ "<img".toList <:+: target) (more : Text) :
    SettledAt (markdownImage alt (trimTarget target) ++ more) := by
  have hprefix := trimTarget_within target
  have hwhole : (trimTarget target).takeWhile (· != ')') = trimTarget target :=
    List.takeWhile_eq_self_iff.2 fun c hc => by
      have hne : c ≠ ')' := fun he => hparen (he ▸ hprefix.subset hc)
      simpa using hne
  refine settledAt_markdownImage halt (fun hk => hclean (hk.trans hprefix.isInfix)) ?_ more
  rw [hwhole, trimTarget_trimTarget]

theorem TidyRun.settledAt {alt target : Text} (h : TidyRun target) (halt : ']' ∉ alt) (more : Text) :
    SettledAt (markdownImage alt target ++ more) :=
  settledAt_markdownImage halt (h.clean _ (by decide)) h.trimmed more

/-- **What begins within an image that is written** ends within it. -/
theorem start_within {alt target u key more : Text} (hu : u <:+ markdownImage alt target) (hne : u ≠ [])
    (hkey : ')' ∉ key) (h : key <+: u ++ more) : key <+: u := by
  unfold markdownImage at hu
  obtain ⟨v, rfl, -⟩ := (List.suffix_concat_iff.1 hu).resolve_left hne
  rw [List.append_assoc, List.singleton_append] at h
  exact (start_of_start_append hkey h).trans (List.prefix_append v [')'])

/-- **A key that begins nowhere in a text**, whatever follows the text. -/
def Apart (key own : Text) : Prop := ∀ v ∈ own.tails, v ≠ [] → Differ key v

instance (key own : Text) : Decidable (Apart key own) := inferInstanceAs (Decidable (∀ v ∈ own.tails, _))

theorem Apart.eq_nil {key own v more : Text} (h : Apart key own) (hv : v <:+ own) (hk : key <+: v ++ more) :
    v = [] := by
  by_contra hne
  exact ((h v ((List.mem_tails _ _).2 hv) hne).append more).1 hk

theorem start_in_path {key u target : Text} (hown : Apart key ("](".toList ++ imageRoot)) (hend : Apart key [')'])
    (hu : u <:+ ']' :: '(' :: (imageRoot ++ (target ++ [')']))) (h : key <+: u) :
    ∃ t, t <:+ target ∧ u = t ++ [')'] := by
  have hlayers : ']' :: '(' :: (imageRoot ++ (target ++ [')'])) = ("](".toList ++ imageRoot) ++ (target ++ [')']) := rfl
  rw [hlayers] at hu
  rcases suffix_append_cases hu with hu | ⟨v, hv, rfl⟩
  · rcases suffix_append_cases hu with hu | ⟨t, ht, rfl⟩
    · obtain rfl := hend.eq_nil hu ((List.append_nil u).symm ▸ h)
      exact absurd (h.trans List.nil_prefix) (hend [')'] (by simp) (by simp)).1
    · exact ⟨t, ht, rfl⟩
  · obtain rfl := hown.eq_nil hv h
    exact ⟨target, List.suffix_rfl, rfl⟩

/-- **A key that begins nowhere in what an image is written around** begins in its text or in its path. -/
theorem start_in_image {key u alt target : Text} (hmark : Apart key "![".toList)
    (hown : Apart key ("](".toList ++ imageRoot)) (hend : Apart key [')']) (hu : u <:+ markdownImage alt target)
    (h : key <+: u) : (∃ alt', alt' <:+ alt ∧ u = alt' ++ ']' :: '(' :: (imageRoot ++ (target ++ [')']))) ∨
      ∃ t, t <:+ target ∧ u = t ++ [')'] := by
  rw [markdownImage_eq, List.append_assoc] at hu
  rcases suffix_append_cases hu with hu | ⟨v, hv, rfl⟩
  · rcases suffix_append_cases hu with hu | ⟨v, hv, rfl⟩
    · exact .inr (start_in_path hown hend hu h)
    · exact .inl ⟨v, hv, rfl⟩
  · obtain rfl := hmark.eq_nil hv h
    exact .inl ⟨alt, List.suffix_rfl, rfl⟩

theorem sourceKey_within {shape : SourceShape} (hs : shape ∈ sourceShapes) {alt target u more path : Text}
    (hu : u <:+ markdownImage alt target) (hne : u ≠ []) (h : sourceOpening? shape (u ++ more) = some path) :
    ∃ key, SourceKey shape key ∧ key <+: u ∧ u ++ more = key ++ path := by
  obtain ⟨key, hkey, he⟩ := exists_sourceKey hs h
  exact ⟨key, hkey, start_within hu hne (fun hc => hkey.plain ')' hc (by decide)) ⟨path, he.symm⟩, he⟩

/-- **An image that begins within one that is written** has the same path, if none begins in the path. -/
theorem exists_alt_of_suffix {alt target u : Text} (hu : u <:+ markdownImage alt target) (hk : "![".toList <+: u)
    (ht : ¬ "![".toList <:+: target) : ∃ alt', alt' <:+ alt ∧ u = markdownImage alt' target := by
  have hmark : "![".toList = ['!', '['] := rfl
  rw [markdownImage_eq] at hu
  rcases suffix_append_cases hu with hu | ⟨v, hv, rfl⟩
  · obtain ⟨t, hsuffix, rfl⟩ := start_in_path (by decide) (by decide) hu hk
    have hstart : "![".toList <+: t := start_of_start_append (by decide) hk
    exact absurd (hstart.isInfix.trans hsuffix.isInfix) ht
  · obtain ⟨alt', rfl⟩ := start_of_start_append (by decide) hk
    refine ⟨alt', ?_, (markdownImage_eq alt' target).symm⟩
    rw [hmark, List.cons_append, List.cons_append, List.nil_append, List.cons_append, List.cons_append,
      List.nil_append] at hv
    rcases List.suffix_cons_iff.1 hv with he | hv
    · rw [(List.cons.inj (List.cons.inj he).2).2]
    · rcases List.suffix_cons_iff.1 hv with he | hv
      · exact absurd (List.cons.inj he).1 (by decide)
      · exact (List.suffix_append ['!', '['] alt').trans hv

theorem settledAt_suffix {alt target u more : Text} (hu : u <:+ markdownImage alt target) (hne : u ≠ [])
    (ht : ¬ "![".toList <:+: target) (h : ∀ alt', alt' <:+ alt → SettledAt (markdownImage alt' target ++ more)) :
    SettledAt (u ++ more) := by
  intro alt' path hopening
  obtain ⟨-, way, -, he⟩ := imageOpening?_eq_some_iff.1 hopening
  have hstart : "![".toList <+: u := start_within hu hne (by decide) ⟨_, he.symm⟩
  obtain ⟨alt'', hsuffix, rfl⟩ := exists_alt_of_suffix hu hstart ht
  exact h alt'' hsuffix alt' path hopening

/-! ## Images that are redirected -/

theorem substitute_of_no_paren {s : Text} (h : ')' ∉ s) : substitute imageMatcher s = s := by
  refine substitute_of_fixed findsImages_imageMatcher.consumes fun t ht written rest hfound => ?_
  obtain ⟨alt, target, hopening, -⟩ := imageMatcher_eq_some hfound
  obtain ⟨-, way, -, rfl⟩ := imageOpening?_eq_some_iff.1 hopening
  exact absurd (ht.subset (by simp)) h

theorem substitute_paren (rest : Text) :
    substitute imageMatcher (')' :: rest) = ')' :: substitute imageMatcher rest :=
  substitute_cons_of_none (findsImages_imageMatcher.needs.eq_none fun hk =>
    absurd (List.cons_prefix_cons.1 hk).1 (by decide))

theorem eq_nil_of_unmatched {s alt target rest : Text} (hn : imageMatcher s = none) (ht : ')' ∉ target)
    (h : imageOpening? s = some (alt, target ++ ')' :: rest)) : target = [] := by
  by_contra hne
  rw [imageMatcher_of_opening h ht hne] at hn
  cases hn

theorem imageOpening?_redirected {s alt path : Text} (hn : imageMatcher s = none)
    (h : imageOpening? (substitute imageMatcher s) = some (alt, path)) :
    ∃ path', imageOpening? s = some (alt, path') ∧ path = substitute imageMatcher path' := by
  rcases findsImages_imageMatcher.imageOpening? hn h with ⟨front, path', -, hpath, -, he⟩ | hwritten
  · exact ⟨path', hpath, he⟩
  -- An image that begins in the text of another has the path of that one, which is found first.
  obtain ⟨kept, found, _, _, rest, rfl, hkept, -, hfound, -⟩ := hwritten
  obtain ⟨alt', target, hopening, hparen, hne, -⟩ := imageMatcher_eq_some hfound
  obtain ⟨halt', way, hway, rfl⟩ := imageOpening?_eq_some_iff.1 hopening
  have halt : ']' ∉ kept ++ ("![".toList ++ alt') := by simp [hkept, halt']
  have houter : imageOpening? ("![".toList ++ (kept ++ ("![".toList ++ (alt' ++ ']' :: '(' ::
      (way ++ (target ++ ')' :: rest)))))) = some (kept ++ ("![".toList ++ alt'), target ++ ')' :: rest) :=
    imageOpening?_eq_some_iff.2 ⟨halt, way, hway, by simp⟩
  exact absurd (eq_nil_of_unmatched hn hparen houter) hne

theorem imageMatcher_redirected {s : Text} (hn : imageMatcher s = none) :
    imageMatcher (substitute imageMatcher s) = none := by
  cases hfound : imageMatcher (substitute imageMatcher s) with
  | none => rfl
  | some found =>
    obtain ⟨alt, target, hopening, hparen, hne, -⟩ := imageMatcher_eq_some hfound
    obtain ⟨path, hpath, he⟩ := imageOpening?_redirected hn hopening
    by_cases hclosed : ')' ∈ path
    · obtain ⟨first, rest, rfl, hfirst⟩ := List.eq_append_cons_of_mem hclosed
      obtain rfl := eq_nil_of_unmatched hn hfirst hpath
      rw [List.nil_append, substitute_paren] at he
      cases target with
      | nil => exact absurd rfl hne
      | cons c target =>
        obtain ⟨rfl, -⟩ := List.cons.inj he
        exact absurd List.mem_cons_self hparen
    · rw [substitute_of_no_paren hclosed] at he
      exact absurd (he ▸ by simp) hclosed

/-- **Redirecting images a second time changes nothing**, in any text. -/
theorem redirectImages_again (s : Text) : redirectImages (redirectImages s) = redirectImages s := by
  have hc := findsImages_imageMatcher.consumes
  rw [redirectImages_eq, redirectImages_eq]
  have hway := replaced_substitute hc s
  generalize substitute imageMatcher s = t at hway
  induction hway with
  | nil => rfl
  | @keep c s t hn hs ih =>
    have hkept : c :: t = substitute imageMatcher (c :: s) := (Replaced.keep hn hs).eq hc
    have hnone := imageMatcher_redirected hn
    rw [← hkept] at hnone
    rw [substitute_cons_of_none hnone, ih]
  | @found s written rest t hm ht ih =>
    obtain ⟨alt, target, hopening, hparen, hne, rfl⟩ := imageMatcher_eq_some hm
    have halt := (imageOpening?_eq_some_iff.1 hopening).1
    have hparen' : ')' ∉ trimTarget target := fun hc => hparen ((trimTarget_within target).subset hc)
    have hmatch := imageMatcher_of_opening (imageOpening?_markdownImage halt _ t) hparen' (trimTarget_ne_nil hne)
    rw [trimTarget_trimTarget] at hmatch
    rw [substitute_of_some hc hmatch, ih]

/-- **Images that are settled stay.** -/
theorem redirectImages_of_settled {s : Text} (h : Settled s) : redirectImages s = s := by
  refine substitute_of_fixed findsImages_imageMatcher.consumes fun t ht written rest hfound => ?_
  obtain ⟨alt, target, hopening, hparen, hne, rfl⟩ := imageMatcher_eq_some hfound
  obtain ⟨target', rest', hpath, hparen', -, hsettled⟩ := h t ht alt _ hopening
  obtain ⟨rfl, rfl⟩ := eq_of_append_cons hparen hparen' hpath
  obtain ⟨ht, htrim⟩ := hsettled.resolve_left hne
  rw [htrim]
  exact ht

theorem Tidy.image {s z alt path : Text} (h : Tidy s) (hz : z <:+ s) (hopening : imageOpening? z = some (alt, path)) :
    ∃ target rest, path = target ++ ')' :: rest ∧ ')' ∉ target ∧ ∀ key ∈ imageKeys, ¬ key <:+: target := by
  obtain ⟨⟨target, rest⟩, hcut, hclean⟩ := h.images z ((List.mem_tails _ _).2 hz) _ hopening
  obtain ⟨hparen, rfl⟩ := cutAt?_singleton_iff.1 hcut
  exact ⟨target, rest, rfl, hparen, hclean⟩

theorem Tidy.written {s z written rest : Text} (h : Tidy s) (hz : z <:+ s)
    (hfound : imageMatcher z = some (written, rest)) : ∃ alt target, ']' ∉ alt ∧ ')' ∉ target ∧
      (∀ key ∈ imageKeys, ¬ key <:+: target) ∧ written = markdownImage alt (trimTarget target) ∧
        ∃ more, z = "![".toList ++ (alt ++ ']' :: '(' :: more) ∧ target ++ ')' :: rest <:+ more := by
  obtain ⟨alt, target, hopening, hparen, -, rfl⟩ := imageMatcher_eq_some hfound
  obtain ⟨target', rest', hpath, hparen', hclean⟩ := h.image hz hopening
  obtain ⟨rfl, -⟩ := eq_of_append_cons hparen hparen' hpath
  obtain ⟨halt, way, -, rfl⟩ := imageOpening?_eq_some_iff.1 hopening
  exact ⟨alt, target, halt, hparen, hclean, rfl, _, rfl, List.suffix_append way _⟩

/-- **Images that are redirected are settled**, if they were tidy. -/
theorem Tidy.settled {s : Text} (h : Tidy s) : Settled (redirectImages s) := by
  have hc := findsImages_imageMatcher.consumes
  intro z hz
  rcases suffix_substitute hc hz with ⟨r, hr, rfl⟩ | ⟨r, written, rest, u, hr, hfound, hu, hne, rfl⟩
  · cases hfound : imageMatcher r with
    | none =>
      intro alt path hopening
      obtain ⟨path', hpath, rfl⟩ := imageOpening?_redirected hfound hopening
      obtain ⟨target, rest, rfl, hparen, -⟩ := h.image hr hpath
      obtain rfl := eq_nil_of_unmatched hfound hparen hpath
      exact ⟨[], _, substitute_paren rest, by simp, by simp, .inl rfl⟩
    | some found =>
      obtain ⟨alt, target, halt, hparen, hclean, hwritten, -⟩ := h.written hr hfound
      rw [substitute_of_some hc hfound, hwritten]
      exact settledAt_trimTarget halt hparen (hclean _ (by decide)) _
  · obtain ⟨alt, target, halt, hparen, hclean, rfl, -⟩ := h.written hr hfound
    have himage : ¬ "<img".toList <:+: target := hclean _ (by decide)
    have hmark : ¬ "![".toList <:+: trimTarget target := fun hk =>
      hclean _ (by decide) (hk.trans (trimTarget_within target).isInfix)
    exact settledAt_suffix hu hne hmark fun alt' hsuffix =>
      settledAt_trimTarget (fun hc => halt (hsuffix.subset hc)) hparen himage _

/-! ## Sources that stay -/

/-- **A run that is tidy ends in front of the path of an image**, whatever that path is. -/
theorem TidySource.of_path {s path path' : Text} (h : TidySource (s ++ ']' :: '(' :: path))
    (hmarks : ∀ c ∈ path', isQuote c = true → c ∈ path) : TidySource (s ++ ']' :: '(' :: path') := by
  rintro ⟨run, mark, rest⟩ hrun
  obtain ⟨hsplit, hne, hquote, hplain⟩ := quotedRun?_eq_some hrun
  have hplain' : ∀ c ∈ "](".toList, isQuote c = false := by decide
  rcases List.append_eq_append_iff.1 hsplit with ⟨u, rfl, hu⟩ | ⟨u, rfl, hu⟩
  · have hmark : mark ∈ path' := by
      have hmem : mark ∈ "](".toList ++ path' := by
        show mark ∈ ']' :: '(' :: path'
        rw [hu]
        simp
      refine (List.mem_append.1 hmem).resolve_left fun hc => ?_
      rw [hplain' mark hc] at hquote
      cases hquote
    obtain ⟨run', mark', rest', rfl, hquote', hfirst⟩ := exists_quote_split ⟨mark, hmarks mark hmark hquote, hquote⟩
    have hplain'' : ∀ c ∈ s ++ ("](".toList ++ run'), isQuote c = false := by
      intro c hc
      rcases List.mem_append.1 hc with hc | hc
      · exact hplain c (List.mem_append_left u hc)
      · exact (List.mem_append.1 hc).elim (hplain' c) (hfirst c)
    have hrun' := @quotedRun?_append (s ++ ("](".toList ++ run')) rest' mark' (by simp) hplain'' hquote'
    rw [List.append_assoc, List.append_assoc] at hrun'
    have htidy := h (s ++ ("](".toList ++ run'), mark', rest') hrun'
    exact absurd ⟨s, run', List.append_assoc _ _ _⟩ (htidy.clean "](".toList (by decide))
  · cases u with
    | nil =>
      obtain ⟨rfl, -⟩ := List.cons.inj hu
      cases hquote
    | cons c u =>
      obtain ⟨rfl, rfl⟩ := List.cons.inj hu
      rw [List.append_assoc, List.cons_append] at h
      exact h (run, mark, u ++ ']' :: '(' :: path) (quotedRun?_append hne hplain hquote)

/-- **A source that comes out** begins with one of the text. -/
theorem FindsImages.sourceOpening? {key : Text} {m : Matcher} (hm : FindsImages key m) {shape : SourceShape}
    (hs : shape ∈ sourceShapes) {s path : Text} (h : Markup.sourceOpening? shape (substitute m s) = some path) :
    ∃ path', Markup.sourceOpening? shape s = some path' ∧ path = substitute m path' := by
  obtain ⟨start, hstart, he⟩ := exists_sourceKey hs h
  obtain ⟨path', rfl, rfl⟩ := hm.start (fun hc => hstart.plain '!' hc (by decide)) he
  exact ⟨path', hstart.opens path', rfl⟩

/-- **A source that comes out has a path that stays**, if it had one in the text. -/
theorem FindsImages.tidySource {key : Text} {m : Matcher} (hm : FindsImages key m) (hkey : key ∈ sourceKeys)
    {path : Text} (h : TidySource path) : TidySource (substitute m path) := by
  have hkeys : ∀ key ∈ sourceKeys, key ≠ [] ∧ ∀ c ∈ key, isQuote c = false := by decide
  obtain ⟨hne, hquote⟩ := hkeys key hkey
  rintro ⟨run, mark, rest⟩ hrun
  obtain ⟨rest', hrun', -⟩ := hm.quotedRun? hne hquote
    (fun run mark more hrun => (h (run, mark, more) hrun).clean key hkey) hrun
  exact h (run, mark, rest') hrun'

/-- **A source that begins in the text of an image** has a path that ends there, wherever the image leads afterwards. -/
theorem TidySource.redirected {s target rest path : Text} (h : TidySource (s ++ ']' :: '(' :: path))
    (hpath : target ++ ')' :: rest <:+ path) : TidySource (s ++ ']' :: '(' ::
      (imageRoot ++ (trimTarget target ++ ')' :: substitute imageMatcher rest))) := by
  have hroot : ∀ c ∈ imageRoot, c ∈ imageFrame := by decide
  refine h.of_path fun c hc hquote => hpath.subset ?_
  have hown := not_mem_imageFrame hquote
  simp only [List.mem_append, List.mem_cons] at hc
  rcases hc with hc | hc | rfl | hc
  · exact absurd (hroot c hc) hown
  · exact List.mem_append_left _ ((trimTarget_within target).subset hc)
  · exact absurd (by decide) hown
  · exact List.mem_append_right _ (List.mem_cons_of_mem _ (findsImages_imageMatcher.mem hc hown))

/-- **Redirecting images leaves the sources of a tidy text** with paths that stay. -/
theorem Tidy.sources_redirected {s : Text} (h : Tidy s) : TidySources (redirectImages s) := by
  have hm := findsImages_imageMatcher
  intro z hz shape hs path hopening
  rcases suffix_substitute hm.consumes ((List.mem_tails _ _).1 hz) with ⟨r, hr, rfl⟩ | hwithin
  · obtain ⟨path', hpath, rfl⟩ := hm.sourceOpening? hs hopening
    exact hm.tidySource (by decide) (h.sources.tidy hr hs hpath)
  · obtain ⟨r, written, rest, u, hr, hfound, hu, hne, rfl⟩ := hwithin
    obtain ⟨alt, target, -, -, hclean, rfl, more, rfl, hmore⟩ := h.written hr hfound
    obtain ⟨start, hstart, hkey, he⟩ := sourceKey_within hs hu hne hopening
    have hword := hstart.start.trans hkey
    rcases start_in_image (by decide) (by decide) (by decide) hu hword with ⟨alt', halt', rfl⟩ | ⟨t, ht, rfl⟩
    · obtain ⟨alt'', rfl⟩ := start_of_start_append (fun hc => hstart.plain ']' hc (by decide)) hkey
      have hinner : start ++ (alt'' ++ ']' :: '(' :: more) <:+ s := by
        obtain ⟨front, rfl⟩ := halt'
        refine List.IsSuffix.trans ⟨"![".toList ++ front, ?_⟩ hr
        simp
      simp only [List.append_assoc, List.cons_append, List.nil_append, List.append_cancel_left_eq] at he
      subst he
      exact (h.sources.tidy hinner hs (hstart.opens _)).redirected hmore
    · have hwithin : "src=".toList <+: t :=
        start_of_start_append (by decide) hword
      have htarget := ht.isInfix.trans (trimTarget_within target).isInfix
      exact absurd (hwithin.isInfix.trans htarget) (hclean _ (by decide))

end DocFerry.Markup
