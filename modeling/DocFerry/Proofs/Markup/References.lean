import DocFerry.Proofs.Markup.Tags
/-!
# References to assets

What leads to an old asset folder in a reference, and which of the folders it is, is dropped: a reference to an asset
becomes one to the path that the asset has in its folder (`assetPath?_lead`), in an image as well as in the source of
a tag (`redirects`).
-/
namespace DocFerry.Markup

open Text

/-- **A slash, or any number of steps** to the same or the parent folder. -/
inductive IsBase : Text → Prop
  | slash : IsBase ['/']
  | steps {steps : List Text} : (∀ s ∈ steps, s = "./".toList ∨ s = "../".toList) → IsBase steps.flatten

/-- **What may stand before an asset folder** in a reference. -/
structure Lead where
  blanks : Text := []
  base : Text := []
  /-- Whether the site's own prefix stands there. -/
  site : Bool := false
  /-- Whether the folder of all assets stands there. -/
  assets : Bool := false
  isBlank : ∀ c ∈ blanks, isBlank c = true
  isBase : IsBase base

namespace Lead

/-- **What names the folder of an asset**, once blanks and the base are passed. -/
def place (l : Lead) (folder : Text) : Text :=
  (if l.site then "@site/".toList else []) ++ (if l.assets then "static/".toList else []) ++ folder

/-- **A reference to what a folder holds**, up to the path inside it. -/
def reference (l : Lead) (folder : Text) : Text := l.blanks ++ l.base ++ l.place folder

variable (l : Lead) {folder : Text} (h : folder ∈ assetFolders) (s : Text)

include h

theorem place_head : ∃ c rest, l.place folder = c :: rest ∧ c ∈ ['@', 's', 'i', 'a'] := by
  simp only [assetFolders, List.map_cons, List.map_nil, List.mem_cons, List.not_mem_nil, or_false] at h
  unfold place
  rcases h with rfl | rfl | rfl <;> cases l.site <;> cases l.assets <;> exact ⟨_, _, rfl, by decide⟩

theorem folder_of_place :
    assetFolders.findSome? (after? · (dropOptional "static/".toList
      (dropOptional "@site/".toList (l.place folder ++ s)))) = some s := by
  simp only [assetFolders, List.map_cons, List.map_nil, List.mem_cons, List.not_mem_nil, or_false] at h
  unfold place
  rcases h with rfl | rfl | rfl <;> cases l.site <;> cases l.assets <;> rfl

end Lead

theorem IsBase.mem {base : Text} (hb : IsBase base) {c : Char} (hc : c ∈ base) : c ∈ ['.', '/'] := by
  cases hb with
  | slash => exact List.mem_cons_of_mem _ hc
  | @steps steps h =>
    obtain ⟨step, hs, hc⟩ := List.mem_flatten.1 hc
    rcases h step hs with rfl | rfl
    · exact hc
    · exact (by decide : ∀ c ∈ "../".toList, c ∈ ['.', '/']) c hc

/-- **What leads to an asset folder** is made of blanks and of the characters of the folders' names. -/
theorem Lead.mem_reference (l : Lead) {folder : Text} (h : folder ∈ assetFolders) {c : Char}
    (hc : c ∈ l.reference folder) : Text.isBlank c = true ∨ c ∈ "./@siteacmg".toList := by
  have hplace : ∀ folder ∈ assetFolders, ∀ c ∈ "@site/".toList ++ "static/".toList ++ folder,
      c ∈ "./@siteacmg".toList := by decide
  have hbase : ∀ c ∈ ['.', '/'], c ∈ "./@siteacmg".toList := by decide
  simp only [Lead.reference, Lead.place, List.mem_append] at hc
  rcases hc with (hc | hc) | (hc | hc) | hc
  · exact .inl (l.isBlank c hc)
  · exact .inr (hbase c (l.isBase.mem hc))
  · refine .inr (hplace folder h c (List.mem_append_left _ (List.mem_append_left _ ?_)))
    split at hc
    · exact hc
    · cases hc
  · refine .inr (hplace folder h c (List.mem_append_left _ (List.mem_append_right _ ?_)))
    split at hc
    · exact hc
    · cases hc
  · exact .inr (hplace folder h c (List.mem_append_right _ hc))

theorem dropSteps_flatten (s : Text) : ∀ {steps : List Text}, (∀ x ∈ steps, x = "./".toList ∨ x = "../".toList) →
    dropSteps (steps.flatten ++ s) = dropSteps s
  | [], _ => rfl
  | x :: steps, h => by
    obtain ⟨hx, hsteps⟩ := List.forall_mem_cons.1 h
    rw [List.flatten_cons, List.append_assoc]
    rcases hx with rfl | rfl <;> exact dropSteps_flatten s hsteps

theorem dropSteps_of_head {c : Char} (hc : c ∈ ['@', 's', 'i', 'a']) (rest : Text) : dropSteps (c :: rest) = c :: rest := by
  simp only [List.mem_cons, List.not_mem_nil, or_false] at hc
  rcases hc with rfl | rfl | rfl | rfl <;> rfl

theorem dropBase_append {base : Text} (hb : IsBase base) {c : Char} (hc : c ∈ ['@', 's', 'i', 'a']) (rest : Text) :
    dropBase (base ++ c :: rest) = c :: rest := by
  cases hb with
  | slash => rfl
  | @steps steps h =>
    have hdrop : dropBase (steps.flatten ++ c :: rest) = dropSteps (steps.flatten ++ c :: rest) := by
      cases steps with
      | nil =>
        simp only [List.mem_cons, List.not_mem_nil, or_false] at hc
        rcases hc with rfl | rfl | rfl | rfl <;> rfl
      | cons x steps =>
        rcases (List.forall_mem_cons.1 h).1 with rfl | rfl <;> rfl
    rw [hdrop, dropSteps_flatten _ h, dropSteps_of_head hc]

theorem trimStart_append {blanks : Text} (hb : ∀ c ∈ blanks, isBlank c = true) {c : Char} (hc : isBlank c = false)
    (rest : Text) : trimStart (blanks ++ c :: rest) = c :: rest := by
  rw [trimStart, List.dropWhile_append_of_pos hb, List.dropWhile_cons_of_neg (by simpa using hc)]

theorem IsBase.head {base : Text} (hb : IsBase base) {c : Char} (hc : c ∈ ['@', 's', 'i', 'a']) (rest : Text) :
    ∃ c' rest', base ++ c :: rest = c' :: rest' ∧ isBlank c' = false := by
  cases hb with
  | slash => exact ⟨_, _, rfl, by decide⟩
  | @steps steps h =>
    cases steps with
    | nil =>
      refine ⟨c, rest, rfl, ?_⟩
      simp only [List.mem_cons, List.not_mem_nil, or_false] at hc
      rcases hc with rfl | rfl | rfl | rfl <;> decide
    | cons x steps =>
      rcases (List.forall_mem_cons.1 h).1 with rfl | rfl <;> exact ⟨_, _, rfl, by decide⟩

/-- **What leads to an asset folder is dropped**, and which folder it is. -/
theorem assetPath?_lead (l : Lead) {folder : Text} (h : folder ∈ assetFolders) (s : Text) :
    assetPath? (l.reference folder ++ s) = some s := by
  obtain ⟨c, rest, hplace, hc⟩ := l.place_head h
  obtain ⟨c', rest', hhead, hblank⟩ := l.isBase.head hc (rest ++ s)
  have hsplit : l.reference folder ++ s = l.blanks ++ (l.base ++ c :: (rest ++ s)) := by
    simp [Lead.reference, hplace]
  have hdropped : dropBase (trimStart (l.reference folder ++ s)) = l.place folder ++ s := by
    rw [hsplit, hhead, trimStart_append l.isBlank hblank, ← hhead, dropBase_append l.isBase hc, hplace]
    rfl
  rw [assetPath?, hdropped]
  exact l.folder_of_place h s

/-! ## The shapes of a reference -/

/-- **A reference in an image** is led to the path of its asset. -/
theorem markdownReference?_lead (l : Lead) {folder : Text} (h : folder ∈ assetFolders) {alt target : Text}
    (halt : ']' ∉ alt) (ht : ')' ∉ target) (hne : target ≠ []) (rest : Text) :
    markdownReference? ("![".toList ++ (alt ++ ']' :: '(' :: (l.reference folder ++ (target ++ ')' :: rest)))) =
      some (alt, trimTarget target, rest) := by
  have hstart : after? "![".toList ("![".toList ++ (alt ++ ']' :: '(' :: (l.reference folder ++ (target ++ ')' :: rest)))) =
      some (alt ++ ']' :: '(' :: (l.reference folder ++ (target ++ ')' :: rest))) := after?_eq_some_iff.2 rfl
  have hparen : after? ['('] ('(' :: (l.reference folder ++ (target ++ ')' :: rest))) =
      some (l.reference folder ++ (target ++ ')' :: rest)) := after?_eq_some_iff.2 rfl
  unfold markdownReference?
  rw [hstart, Option.bind_some, cutAt?_singleton ']' _ halt, Option.bind_eq_bind, Option.bind_some]
  dsimp only
  rw [hparen, Option.bind_some, assetPath?_lead l h, Option.bind_eq_bind, Option.bind_some,
    cutAt?_singleton ')' rest ht, Option.bind_some]
  dsimp only
  rw [if_neg (by simpa using hne)]

theorem source?_value (shape : SourceShape) (l : Lead) {folder : Text} (h : folder ∈ assetFolders) {target : Text}
    {mark mark' : Char} (hmark : isQuote mark = true) (hmark' : isQuote mark' = true)
    (ht : ∀ c ∈ target, isQuote c = false) (hne : target ≠ []) (rest : Text) :
    shape.source? ("src=".toList ++ shape.opener ++ mark :: (l.reference folder ++ (target ++ mark' :: rest))) =
      ((after? shape.closer rest).bind tagEnd?).map fun e => (target, e.2) := by
  have hstart : ∀ s, after? ("src=".toList ++ shape.opener) ("src=".toList ++ shape.opener ++ s) = some s := fun s =>
    after?_eq_some_iff.2 rfl
  have hquote : ∀ s, quote? (mark :: s) = some s := fun s => by rw [quote?, if_pos hmark]
  unfold SourceShape.source?
  rw [hstart, Option.bind_some, hquote, Option.bind_eq_bind, Option.bind_some, assetPath?_lead l h, Option.bind_some,
    quotedRun?_append hne ht hmark', Option.bind_eq_bind, Option.bind_some, Option.map_eq_bind]
  rfl

/-- **A source of any shape in a tag** is led to the path of its asset. -/
theorem source?_lead (shape : SourceShape) (l : Lead) {folder : Text} (h : folder ∈ assetFolders) {target attributes : Text}
    {mark mark' : Char} (hmark : isQuote mark = true) (hmark' : isQuote mark' = true)
    (ht : ∀ c ∈ target, isQuote c = false) (hne : target ≠ []) (ha : '>' ∉ attributes) (rest : Text) :
    shape.source? ("src=".toList ++ shape.opener ++
      mark :: (l.reference folder ++ (target ++ mark' :: (shape.closer ++ (attributes ++ '>' :: rest))))) =
      some (target, rest) := by
  have hcloser : ∀ s, after? shape.closer (shape.closer ++ s) = some s := fun s => after?_eq_some_iff.2 rfl
  rw [source?_value shape l h hmark hmark' ht hne, hcloser, Option.bind_some, tagEnd?, cutAt?_singleton '>' rest ha,
    Option.map_some]

/-- **A folder whose references are led away**: to an asset in it every reference, in an image or in the source of a
tag, becomes one to the path of the asset alone. -/
def Redirects (folder target : Text) : Prop :=
  ∀ l : Lead,
    (∀ alt rest : Text, ']' ∉ alt → ')' ∉ target → trimTarget target = target →
      markdownReference? ("![".toList ++ (alt ++ ']' :: '(' :: (l.reference folder ++ (target ++ ')' :: rest)))) =
        some (alt, target, rest)) ∧
    ∀ shape ∈ sourceShapes, ∀ (mark mark' : Char) (attributes rest : Text), isQuote mark = true → isQuote mark' = true →
      (∀ c ∈ target, isQuote c = false) → '>' ∉ attributes →
      shape.source? ("src=".toList ++ shape.opener ++
        mark :: (l.reference folder ++ (target ++ mark' :: (shape.closer ++ (attributes ++ '>' :: rest))))) =
          some (target, rest)

theorem redirects {folder target : Text} (h : folder ∈ assetFolders) (hne : target ≠ []) : Redirects folder target :=
  fun l =>
    ⟨fun _ rest halt ht htrim => by rw [markdownReference?_lead l h halt ht hne rest, htrim],
      fun shape _ _ _ _ rest hmark hmark' ht ha => source?_lead shape l h hmark hmark' ht hne ha rest⟩

end DocFerry.Markup
