import DocFerry.Proofs.Config.Unprintable
import DocFerry.Proofs.Text.Trimming
/-!
# What the sections of a configuration say

A section has a form in which it is accepted: lists of links in which every link has a label and a target that can be
seen, and the like.  A reader of a section accepts exactly what has this form, gives every part of it once, trimmed and
in its place, and else reports the first fault in the order of the fields (`Accepts`).
-/
namespace DocFerry.Config

open Text Value

variable {α β : Type}

/-! ## The first fault -/

/-- **A result with the faults that stand against it**, of which the first is reported. -/
def judged : List Fault → α → Except Fault α
  | [], a => .ok a
  | fault :: _, _ => .error fault

/-- **Faults of one step** stand before those of the next. -/
theorem judged_bind {faults more : List Fault} {a : α} {b : β} {next : α → Except Fault β}
    (h : next a = judged more b) : judged faults a >>= next = judged (faults ++ more) b := by
  cases faults with
  | nil => exact h
  | cons fault faults => rfl

theorem judged_map (faults : List Fault) (a : α) (f : α → β) : (judged faults a).map f = judged faults (f a) := by
  cases faults <;> rfl

/-! ## Texts -/

/-- **What a value shows as a text**: its printed form trimmed, nothing if nothing is left. -/
def shown? : Value → Option Text
  | .null => none
  | v => (some (trim v.print)).filter (!·.isEmpty)

theorem shown?_of_ne_null {v : Value} (h : v ≠ .null) : shown? v = (some (trim v.print)).filter (!·.isEmpty) := by
  unfold shown?
  split
  · exact absurd rfl h
  · rfl

theorem printed_eq {v : Value} (h : v.isLong = false) : printed v = .ok v.print := by
  rw [printed, print?, h]
  rfl

theorem text?_eq {v : Value} (h : v.isLong = false) : text? v = .ok (shown? v) := by
  unfold text?
  split
  · rfl
  · rename_i hnull
    rw [printed_eq h, shown?_of_ne_null hnull]
    rfl

/-- **A value that shows something as a text.** -/
def Shows (v : Value) : Prop := v ≠ .null ∧ ¬ IsBlankText v.print

/-- **What a field shows as a text.** -/
def shownField? (name : String) (entries : Entries) : Option Text := (field? name entries).bind shown?

/-- **The fault of a field that is missing or blank.** -/
def missingFaults (name : String) (place : Text) (entries : Entries) : List Fault :=
  if (shownField? name entries).isSome then [] else [.missing place name]

section Texts

variable {entries : Entries} (h : anyLongEntry entries = false)

include h

theorem isLong_of_field {name : String} {v : Value} (hv : field? name entries = some v) : v.isLong = false :=
  Bool.eq_false_iff.2 fun hlong => by simp [anyLongEntry_of_field hv hlong] at h

theorem optionalText_eq (name : String) : optionalText name entries = .ok (shownField? name entries) := by
  unfold optionalText shownField?
  cases hv : field? name entries with
  | none => rfl
  | some v => exact text?_eq (isLong_of_field h hv)

theorem requiredText_eq (name : String) (place : Text) :
    requiredText name place entries =
      judged (missingFaults name place entries) ((shownField? name entries).getD []) := by
  rw [requiredText, optionalText_eq h, missingFaults]
  cases shownField? name entries <;> rfl

end Texts

/-! ## Mappings and lists -/

/-- **What is given**, nothing if it is null. -/
def given? : Option Value → Option Value
  | some .null => none
  | v? => v?

theorem given?_some {v : Value} (h : v ≠ .null) : given? (some v) = some v := by
  cases v with
  | null => exact absurd rfl h
  | _ => rfl

theorem given?_eq_some {v? : Option Value} {v : Value} (h : given? v? = some v) : v? = some v := by
  unfold given? at h
  split at h
  · cases h
  · exact h

/-- **The faults of what is given**, none if nothing is. -/
def givenFaults (faults : Value → List Fault) (v? : Option Value) : List Fault := (given? v?).elim [] faults

theorem judged_of_given (read : Option Value → Except Fault α) {faults : Value → List Fault} {content : Value → α}
    {standard : α} (hnone : read none = .ok standard) (hnull : read (some .null) = .ok standard) {v? : Option Value}
    (h : ∀ v, v ≠ .null → v? = some v → read (some v) = judged (faults v) (content v)) :
    read v? = judged (givenFaults faults v?) ((given? v?).elim standard content) := by
  cases v? with
  | none => exact hnone
  | some v =>
    by_cases hv : v = .null
    · subst hv
      exact hnull
    · rw [givenFaults, given?_some hv]
      exact h v hv rfl

/-- **The entries of what is given**, none if it has none. -/
def entriesOf (v? : Option Value) : Entries := (given? v?).elim [] fun v => v.entries?.getD []

/-- **The items of what is given**, none if it has none. -/
def itemsOf (v? : Option Value) : List Value := (given? v?).elim [] fun v => v.items?.getD []

/-- **The fault of what is neither null nor a mapping.** -/
def mappingFaults (place : Text) : Option Value → List Fault :=
  givenFaults fun v => if v.entries?.isSome then [] else [.notMapping place]

/-- **The fault of what is neither null nor a list.** -/
def listFaults (place : Text) : Option Value → List Fault :=
  givenFaults fun v => if v.items?.isSome then [] else [.notList place]

theorem mapping_eq (place : Text) (v? : Option Value) :
    mapping place v? = judged (mappingFaults place v?) (entriesOf v?) :=
  judged_of_given (mapping place) rfl rfl fun v hnull _ => by
    unfold mapping
    split
    · rename_i hv
      cases hv
    · rename_i hv
      exact absurd (Option.some.inj hv) hnull
    · rename_i hv
      obtain rfl := Option.some.inj hv
      cases v.entries? <;> rfl

theorem items_eq (place : Text) (v? : Option Value) : items place v? = judged (listFaults place v?) (itemsOf v?) :=
  judged_of_given (items place) rfl rfl fun v hnull _ => by
    unfold items
    split
    · rename_i hv
      cases hv
    · rename_i hv
      exact absurd (Option.some.inj hv) hnull
    · rename_i hv
      obtain rfl := Option.some.inj hv
      cases v.items? <;> rfl

/-- **A value of which every part can be printed**, where it is given at all. -/
def Printable (v? : Option Value) : Prop := ∀ v, v? = some v → v.isLong = false

theorem printable_field {entries : Entries} (h : anyLongEntry entries = false) (name : String) :
    Printable (field? name entries) := fun _ hv => isLong_of_field h hv

theorem anyLongEntry_entriesOf {v? : Option Value} (h : Printable v?) : anyLongEntry (entriesOf v?) = false := by
  unfold entriesOf
  cases hv : given? v? with
  | none => rfl
  | some v =>
    rw [Option.elim_some]
    cases he : v.entries? with
    | none => rfl
    | some entries =>
      exact Bool.eq_false_iff.2 fun hlong => by simpa [isLong_of_entries he hlong] using h v (given?_eq_some hv)

theorem isLong_itemsOf {v? : Option Value} (h : Printable v?) : ∀ w ∈ itemsOf v?, w.isLong = false := by
  unfold itemsOf
  cases hv : given? v? with
  | none => simp
  | some v =>
    rw [Option.elim_some]
    cases hi : v.items? with
    | none => simp
    | some vs =>
      exact fun w hw => Bool.eq_false_iff.2 fun hlong => by
        simpa [isLong_of_items hi (anyLong_iff.2 ⟨w, hw, hlong⟩)] using h v (given?_eq_some hv)

/-- The faults of items, one after another, with their places. -/
def faultsFrom (faults : Text → Value → List Fault) (place : Text) : (index : Nat) → List Value → List Fault
  | _, [] => []
  | index, v :: vs => faults (itemPlace place index) v ++ faultsFrom faults place (index + 1) vs

theorem readItemsFrom_eq {read : Text → Value → Except Fault α} {faults : Text → Value → List Fault}
    {content : Value → α} {place : Text}
    (h : ∀ place v, v.isLong = false → read place v = judged (faults place v) (content v)) :
    ∀ (index : Nat) {vs : List Value}, (∀ v ∈ vs, v.isLong = false) →
      readItemsFrom read place index vs = judged (faultsFrom faults place index vs) (vs.map content)
  | _, [], _ => rfl
  | index, v :: vs, hvs => by
    rw [List.forall_mem_cons] at hvs
    rw [readItemsFrom, h _ v hvs.1]
    refine judged_bind ?_
    rw [readItemsFrom_eq h (index + 1) hvs.2]
    exact judged_map ..

/-- **The faults of a list** and of its items. -/
def itemsFaults (faults : Text → Value → List Fault) (place : Text) (v? : Option Value) : List Fault :=
  listFaults place v? ++ faultsFrom faults place 0 (itemsOf v?)

theorem readItems_eq {read : Text → Value → Except Fault α} {faults : Text → Value → List Fault} {content : Value → α}
    (hread : ∀ place v, v.isLong = false → read place v = judged (faults place v) (content v)) (place : Text)
    {v? : Option Value} (h : Printable v?) :
    readItems read place v? = judged (itemsFaults faults place v?) ((itemsOf v?).map content) := by
  rw [readItems, items_eq]
  exact judged_bind (readItemsFrom_eq hread 0 (isLong_itemsOf h))

/-! ## Links -/

def linkOf (v : Value) : Link where
  label := (shownField? "label" (entriesOf (some v))).getD []
  href := (shownField? "href" (entriesOf (some v))).getD []

def linkFaults (place : Text) (v : Value) : List Fault :=
  mappingFaults place (some v) ++ (missingFaults "label" place (entriesOf (some v)) ++
    missingFaults "href" place (entriesOf (some v)))

theorem anyLongEntry_entries {v : Value} (h : v.isLong = false) : anyLongEntry (entriesOf (some v)) = false :=
  anyLongEntry_entriesOf fun _ hv => Option.some.inj hv ▸ h

theorem readLink_eq (place : Text) (v : Value) (h : v.isLong = false) :
    readLink place v = judged (linkFaults place v) (linkOf v) := by
  have hentries := anyLongEntry_entries h
  rw [readLink, mapping_eq]
  refine judged_bind ?_
  rw [requiredText_eq hentries]
  refine judged_bind ?_
  rw [requiredText_eq hentries]
  exact judged_map ..

def linksOf (v? : Option Value) : List Link := (itemsOf v?).map linkOf

def linksFaults : Text → Option Value → List Fault := itemsFaults linkFaults

theorem readLinks_eq (place : Text) {v? : Option Value} (h : Printable v?) :
    readLinks place v? = judged (linksFaults place v?) (linksOf v?) := readItems_eq readLink_eq place h

/-! ## What a section accepts -/

def buttonOf (v : Value) : Button where
  kind := (shownField? "type" (entriesOf (some v))).getD "button".toList
  label := (linkOf v).label
  href := (linkOf v).href

def navbarOf (entries : Entries) : Navbar where
  links := linksOf (field? "links" entries)
  primary := (given? (field? "primary" entries)).map buttonOf

def navbarFaults (entries : Entries) : List Fault :=
  givenFaults (linkFaults "navbar.primary".toList) (field? "primary" entries) ++
    linksFaults "navbar.links".toList (field? "links" entries)

theorem readButton_eq {v : Value} (h : v.isLong = false) :
    readButton v = judged (linkFaults "navbar.primary".toList v) (buttonOf v) := by
  have hentries := anyLongEntry_entries h
  rw [readButton, mapping_eq]
  refine judged_bind ?_
  rw [requiredText_eq hentries]
  refine judged_bind ?_
  rw [requiredText_eq hentries, optionalText_eq hentries]
  exact judged_map ..

theorem readNavbar_eq {entries : Entries} (h : anyLongEntry entries = false) :
    readNavbar entries = judged (navbarFaults entries) (navbarOf entries) := by
  unfold readNavbar
  extract_lets read
  -- the links are read in the same way whether a button was read before them or not
  have hread : ∀ primary, read primary = judged (linksFaults "navbar.links".toList (field? "links" entries))
      ⟨linksOf (field? "links" entries), primary⟩ := fun primary => by
    show readLinks _ _ >>= _ = _
    rw [readLinks_eq _ (printable_field h "links")]
    exact judged_map ..
  rw [navbarFaults, navbarOf]
  split
  · rename_i hprimary
    rw [hprimary]
    exact hread none
  · rename_i hprimary
    rw [hprimary]
    exact hread none
  · rename_i v hnull hprimary
    rw [hprimary, givenFaults, given?_some hnull, readButton_eq (isLong_of_field h hprimary), judged_map]
    exact judged_bind (hread _)

/-! ## The footer -/

def columnOf (v : Value) : LinkColumn where
  header := (shownField? "header" (entriesOf (some v))).getD []
  items := linksOf (field? "items" (entriesOf (some v)))

def columnFaults (place : Text) (v : Value) : List Fault :=
  mappingFaults place (some v) ++ (missingFaults "header" place (entriesOf (some v)) ++
    linksFaults (place ++ ".items".toList) (field? "items" (entriesOf (some v))))

theorem readColumn_eq (place : Text) (v : Value) (h : v.isLong = false) :
    readColumn place v = judged (columnFaults place v) (columnOf v) := by
  have hentries := anyLongEntry_entries h
  rw [readColumn, mapping_eq]
  refine judged_bind ?_
  rw [requiredText_eq hentries]
  refine judged_bind ?_
  rw [readLinks_eq _ (printable_field hentries "items")]
  exact judged_map ..

/-- **The profiles that show something**, each under the printed form of its key. -/
def socialsOf (entries : Entries) : List (Text × Text) := entries.filterMap fun e => (shown? e.2).map (e.1.print, ·)

def footerOf (entries : Entries) : Footer where
  socials := Table.ofEntries (socialsOf (entriesOf (field? "socials" entries)))
  links := (itemsOf (field? "links" entries)).map columnOf

def footerFaults (entries : Entries) : List Fault :=
  mappingFaults "footer.socials".toList (field? "socials" entries) ++
    itemsFaults columnFaults "footer.links".toList (field? "links" entries)

theorem readSocials_eq : ∀ {entries : Entries}, anyLongEntry entries = false →
    readSocials entries = .ok (socialsOf entries)
  | [], _ => rfl
  | (key, v) :: entries, h => by
    simp only [anyLongEntry, Bool.or_eq_false_iff] at h
    have hcons : socialsOf ((key, v) :: entries) = ((shown? v).map (key.print, ·)).toList ++ socialsOf entries := by
      rw [socialsOf, List.filterMap_cons]
      cases shown? v <;> rfl
    rw [readSocials, text?_eq h.1.2, readSocials_eq h.2, hcons]
    cases shown? v with
    | none => rfl
    | some s =>
      show (printed key >>= fun name => Except.ok ((name, s) :: socialsOf entries)) = _
      rw [printed_eq h.1.1]
      rfl

theorem readFooter_eq {entries : Entries} (h : anyLongEntry entries = false) :
    readFooter entries = judged (footerFaults entries) (footerOf entries) := by
  rw [readFooter, mapping_eq]
  refine judged_bind ?_
  rw [readSocials_eq (anyLongEntry_entriesOf (printable_field h "socials")),
    readItems_eq readColumn_eq _ (printable_field h "links")]
  exact judged_map ..

/-! ## The keyword tables -/

end DocFerry.Config
