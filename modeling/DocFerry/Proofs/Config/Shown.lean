import DocFerry.Nav.Manifest
import DocFerry.Proofs.Config.Sections
/-!
# Sections as the manifest shows them

The manifest shows a navigation bar and a footer as objects of texts.  Every text that a reader of sections gives is
trimmed and shows something, and the profiles of a footer are a table of them, so what is shown is read as the same
section again (`sections_read_back`).
-/
namespace DocFerry.Config

open Text Value

/-! ## Data as values -/

namespace Value

mutual

/-- **The value of data**: objects are mappings with texts as keys. -/
def ofJson : Json → Value
  | .null => .null
  | .bool b => .bool b
  | .int i => .int i
  | .number x => .number x
  | .text s => .text s
  | .array items => .list (ofItems items)
  | .object fields => .map (ofFields fields)

def ofItems : List Json → List Value
  | [] => []
  | j :: rest => ofJson j :: ofItems rest

def ofFields : List (Text × Json) → Entries
  | [] => []
  | (key, j) :: rest => (.text key, ofJson j) :: ofFields rest

end

theorem ofItems_map {α : Type} (f : α → Json) : ∀ as : List α, ofItems (as.map f) = as.map fun a => ofJson (f a)
  | [] => rfl
  | a :: as => by rw [List.map_cons, ofItems, ofItems_map f as, List.map_cons]

theorem ofFields_map {α : Type} (key : α → Text) (f : α → Json) : ∀ as : List α,
    ofFields (as.map fun a => (key a, f a)) = as.map fun a => (.text (key a), ofJson (f a))
  | [] => rfl
  | a :: as => by rw [List.map_cons, ofFields, ofFields_map key f as, List.map_cons]

/-- The entries of an object with keys that are words of this library. -/
def ofRecord (fields : List (String × Json)) : Entries := fields.map fun f => (.text f.1.toList, ofJson f.2)

theorem ofJson_record (fields : List (String × Json)) : ofJson (.record fields) = .map (ofRecord fields) := by
  rw [Json.record, ofJson, ofFields_map]
  rfl

theorem field?_ofRecord (name : String) : ∀ fields : List (String × Json),
    field? name (ofRecord fields) = (fields.lookup name).map ofJson
  | [] => rfl
  | (key, j) :: fields => by
    have ih := field?_ofRecord name fields
    have hkey : (Value.text key.toList == Value.text name.toList) = (name == key) := by
      rw [show (Value.text key.toList == Value.text name.toList) = (key.toList == name.toList) from sameKey_text ..,
        Bool.eq_iff_iff, beq_iff_eq, beq_iff_eq, String.toList_inj, eq_comm]
    rw [field?] at ih ⊢
    rw [ofRecord, List.map_cons, Table.get?, hkey, List.lookup_cons]
    cases hn : name == key
    · exact ih
    · rfl

end Value

/-- **The entries of data** that is an object. -/
def shownEntries (j : Json) : Entries := (Value.ofJson j).entries?.getD []

theorem shownEntries_record (fields : List (String × Json)) :
    shownEntries (.record fields) = Value.ofRecord fields := by
  rw [shownEntries, Value.ofJson_record]
  rfl

theorem mapping_record (place : Text) (fields : List (String × Json)) :
    mapping place (some (Value.ofJson (.record fields))) = .ok (Value.ofRecord fields) := by
  rw [Value.ofJson_record]
  rfl

/-! ## Texts that are given -/

/-- **A text as a reader gives it**: trimmed, and something is left. -/
def Settled (s : Text) : Prop := trim s = s ∧ s ≠ []

/-- **A reader that gives only results of a kind.** -/
def Gives {α : Type} (Q : α → Prop) (x : Except Fault α) : Prop := Yields (fun _ => True) Q x

theorem Settled.text? {s : Text} (h : Settled s) : text? (.text s) = .ok (some s) := by
  show Except.ok ((some (trim s)).filter (!·.isEmpty)) = _
  rw [h.1]
  simp [h.2]

theorem gives_text? (v : Value) : Gives (fun s? => ∀ s ∈ s?, Settled s) (text? v) := by
  unfold text?
  split
  · simp [Gives, Yields]
  · refine Yields.map (Q := fun _ => True) (by cases printed v <;> trivial) fun p _ s hs => ?_
    rw [Option.mem_def, Option.filter_eq_some_iff] at hs
    obtain ⟨hp, hne⟩ := hs
    obtain rfl := Option.some.inj hp
    exact ⟨trim_trim p, by simpa using hne⟩

theorem gives_optionalText (name : String) (entries : Entries) :
    Gives (fun s? => ∀ s ∈ s?, Settled s) (optionalText name entries) := by
  unfold optionalText
  split
  · exact gives_text? _
  · simp [Gives, Yields]

theorem gives_requiredText (name : String) (place : Text) (entries : Entries) :
    Gives Settled (requiredText name place entries) := by
  refine (gives_optionalText name entries).bind fun s? h => ?_
  cases s? with
  | some s => exact h s rfl
  | none => trivial

theorem gives_readItemsFrom {α : Type} {Q : α → Prop} {read : Text → Value → Except Fault α} {place : Text}
    (hread : ∀ place v, Gives Q (read place v)) : ∀ (index : Nat) (vs : List Value),
      Gives (fun as => ∀ a ∈ as, Q a) (readItemsFrom read place index vs)
  | _, [] => List.forall_mem_nil _
  | index, v :: vs => by
    refine (hread _ v).bind fun a ha => ?_
    exact (gives_readItemsFrom hread (index + 1) vs).bind fun as has => List.forall_mem_cons.2 ⟨ha, has⟩

theorem gives_readItems {α : Type} {Q : α → Prop} {read : Text → Value → Except Fault α} {place : Text}
    (hread : ∀ place v, Gives Q (read place v)) (v? : Option Value) :
    Gives (fun as => ∀ a ∈ as, Q a) (readItems read place v?) :=
  Yields.bind (Q := fun _ => True) (by cases items place v? <;> trivial) fun vs _ => gives_readItemsFrom hread 0 vs

theorem readItemsFrom_shown {α : Type} {read : Text → Value → Except Fault α} {place : Text} {shown : α → Value} :
    ∀ (index : Nat) {as : List α}, (∀ a ∈ as, ∀ place, read place (shown a) = .ok a) →
      readItemsFrom read place index (as.map shown) = .ok as
  | _, [], _ => rfl
  | index, a :: as, h => by
    rw [List.forall_mem_cons] at h
    rw [List.map_cons, readItemsFrom, h.1, readItemsFrom_shown (index + 1) h.2]
    rfl

theorem readItems_shown {α : Type} {read : Text → Value → Except Fault α} {place : Text} {f : α → Json} {as : List α}
    (h : ∀ a ∈ as, ∀ place, read place (Value.ofJson (f a)) = .ok a) :
    readItems read place (some (Value.ofJson (.array (as.map f)))) = .ok as := by
  rw [Value.ofJson, Value.ofItems_map]
  exact readItemsFrom_shown 0 h

/-! ## Links -/

/-- **A link as a reader gives it.** -/
def Link.Settled (l : Link) : Prop := Config.Settled l.label ∧ Config.Settled l.href

theorem gives_mapping (place : Text) (v? : Option Value) : Gives (fun _ => True) (mapping place v?) := by
  cases mapping place v? <;> trivial

theorem gives_readLink (place : Text) (v : Value) : Gives Link.Settled (readLink place v) := by
  refine (gives_mapping place (some v)).bind fun entries _ => ?_
  refine (gives_requiredText _ _ entries).bind fun label hlabel => ?_
  exact (gives_requiredText _ _ entries).bind fun href hhref => ⟨hlabel, hhref⟩

/-- **A field that is shown** is read as its text. -/
theorem requiredText_shown {name : String} {fields : List (String × Json)} {s : Text} (hs : Settled s)
    (hfield : fields.lookup name = some (.text s)) (place : Text) :
    requiredText name place (Value.ofRecord fields) = .ok s := by
  rw [requiredText, optionalText, Value.field?_ofRecord, hfield]
  show ((text? (.text s)) >>= _) = _
  rw [hs.text?]
  rfl

theorem readLink_shown {l : Link} (h : l.Settled) (place : Text) :
    readLink place (Value.ofJson (Nav.linkJson l)) = .ok l := by
  rw [readLink, Nav.linkJson, mapping_record]
  show (requiredText "label" place (Value.ofRecord _) >>= _) = _
  rw [requiredText_shown h.1 rfl]
  show (requiredText "href" place (Value.ofRecord _) >>= _) = _
  rw [requiredText_shown h.2 rfl]
  rfl

theorem readLinks_shown {ls : List Link} (h : ∀ l ∈ ls, l.Settled) (place : Text) :
    readLinks place (some (Value.ofJson (.array (ls.map Nav.linkJson)))) = .ok ls :=
  readItems_shown fun l hl place => readLink_shown (h l hl) place

/-! ## The navigation bar -/

/-- **A button as a reader gives it.** -/
def Button.Settled (b : Button) : Prop := Config.Settled b.kind ∧ Config.Settled b.label ∧ Config.Settled b.href

/-- **A navigation bar as a reader gives it.** -/
def Navbar.Settled (n : Navbar) : Prop := (∀ l ∈ n.links, l.Settled) ∧ ∀ b ∈ n.primary, b.Settled

theorem gives_readButton (v : Value) : Gives Button.Settled (readButton v) := by
  refine (gives_mapping _ (some v)).bind fun entries _ => ?_
  refine (gives_requiredText _ _ entries).bind fun label hlabel => ?_
  refine (gives_requiredText _ _ entries).bind fun href hhref => ?_
  refine (gives_optionalText _ entries).bind fun kind hkind => ⟨?_, hlabel, hhref⟩
  cases kind with
  | none => exact show Config.Settled "button".toList from ⟨by decide, by decide⟩
  | some kind => exact hkind kind rfl

theorem gives_readNavbar (entries : Entries) : Gives Navbar.Settled (readNavbar entries) := by
  unfold readNavbar
  extract_lets read
  have hread : ∀ primary : Option Button, (∀ b ∈ primary, b.Settled) → Gives Navbar.Settled (read primary) :=
    fun _ hprimary => (gives_readItems gives_readLink _).bind fun _ hlinks => ⟨hlinks, hprimary⟩
  split
  · exact hread none nofun
  · exact hread none nofun
  · rename_i v _ _
    have hbutton : Gives (fun p => ∀ b ∈ p, Button.Settled b) ((readButton v).map some) :=
      Yields.map (gives_readButton v) fun b hb c hc => Option.some.inj hc ▸ hb
    exact hbutton.bind hread

theorem readButton_shown {b : Button} (h : b.Settled) :
    readButton (Value.ofJson (.record [("type", .text b.kind), ("label", .text b.label), ("href", .text b.href)])) =
      .ok b := by
  obtain ⟨hkind, hlabel, hhref⟩ := h
  rw [readButton, mapping_record]
  show (requiredText "label" _ (Value.ofRecord _) >>= _) = _
  rw [requiredText_shown hlabel rfl]
  show (requiredText "href" _ (Value.ofRecord _) >>= _) = _
  rw [requiredText_shown hhref rfl]
  show (optionalText "type" (Value.ofRecord _) >>= _) = _
  rw [optionalText, Value.field?_ofRecord]
  show (text? (.text b.kind) >>= _) = _
  rw [hkind.text?]
  rfl

theorem readNavbar_shown {n : Navbar} (h : n.Settled) : readNavbar (shownEntries (Nav.navbarJson n)) = .ok n := by
  obtain ⟨links, primary⟩ := n
  have hlinks := readLinks_shown h.1 "navbar.links".toList
  rw [readNavbar, Nav.navbarJson, shownEntries_record, Value.field?_ofRecord, Value.field?_ofRecord]
  cases primary with
  | none =>
    show (readLinks _ (some (Value.ofJson (.array (links.map Nav.linkJson)))) >>= _) = _
    rw [hlinks]
    rfl
  | some b =>
    show ((readButton (Value.ofJson (.record _))).map some >>= _) = _
    rw [readButton_shown (h.2 b rfl)]
    show (readLinks _ (some (Value.ofJson (.array (links.map Nav.linkJson)))) >>= _) = _
    rw [hlinks]
    rfl

/-! ## The footer -/

/-- **A column as a reader gives it.** -/
def LinkColumn.Settled (c : LinkColumn) : Prop := Config.Settled c.header ∧ ∀ l ∈ c.items, l.Settled

/-- **A footer as a reader gives it**: no name of a profile stands twice. -/
def Footer.Settled (f : Footer) : Prop :=
  (Table.keys f.socials).Nodup ∧ (∀ e ∈ f.socials, Config.Settled e.2) ∧ ∀ c ∈ f.links, c.Settled

theorem gives_readColumn (place : Text) (v : Value) : Gives LinkColumn.Settled (readColumn place v) := by
  refine (gives_mapping place (some v)).bind fun entries _ => ?_
  refine (gives_requiredText _ _ entries).bind fun header hheader => ?_
  exact (gives_readItems gives_readLink _).bind fun items hitems => ⟨hheader, hitems⟩

theorem gives_readSocials : ∀ entries : Entries, Gives (fun es => ∀ e ∈ es, Settled e.2) (readSocials entries)
  | [] => List.forall_mem_nil _
  | (key, v) :: entries => by
    refine (gives_text? v).bind fun s? hs => ?_
    cases s? with
    | none => exact gives_readSocials entries
    | some s =>
      refine Yields.bind (Q := fun _ => True) (by cases printed key <;> trivial) fun name _ => ?_
      exact (gives_readSocials entries).map fun es hes => List.forall_mem_cons.2 ⟨hs s rfl, hes⟩

theorem gives_readFooter (entries : Entries) : Gives Footer.Settled (readFooter entries) := by
  refine (gives_mapping _ _).bind fun given _ => (gives_readSocials given).bind fun socials hsocials => ?_
  refine (gives_readItems gives_readColumn _).bind fun columns hcolumns => ?_
  refine ⟨Table.nodup_keys_ofEntries socials, fun e he => ?_, hcolumns⟩
  -- where names look alike the last value is kept, so every value of the table is one that was read
  obtain ⟨entry, hentry, hvalue⟩ := Table.mem_values_ofEntries he
  exact hvalue ▸ hsocials entry hentry

theorem readColumn_shown {c : LinkColumn} (h : c.Settled) (place : Text) :
    readColumn place (Value.ofJson (Nav.columnJson c)) = .ok c := by
  rw [readColumn, Nav.columnJson, mapping_record]
  show (requiredText "header" place (Value.ofRecord _) >>= _) = _
  rw [requiredText_shown h.1 rfl]
  show (readLinks _ (field? "items" (Value.ofRecord _)) >>= _) = _
  rw [Value.field?_ofRecord]
  show (readLinks _ (some (Value.ofJson (.array (c.items.map Nav.linkJson)))) >>= _) = _
  rw [readLinks_shown h.2]
  rfl

theorem readSocials_shown : ∀ {es : List (Text × Text)}, (∀ e ∈ es, Settled e.2) →
    readSocials (Value.ofFields (es.map fun e => (e.1, .text e.2))) = .ok es
  | [], _ => rfl
  | (name, s) :: es, h => by
    rw [List.forall_mem_cons] at h
    rw [List.map_cons, Value.ofFields, readSocials, Value.ofJson, h.1.text?, readSocials_shown h.2]
    rfl

theorem readFooter_shown {f : Footer} (h : f.Settled) : readFooter (shownEntries (Nav.footerJson f)) = .ok f := by
  obtain ⟨hkeys, hsocials, hcolumns⟩ := h
  have hcolumn : ∀ c ∈ f.links, ∀ place, readColumn place (Value.ofJson (Nav.columnJson c)) = .ok c :=
    fun c hc => readColumn_shown (hcolumns c hc)
  rw [readFooter, Nav.footerJson, shownEntries_record, Value.field?_ofRecord, Value.field?_ofRecord]
  show (readSocials (Value.ofFields (f.socials.map fun e => (e.1, .text e.2))) >>= _) = _
  rw [readSocials_shown hsocials]
  show (readItems readColumn _ (some (Value.ofJson (.array (f.links.map Nav.columnJson)))) >>= _) = _
  rw [readItems_shown hcolumn]
  show Except.ok (Footer.mk (Table.ofEntries f.socials) f.links) = _
  rw [Table.ofEntries_of_nodup hkeys]

/-! ## Sections shown and read again -/

theorem sectionEntries_manifest (tabs : List Nav.Tab) (brand : Nav.Brand) (style : BrandSettings) (n : Navbar)
    (f : Footer) :
    Site.sectionEntries "navbar" (shownEntries (Nav.manifest tabs brand style n f)) =
        .ok (shownEntries (Nav.navbarJson n)) ∧
      Site.sectionEntries "footer" (shownEntries (Nav.manifest tabs brand style n f)) =
        .ok (shownEntries (Nav.footerJson f)) := by
  have hsection : ∀ name fields, mapping name (some (Value.ofJson (.record fields))) =
      .ok (shownEntries (.record fields)) := fun name fields => by
    rw [mapping_record, shownEntries_record]
  rw [Nav.manifest, shownEntries_record, Site.sectionEntries, Site.sectionEntries, Value.field?_ofRecord,
    Value.field?_ofRecord]
  exact ⟨hsection _ _, hsection _ _⟩

/-- **What the manifest shows of an accepted section** is read as the same section, also out of a whole manifest. -/
theorem sections_read_back (entries : Entries) :
    (∀ n, readNavbar entries = .ok n → readNavbar (shownEntries (Nav.navbarJson n)) = .ok n ∧
      ∀ tabs brand style f,
        (Site.sectionEntries "navbar" (shownEntries (Nav.manifest tabs brand style n f)) >>= readNavbar) = .ok n) ∧
    ∀ f, readFooter entries = .ok f → readFooter (shownEntries (Nav.footerJson f)) = .ok f ∧
      ∀ tabs brand style n,
        (Site.sectionEntries "footer" (shownEntries (Nav.manifest tabs brand style n f)) >>= readFooter) = .ok f := by
  refine ⟨fun n hn => ?_, fun f hf => ?_⟩
  · have hgives := gives_readNavbar entries
    rw [hn] at hgives
    have hshown := readNavbar_shown hgives
    refine ⟨hshown, fun tabs brand style f => ?_⟩
    rw [(sectionEntries_manifest tabs brand style n f).1]
    exact hshown
  · have hgives := gives_readFooter entries
    rw [hf] at hgives
    have hshown := readFooter_shown hgives
    refine ⟨hshown, fun tabs brand style n => ?_⟩
    rw [(sectionEntries_manifest tabs brand style n f).2]
    exact hshown

/-- **A section with numbers and blanks** where texts are wanted, and names of profiles that look alike. -/
def paddedSection : Entries :=
  [(.text "primary".toList, .map [(.text "label".toList, .int 7), (.text "href".toList, .text " /x ".toList)]),
    (.text "socials".toList, .map [(.int 1, .text "a".toList), (.text "1".toList, .text " b ".toList)])]

theorem sections_read_back_paddedSection :
    (∃ n, readNavbar paddedSection = .ok n ∧ readNavbar (shownEntries (Nav.navbarJson n)) = .ok n) ∧
      ∃ f, readFooter paddedSection = .ok f ∧ readFooter (shownEntries (Nav.footerJson f)) = .ok f := by
  have hlong : anyLongEntry paddedSection = false := by decide +kernel
  have hn : readNavbar paddedSection = .ok (navbarOf paddedSection) := by
    rw [readNavbar_eq hlong, show navbarFaults paddedSection = [] by decide +kernel, judged]
  have hf : readFooter paddedSection = .ok (footerOf paddedSection) := by
    rw [readFooter_eq hlong, show footerFaults paddedSection = [] by decide +kernel, judged]
  obtain ⟨hnavbar, hfooter⟩ := sections_read_back paddedSection
  exact ⟨⟨_, hn, (hnavbar _ hn).1⟩, _, hf, (hfooter _ hf).1⟩

end DocFerry.Config
