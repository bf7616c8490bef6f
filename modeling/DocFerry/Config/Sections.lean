import DocFerry.Config.Parts
import DocFerry.Config.Value
import DocFerry.Text.Blank
/-!
# Reading the sections of a configuration

Each section of a configuration is a mapping with known fields; a section that is not given is an
empty one.  A field that is wanted as a text takes the printed form of what is given, trimmed, and
counts as missing if nothing is left.  The first fault in the order of the fields is reported, with
the place of the value that is wrong.

Main facts: a blank text is no text (`text?_blank`), and only what is neither null nor a mapping is
refused as a section (`mapping_eq_error_iff`).
-/
namespace DocFerry.Config

open Text

/-- **What is wrong with a configuration**, with the place of the fault. -/
inductive Fault where
  /-- A field is missing or blank. -/
  | missing (place : Text) (field : String)
  | notMapping (place : Text)
  | notList (place : Text)
  /-- A list of keywords is wanted. -/
  | notKeywords (place : Text)
  | noKeyword (place : Text)
  /-- A truth value is wanted. -/
  | notTruth (place : Text)
  /-- A value that is wanted as a text has none. -/
  | unprintable (fault : Whole.Fault)
  deriving DecidableEq, Repr

def Fault.message : Fault → Text
  | .missing place field => place ++ " requires a non-empty '".toList ++ field.toList ++ "'.".toList
  | .notMapping place => place ++ " must be a mapping.".toList
  | .notList place => place ++ " must be a list.".toList
  | .notKeywords place => place ++ " must be a list of keywords.".toList
  | .noKeyword place => place ++ " must contain at least one keyword.".toList
  | .notTruth place => place ++ " must be true or false.".toList
  | .unprintable fault => fault.message

abbrev Entries := List (Value × Value)

/-- **The printed form of a value.** -/
def printed (v : Value) : Except Fault Text := v.print?.mapError .unprintable

/-- **The text of a value**: its printed form trimmed, none if nothing is left. -/
def text? (v : Value) : Except Fault (Option Text) :=
  match v with
  | .null => .ok none
  | v => (printed v).map fun s => (some (trim s)).filter (!·.isEmpty)

/-- **The text of an optional field.** -/
def optionalText (name : String) (entries : Entries) : Except Fault (Option Text) :=
  match Value.field? name entries with
  | some v => text? v
  | none => .ok none

/-- **The text of a field that must be given.** -/
def requiredText (name : String) (place : Text) (entries : Entries) : Except Fault Text := do
  match ← optionalText name entries with
  | some s => .ok s
  | none => .error (.missing place name)

/-- **The entries of a section**, none of them if it is not given. -/
def mapping (place : Text) : Option Value → Except Fault Entries
  | none => .ok []
  | some .null => .ok []
  | some v =>
    match v.entries? with
    | some entries => .ok entries
    | none => .error (.notMapping place)

/-- **The items of a list**, none of them if it is not given. -/
def items (place : Text) : Option Value → Except Fault (List Value)
  | none => .ok []
  | some .null => .ok []
  | some v =>
    match v.items? with
    | some vs => .ok vs
    | none => .error (.notList place)

def itemPlace (place : Text) (index : Nat) : Text :=
  place ++ '[' :: Binary64.decimalDigits index ++ [']']

/-- Items read one after another, with their places. -/
def readItemsFrom {α : Type} (read : Text → Value → Except Fault α) (place : Text) :
    (index : Nat) → List Value → Except Fault (List α)
  | _, [] => .ok []
  | index, v :: vs => do
    let first ← read (itemPlace place index) v
    let rest ← readItemsFrom read place (index + 1) vs
    .ok (first :: rest)

/-- **A list read item by item.** -/
def readItems {α : Type} (read : Text → Value → Except Fault α) (place : Text) (v : Option Value) :
    Except Fault (List α) := do
  readItemsFrom read place 0 (← items place v)

def readLink (place : Text) (v : Value) : Except Fault Link := do
  let entries ← mapping place (some v)
  let label ← requiredText "label" place entries
  let href ← requiredText "href" place entries
  .ok ⟨label, href⟩

def readLinks (place : Text) (v : Option Value) : Except Fault (List Link) := readItems readLink place v

/-- **Keywords**: the words of a text, or the texts of a list, in lower case and at least one. -/
def readKeywords (place : Text) (v : Value) : Except Fault (List Text) := do
  let given ← match v.opened with
    | .text s => .ok ((words s).map Value.text)
    | .list vs => .ok vs
    | .tuple vs => .ok vs
    | _ => .error (.notKeywords place)
  let texts ← given.mapM text?
  let keywords := (texts.filterMap id).map lower
  if keywords.isEmpty then .error (.noKeyword place) else .ok keywords

def readBrand (entries : Entries) : Except Fault BrandSettings := do
  let standard : BrandSettings := {}
  let name ← optionalText "name" entries
  let color ← optionalText "color" entries
  let logo ← optionalText "logo" entries
  let fontFamily ← optionalText "font_family" entries
  let theme ← optionalText "theme" entries
  .ok {
    name, color, logo, fontFamily := fontFamily.getD standard.fontFamily
    theme := theme.getD standard.theme }

/-- **The main button of the navigation bar.** -/
def readButton (v : Value) : Except Fault Button := do
  let place := "navbar.primary".toList
  let entries ← mapping place (some v)
  let label ← requiredText "label" place entries
  let href ← requiredText "href" place entries
  let kind ← optionalText "type" entries
  .ok ⟨kind.getD "button".toList, label, href⟩

def readNavbar (entries : Entries) : Except Fault Navbar := do
  let primary ← match Value.field? "primary" entries with
    | none => .ok none
    | some .null => .ok none
    | some v => (readButton v).map some
  let links ← readLinks "navbar.links".toList (Value.field? "links" entries)
  .ok ⟨links, primary⟩

def readColumn (place : Text) (v : Value) : Except Fault LinkColumn := do
  let entries ← mapping place (some v)
  let header ← requiredText "header" place entries
  let items ← readLinks (place ++ ".items".toList) (Value.field? "items" entries)
  .ok ⟨header, items⟩

/-- **Profiles on other sites**: a blank one is left out. -/
def readSocials : Entries → Except Fault (List (Text × Text))
  | [] => .ok []
  | (key, v) :: rest => do
    match ← text? v with
    | some s =>
      let name ← printed key
      (readSocials rest).map ((name, s) :: ·)
    | none => readSocials rest

def readFooter (entries : Entries) : Except Fault Footer := do
  let socials ← readSocials (← mapping "footer.socials".toList (Value.field? "socials" entries))
  let links ← readItems readColumn "footer.links".toList (Value.field? "links" entries)
  .ok ⟨Table.ofEntries socials, links⟩

/-- **The keywords of platforms**, in order. -/
def readCategories : Entries → Except Fault (List (Text × List Text))
  | [] => .ok []
  | (key, v) :: rest => do
    let platform ← printed key
    let keywords ← readKeywords ("classification.sdk_categories.".toList ++ platform) v
    let more ← readCategories rest
    .ok ((platform, keywords) :: more)

/-- **Keywords that replace standard ones** if they are given. -/
def readOptionalKeywords (place : Text) (standard : List Text) : Option Value → Except Fault (List Text)
  | none => .ok standard
  | some .null => .ok standard
  | some v => readKeywords place v

def readClassifier (entries : Entries) : Except Fault Nav.Classifier := do
  let standard := Nav.Classifier.standard
  let categories ← match Value.field? "sdk_categories" entries with
    | none => .ok standard.categories
    | some .null => .ok standard.categories
    | some v => do
      let given ← mapping "classification.sdk_categories".toList (some v)
      (readCategories given).map Table.ofEntries
  let sdkKeywords ← readOptionalKeywords "classification.sdk_keywords".toList standard.sdkKeywords
    (Value.field? "sdk_keywords" entries)
  let toolKeywords ← readOptionalKeywords "classification.tool_keywords".toList standard.toolKeywords
    (Value.field? "tool_keywords" entries)
  .ok ⟨categories, sdkKeywords, toolKeywords⟩

theorem printed_text (s : Text) : printed (.text s) = .ok s := by rfl

theorem text?_blank {s : Text} (h : trim s = []) : text? (.text s) = .ok none := by
  show (printed (.text s)).map (fun s => (some (trim s)).filter (!·.isEmpty)) = .ok none
  rw [printed_text]
  show Except.ok ((some (trim s)).filter (!·.isEmpty)) = .ok none
  rw [h]
  rfl

theorem mapping_eq_error_iff {place : Text} {v : Value} {fault : Fault} :
    mapping place (some v) = .error fault ↔
      v ≠ .null ∧ v.entries? = none ∧ fault = .notMapping place := by
  cases v with
  | null => simp [mapping]
  | _ =>
    simp only [mapping]
    split
    · rename_i h
      simp [h]
    · rename_i h
      simp [h, eq_comm]

end DocFerry.Config
