import DocFerry.Markup.Tag
import DocFerry.Text.Blank
import DocFerry.Nav.Manifest
import DocFerry.Site.Assets
import DocFerry.Site.Document
/-!
# The brand of the old site

The name of the project is the title in the old site's settings, its colour the primary colour of
its style sheet, and its logo a file at one of the usual places.  Whatever is not found has a
default.

Main fact: the name found is never blank (`projectName_ne_nil`).
-/
namespace DocFerry.Site

open Files Nav

/-- **The settings files of the old site**, in the order in which they are read. -/
def oldSettings : List Text := ["docusaurus.config.js", "docusaurus.config.ts"].map String.toList

/-- **The style sheet of the old site.** -/
def oldStyles : Path := Path.word "src/css/custom.css"

/-- **A title at the start**: the text from its quotation mark to the next one on the same line. -/
def titleAt? (s : Text) : Option Text := do
  let value ← (Text.after? "title:".toList s).bind fun r => Markup.quote? (Text.trimStart r)
  let stop := fun c => Markup.isQuote c || c == '\n'
  match value.dropWhile (!stop ·) with
  | c :: _ => if Markup.isQuote c then some (value.takeWhile (!stop ·)) else none
  | [] => none

/-- **The first title in a text.** -/
def title? : Text → Option Text
  | [] => none
  | c :: rest => (titleAt? (c :: rest)).or (title? rest)

/-- **A character of the colour property's name in any case**; a dotless or dotted i counts as i. -/
def sameLetter (a c : Char) : Bool :=
  a == c.toLower || (a == 'i' && (c.toNat == 0x130 || c.toNat == 0x131))

/-- **What follows a fixed beginning in any case.** -/
def afterAnyCase? : (start : Text) → Text → Option Text
  | [], s => some s
  | _ :: _, [] => none
  | a :: start, c :: s => if sameLetter a c then afterAnyCase? start s else none

def isHex (c : Char) : Bool := c.isDigit || ('a' ≤ c.toLower && c.toLower ≤ 'f')

/-- **A primary colour at the start**: a hash and six hexadecimal digits, up to a semicolon. -/
def colorAt? (s : Text) : Option Text :=
  match (afterAnyCase? "--ifm-color-primary:".toList s).map Text.trimStart with
  | some ('#' :: value) =>
    let digits := value.take 6
    if digits.length = 6 ∧ digits.all isHex ∧ (Text.trimStart (value.drop 6)).head? = some ';' then
      some ('#' :: digits)
    else none
  | _ => none

/-- **The first primary colour in a text.** -/
def color? : Text → Option Text
  | [] => none
  | c :: rest => (colorAt? (c :: rest)).or (color? rest)

/-- **The text of a file of the old site**, none if it is missing or ill formed. -/
def sourceText (d : Disk) (p : Path) : Except Problem (Option Text) :=
  (d.seekFile p).map (·.bind strictText?)

/-- **A title in a text**, if it is not blank. -/
def nameIn (s : Text) : Option Text := ((title? s).map Text.trim).filter fun name => !name.isEmpty

/-- **The name in the first of some files that has one.** -/
def firstName (d : Disk) (root : Path) : List Text → Except Problem (Option Text)
  | [] => .ok none
  | file :: rest => do
    match (← sourceText d (root.child file)).bind nameIn with
    | some name => return some name
    | none => firstName d root rest

/-- **The name of the project**, if the old site's settings have a title that is not blank. -/
def projectName (d : Disk) (root : Path) : Except Problem (Option Text) := firstName d root oldSettings

/-- **The primary colour**, if the old site's style sheet has one. -/
def primaryColor (d : Disk) (root : Path) : Except Problem (Option Text) :=
  (sourceText d (root.join oldStyles)).map (·.bind color?)

/-- **Where the logo is among the assets**, in order. -/
def assetLogos : List Path :=
  ["img/logo.svg", "img/logo.png", "logo.svg", "logo.png", "images/logo.svg", "images/logo.png"].map
    Path.word

/-- **Where the logo is among the copied images**, in order. -/
def imageLogos : List Path :=
  ["logo-light.svg", "logo.svg", "logo.png", "logo-light.png"].map Path.word

/-- **The first of some files that is there**, by the place it has after the move. -/
def firstLogo (d : Disk) (candidates : List Path) : Option Path → Except Problem (Option Text)
  | none => .ok none
  | some root =>
    (Disk.firstThat (fun p => d.seekAny (root.join p)) candidates).map
      (·.map fun p => "/images/".toList ++ p.name)

/-- **The place of the logo after the move**, if there is one. -/
def logo (d : Disk) (assets images : Option Path) : Except Problem (Option Text) := do
  match ← firstLogo d assetLogos assets with
  | some place => return some place
  | none => firstLogo d imageLogos images

/-- **The brand of the old site.** -/
def detectBrand (d : Disk) (root : Path) (assets images : Option Path) : Except Problem Brand := do
  let name ← projectName d root
  let color ← primaryColor d root
  let logo ← logo d assets images
  return { name := name.getD defaultProjectName, color := color.getD defaultPrimaryColor, logo }

theorem ne_nil_of_nameIn {s name : Text} (h : nameIn s = some name) : name ≠ [] := by
  simpa using (Option.filter_eq_some_iff.1 h).2

theorem firstName_ne_nil {d : Disk} {root : Path} {files : List Text} {name : Text}
    (h : firstName d root files = .ok (some name)) : name ≠ [] := by
  induction files with
  | nil => simp [firstName] at h
  | cons file rest ih =>
    rw [firstName] at h
    rcases hs : sourceText d (root.child file) with problem | s
    · simp [hs, bind, Except.bind] at h
    · rcases hn : s.bind nameIn with _ | found
      · exact ih (by simpa [hs, bind, Except.bind, hn] using h)
      · simp only [hs, bind, Except.bind, hn, pure, Except.pure, Except.ok.injEq,
          Option.some.injEq] at h
        obtain ⟨text, _, ht⟩ := Option.bind_eq_some_iff.1 hn
        exact h ▸ ne_nil_of_nameIn ht

theorem projectName_ne_nil {d : Disk} {root : Path} {name : Text}
    (h : projectName d root = .ok (some name)) : name ≠ [] := firstName_ne_nil h

end DocFerry.Site
