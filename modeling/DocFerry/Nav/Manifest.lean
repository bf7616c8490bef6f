import DocFerry.Config.Parts
import DocFerry.Json.Print
import DocFerry.Nav.Buckets
/-!
# The manifest

The manifest of the new site holds its brand, its navigation bar, its tabs and its footer.  It is
written as indented JSON with a newline at the end.

Main fact: only a brand with a logo has one in the manifest (`logoFields_eq_nil_iff`).
-/
namespace DocFerry.Nav

open Config

structure Brand where
  /-- The name of the project. -/
  name : Text
  color : Text
  /-- The path of the logo. -/
  logo : Option Text
  deriving DecidableEq, Repr

/-- **The name of a project that has none.** -/
def defaultProjectName : Text := "Documentation".toList

/-- **The colour of a project that has none.** -/
def defaultPrimaryColor : Text := "#2160fd".toList

/-- **The brand of a project about which nothing is known.** -/
def Brand.standard : Brand := ⟨defaultProjectName, defaultPrimaryColor, none⟩

/-- **A setting that is not empty**, else what there was. -/
def orElse (setting : Option Text) (old : Text) : Text :=
  match setting with
  | some s => if s.isEmpty then old else s
  | none => old

/-- **A brand with settings in place of what was detected.** -/
def Brand.withSettings (b : Brand) (s : BrandSettings) : Brand where
  name := orElse s.name b.name
  color := orElse s.color b.color
  logo := (s.logo.filter fun l => !l.isEmpty).or b.logo

/-- **A link as it stands in the manifest.** -/
def linkJson (l : Link) : Json := .record [("label", .text l.label), ("href", .text l.href)]

/-- **The navigation bar as it stands in the manifest.** -/
def navbarJson (n : Navbar) : Json :=
  .record ([("links", .array (n.links.map linkJson))] ++
    match n.primary with
    | some b =>
      [("primary", .record [("type", .text b.kind), ("label", .text b.label), ("href", .text b.href)])]
    | none => [])

/-- **A column of the footer as it stands in the manifest.** -/
def columnJson (c : LinkColumn) : Json :=
  .record [("header", .text c.header), ("items", .array (c.items.map linkJson))]

/-- **The footer as it stands in the manifest.** -/
def footerJson (f : Footer) : Json :=
  .record [("socials", .object (f.socials.map fun s => (s.1, .text s.2))),
    ("links", .array (f.links.map columnJson))]

/-- **The logo as it stands in the manifest**, if there is one. -/
def logoFields (b : Brand) : List (String × Json) :=
  match b.logo with
  | some l =>
    if l.isEmpty then []
    else [("logo", .record [("href", .word "/"), ("light", .text l), ("dark", .text l)])]
  | none => []

def manifest (tabs : List Tab) (brand : Brand) (style : BrandSettings) (navbar : Navbar)
    (footer : Footer) : Json :=
  .record ([("$schema", .word "https://mintlify.com/docs.json"),
    ("theme", .text style.theme),
    ("name", .text brand.name),
    ("colors", .record [("primary", .text brand.color), ("light", .text brand.color),
      ("dark", .text brand.color)]),
    ("font", .record [("family", .text style.fontFamily)]),
    ("contextual", .record [("options", .array [.word "copy", .word "view"])]),
    ("navbar", navbarJson navbar),
    ("navigation", .record [("tabs", .array (tabs.map Tab.toJson))]),
    ("footer", footerJson footer)] ++ logoFields brand)

/-- **The text of a manifest file.** -/
def manifestText (j : Json) : Text := j.indented ++ ['\n']

theorem logoFields_eq_nil_iff (b : Brand) : logoFields b = [] ↔ b.logo = none ∨ b.logo = some [] := by
  unfold logoFields
  cases h : b.logo with
  | none => simp
  | some l => cases l <;> simp

end DocFerry.Nav
