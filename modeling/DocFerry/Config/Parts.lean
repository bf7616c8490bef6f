import DocFerry.Nav.Classify
/-!
# Settings

What a configuration settles about the new site: its brand, its navigation bar, its footer, and the
keyword tables that place folders.
-/
namespace DocFerry.Config

/-- **Settings of the brand**; a part that is not set is detected from the old site. -/
structure BrandSettings where
  /-- The name of the project. -/
  name : Option Text := none
  color : Option Text := none
  /-- The path of the logo. -/
  logo : Option Text := none
  /-- The family of the font. -/
  fontFamily : Text := "Inter".toList
  theme : Text := "mint".toList

structure Link where
  /-- What the link is called. -/
  label : Text
  href : Text
  deriving DecidableEq, Repr

/-- **The main button of the navigation bar.** -/
structure Button where
  kind : Text
  label : Text
  href : Text
  deriving DecidableEq, Repr

structure Navbar where
  links : List Link := []
  primary : Option Button := none
  deriving DecidableEq, Repr

/-- **A column of links in the footer.** -/
structure LinkColumn where
  /-- The head of the column. -/
  header : Text
  items : List Link
  deriving DecidableEq, Repr

structure Footer where
  /-- Profiles on other sites, by the name of the site. -/
  socials : Table Text Text := []
  links : List LinkColumn := []
  deriving DecidableEq, Repr

end DocFerry.Config
