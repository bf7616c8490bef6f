import DocFerry.Table
import DocFerry.Text.Case
/-!
# Where a top-level folder lands

A folder is placed by keywords that occur in its name, whatever their case.  Platforms are tried in
the order of their table and the first that matches wins; a name that matches only the broad
keywords goes to a platform of its own, and a name that matches none of them to the tools or the
guides.

Main fact: a folder is placed under a platform exactly when it has one (`place_platform`).
-/
namespace DocFerry.Nav

open Text

def guidesTab : Text := "Guides".toList
def sdksTab : Text := "SDKs".toList
def toolsTab : Text := "Tools".toList
/-- **The platform of kits that no platform's keywords match.** -/
def otherSdks : Text := "Other SDKs".toList

/-- **The keyword tables** that place folders. -/
structure Classifier where
  /-- Platforms with their keywords, in the order in which they are tried. -/
  categories : Table Text (List Text)
  /-- Keywords that make a folder documentation of a kit at all. -/
  sdkKeywords : List Text
  toolKeywords : List Text

/-- **The tables used when a configuration gives none.** -/
def Classifier.standard : Classifier where
  categories :=
    [("Web", ["react-web-core", "web-core", "javascript", "html", "web"]),
      ("Mobile", ["android", "android-core", "ios", "ios-core", "flutter", "flutter-core"]),
      ("React Native", ["react-native", "rn-core", "rn-ui-kit"]),
      ("UI Kits", ["ui-kit", "react-ui-kit", "angular-ui-kit", "vue"])].map
        fun c => (c.1.toList, c.2.map String.toList)
  sdkKeywords :=
    ["sdk", "android", "ios", "react", "flutter", "angular", "web", "core", "ui"].map String.toList
  toolKeywords := ["cli", "plugin", "tool", "package"].map String.toList

/-- **A place in the navigation**: a tab, and for a kit its platform. -/
structure Placement where
  tab : Text
  /-- The platform of a kit. -/
  platform : Option Text := none
  deriving DecidableEq, Repr

/-- **Some keyword occurs in a name.** -/
def matchesAny (keywords : List Text) (name : Text) : Bool := keywords.any (has · name)

namespace Classifier

/-- **Every platform in display order**, the one for other kits last. -/
def platforms (c : Classifier) : List Text := Table.keys c.categories ++ [otherSdks]

/-- **The platform of a folder**, none if it is no documentation of a kit. -/
def platform? (c : Classifier) (folder : Text) : Option Text :=
  let name := lower folder
  match c.categories.find? fun category => matchesAny category.2 name with
  | some category => some category.1
  | none => if matchesAny c.sdkKeywords name then some otherSdks else none

def place (c : Classifier) (folder : Text) : Placement :=
  match c.platform? folder with
  | some platform => ⟨sdksTab, some platform⟩
  | none => ⟨if matchesAny c.toolKeywords (lower folder) then toolsTab else guidesTab, none⟩

theorem place_platform (c : Classifier) (folder : Text) :
    (c.place folder).platform = c.platform? folder := by
  unfold place
  split <;> rename_i h <;> simp [h]

end Classifier
end DocFerry.Nav
