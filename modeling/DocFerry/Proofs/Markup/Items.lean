import DocFerry.Markup.Admonitions
/-!
# Pages as trees of items

A page is a list of items: lines of text, images, admonitions, and tabs that hold items in turn.  Each item has its
source in the old markup and its translation, in which every construct is translated on its own.  What relates the
pieces of a source to the pieces of a translation, and pieces one after the other, relates the source of a page to its
translation (`Compositional.items`).
-/
namespace DocFerry.Markup

open Text

/-- **A line of plain text**, without tags, fences and images, that does not begin like an import. -/
structure PlainLine where
  text : Text
  oneLine : '\n' ∉ text
  noTag : '<' ∉ text
  noFence : ¬ ":::".toList <:+: text
  noImage : ¬ "![".toList <:+: text
  noImport : ¬ "import".toList <+: text

/-- **The name of an image** in its folder. -/
structure ImageName where
  text : Text
  nonempty : text ≠ []
  clean : ∀ c ∈ text, isQuote c = false ∧ isBlank c = false ∧ c ∉ "()[]<>".toList

theorem ImageName.not_mem (name : ImageName) {c : Char} (h : c ∈ "()[]<>".toList) : c ∉ name.text :=
  fun hc => (name.clean c hc).2.2 h

/-- **The value or the label of a tab.** -/
structure Caption where
  text : Text
  nonempty : text ≠ []
  clean : ∀ c ∈ text, isQuote c = false ∧ c ∉ "<>[:=\n".toList

theorem Caption.not_mem (caption : Caption) {c : Char} (h : c ∈ "<>[:=\n".toList) : c ∉ caption.text :=
  fun hc => (caption.clean c hc).2 h

/-- **The kind of an admonition**, in letters. -/
structure Kind where
  text : Text
  letters : ∀ c ∈ text, c.isAlpha = true

mutual
/-- **An item of a page** whose admonitions are of type `κ`. -/
inductive Item (κ : Type) where
  | text (line : PlainLine)
  | image (name : ImageName)
  | admonition (block : κ)
  | tabs (panes : List (Pane κ))
/-- **A tab** with its value, its label and what it holds. -/
inductive Pane (κ : Type) where
  | pane (value label : Caption) (items : List (Item κ))
end

/-- **An admonition**: one item or more, in which there is no other admonition at any depth. -/
structure Admonition where
  kind : Kind
  first : Item Empty
  rest : List (Item Empty)

/-- **A page.** -/
abbrev Page := List (Item Admonition)

/-! ## Source -/

/-- **The tag of an image** in the old asset folder. -/
def imageTag (name : Text) : Text := "<img src=\"/img/".toList ++ name ++ "\" />".toList

/-- **The opening tag of a tab item.** -/
def tabItemTag (value label : Text) : Text :=
  "<TabItem value=\"".toList ++ value ++ "\" label=\"".toList ++ label ++ "\">".toList

variable {κ : Type}

mutual
/-- **The source of an item**, given the source of an admonition. -/
def Item.source (block : κ → Text) : Item κ → Text
  | .text line => line.text ++ ['\n']
  | .image name => imageTag name.text ++ ['\n']
  | .admonition b => block b
  | .tabs panes => "<Tabs>\n".toList ++ sourceOfPanes block panes ++ "</Tabs>\n".toList
/-- **The source of items** one after the other. -/
def sourceOfItems (block : κ → Text) : List (Item κ) → Text
  | [] => []
  | item :: items => item.source block ++ sourceOfItems block items
/-- **The source of a tab.** -/
def Pane.source (block : κ → Text) : Pane κ → Text
  | .pane value label items =>
    tabItemTag value.text label.text ++ ['\n'] ++ sourceOfItems block items ++ "</TabItem>\n".toList
/-- **The source of tabs** one after the other. -/
def sourceOfPanes (block : κ → Text) : List (Pane κ) → Text
  | [] => []
  | pane :: panes => pane.source block ++ sourceOfPanes block panes
end

/-- **The source of an admonition**: its items between two fences. -/
def Admonition.source (a : Admonition) : Text :=
  ":::".toList ++ a.kind.text ++ ['\n'] ++ sourceOfItems Empty.elim (a.first :: a.rest) ++ ":::\n".toList

/-- **The source of a page.** -/
def Page.source (page : Page) : Text := sourceOfItems Admonition.source page

/-! ## Translation -/

mutual
/-- **The translation of an item**, given the translation of an admonition. -/
def Item.translation (block : κ → Text) : Item κ → Text
  | .text line => line.text ++ ['\n']
  | .image name => "![Image](/images/".toList ++ name.text ++ ")\n".toList
  | .admonition b => block b
  | .tabs panes => "\n\n<Tabs>\n\n\n".toList ++ translationOfPanes block panes ++ "\n\n</Tabs>\n\n\n".toList
/-- **The translation of items** one after the other. -/
def translationOfItems (block : κ → Text) : List (Item κ) → Text
  | [] => []
  | item :: items => item.translation block ++ translationOfItems block items
/-- **The translation of a tab.** -/
def Pane.translation (block : κ → Text) : Pane κ → Text
  | .pane _ label items =>
    "\n\n<Tab title=\"".toList ++ label.text ++ "\">\n\n\n".toList ++ translationOfItems block items ++
      "\n\n</Tab>\n\n\n".toList
/-- **The translation of tabs** one after the other. -/
def translationOfPanes (block : κ → Text) : List (Pane κ) → Text
  | [] => []
  | pane :: panes => pane.translation block ++ translationOfPanes block panes
end

/-- **The translation of an admonition**: its translated items, trimmed, in the component of its kind. -/
def Admonition.translation (a : Admonition) : Text :=
  "\n\n<".toList ++ admonitionTag a.kind.text ++ ">\n\n".toList ++
    trim (translationOfItems Empty.elim (a.first :: a.rest)) ++
    "\n\n</".toList ++ admonitionTag a.kind.text ++ ">\n\n\n".toList

/-- **The translation of a page.** -/
def Page.translation (page : Page) : Text := translationOfItems Admonition.translation page

/-! ## Relations between sources and translations -/

/-- **A compositional relation**: it holds of every piece of a source and its translation, and of pieces one after the
other. -/
structure Compositional (R : Text → Text → Prop) : Prop where
  nil : R [] []
  append {s s' t t' : Text} (h : R s s') (k : R t t') : R (s ++ t) (s' ++ t')
  text (line : PlainLine) : R (line.text ++ ['\n']) (line.text ++ ['\n'])
  image (name : ImageName) :
    R (imageTag name.text ++ ['\n']) ("![Image](/images/".toList ++ name.text ++ ")\n".toList)
  openTabs : R "<Tabs>\n".toList "\n\n<Tabs>\n\n\n".toList
  closeTabs : R "</Tabs>\n".toList "\n\n</Tabs>\n\n\n".toList
  openPane (value label : Caption) : R (tabItemTag value.text label.text ++ ['\n'])
    ("\n\n<Tab title=\"".toList ++ label.text ++ "\">\n\n\n".toList)
  closePane : R "</TabItem>\n".toList "\n\n</Tab>\n\n\n".toList

namespace Compositional

variable {R : Text → Text → Prop} {source translation : κ → Text}

mutual
theorem item (h : Compositional R) (hb : ∀ b, R (source b) (translation b)) : ∀ item : Item κ,
    R (item.source source) (item.translation translation)
  | .text line => h.text line
  | .image name => h.image name
  | .admonition b => hb b
  | .tabs panes => h.append (h.append h.openTabs (h.panes hb panes)) h.closeTabs
/-- **The source of items is related to their translation**, if that of admonitions is. -/
theorem items (h : Compositional R) (hb : ∀ b, R (source b) (translation b)) : ∀ items : List (Item κ),
    R (sourceOfItems source items) (translationOfItems translation items)
  | [] => h.nil
  | item :: items => h.append (h.item hb item) (h.items hb items)
theorem pane (h : Compositional R) (hb : ∀ b, R (source b) (translation b)) : ∀ pane : Pane κ,
    R (pane.source source) (pane.translation translation)
  | .pane value label items => h.append (h.append (h.openPane value label) (h.items hb items)) h.closePane
theorem panes (h : Compositional R) (hb : ∀ b, R (source b) (translation b)) : ∀ panes : List (Pane κ),
    R (sourceOfPanes source panes) (translationOfPanes translation panes)
  | [] => h.nil
  | pane :: panes => h.append (h.pane hb pane) (h.panes hb panes)
end

/-- **A weaker relation** is compositional if it holds of pieces one after the other. -/
theorem weaken {Q : Text → Text → Prop} (h : Compositional R) (hq : ∀ s s', R s s' → Q s s')
    (ha : ∀ {s s' t t'}, Q s s' → Q t t' → Q (s ++ t) (s' ++ t')) : Compositional Q where
  nil := hq _ _ h.nil
  append := ha
  text line := hq _ _ (h.text line)
  image name := hq _ _ (h.image name)
  openTabs := hq _ _ h.openTabs
  closeTabs := hq _ _ h.closeTabs
  openPane value label := hq _ _ (h.openPane value label)
  closePane := hq _ _ h.closePane

end Compositional

end DocFerry.Markup
