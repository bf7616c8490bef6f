import DocFerry.Markup.Tag
/-!
# Tabs

Tab containers keep their name and tab items become tabs titled by their label; each tag is set on a
paragraph of its own.
-/
namespace DocFerry.Markup

open Text

/-- **A tag set on a paragraph of its own.** -/
def paragraph (tag : Text) : Text := "\n\n".toList ++ tag ++ "\n\n".toList

/-- **The value of a label** at the start. -/
def labelAt? (s : Text) : Option Text :=
  (after? "label=".toList s).bind quote? |>.bind quotedRun? |>.map (·.1)

def label? : Text → Option Text
  | [] => none
  | c :: rest => (labelAt? (c :: rest)).or (label? rest)

/-- **The opening tag of a tab** for a tab item with these attributes. -/
def tabOpening (attributes : Text) : Text :=
  paragraph ("<Tab title=\"".toList ++ (label? attributes).getD "Tab".toList ++ "\">".toList)

/-- **Tab containers and tab items as tabs.** -/
def convertTabs (s : Text) : Text :=
  let s := substitute (openTag "Tabs".toList fun _ => paragraph "<Tabs>".toList) s
  let s := replaceAll "</Tabs>".toList (paragraph "</Tabs>".toList) s
  let s := substitute (openTag "TabItem".toList tabOpening) s
  replaceAll "</TabItem>".toList (paragraph "</Tab>".toList) s

theorem label?_nil : label? [] = none := rfl

end DocFerry.Markup
