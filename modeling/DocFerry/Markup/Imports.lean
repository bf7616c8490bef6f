import DocFerry.Text.Blank
import DocFerry.Markup.Tag
/-!
# Imports that only the old site can serve

A page may import components of the old site generator and shared partial pages; neither exists
after the move, so those imports are dropped.  An import starts a line, names its module between
quotes after the word `from`, and ends with its line; blanks inside it may run over lines.

Main fact: text in which no line starts with `import` is left alone (`dropImports_of_none`).
-/
namespace DocFerry.Markup

open Text

/-- **Module names that only the old site knows**, by their beginnings. -/
def platformModules : List Text :=
  ["@site", "@theme", "@docusaurus", "react-feather", "@fluentui"].map String.toList

/-- **A module of the old site.** -/
def isPlatformModule (name : Text) : Bool := platformModules.any (·.isPrefixOf name)

def isPartialModule (name : Text) : Bool := has "partials".toList name

/-- **The text after the last newline of leading blanks**, if they hold one. -/
def afterLastNewline? : Text → Option Text
  | [] => none
  | c :: rest =>
    if isBlank c then
      match afterLastNewline? rest with
      | some after => some after
      | none => if c == '\n' then some rest else none
    else none

/-- **The end of an import** after its module name: blanks, a semicolon and the rest of its line, or
failing that blanks up to their last newline. -/
def importEnd? (s : Text) : Option Text :=
  match trimStart s with
  | ';' :: rest =>
    match rest.dropWhile isSpaceOrTab with
    | '\n' :: after => some after
    | _ => afterLastNewline? s
  | _ => afterLastNewline? s

/-- **The word `from` and the module name** at the start: what follows the import, if the name is
wanted. -/
def fromClause? (wanted : Text → Bool) (s : Text) : Option Text :=
  match (after? "from".toList s).bind skipBlanks? |>.bind quote? with
  | some r =>
    match r.dropWhile (!isQuote ·) with
    | _ :: after => if wanted (r.takeWhile (!isQuote ·)) then importEnd? after else none
    | [] => none
  | none => none

/-- **The first fitting clause on the rest of a line.** -/
def seekFrom? (wanted : Text → Bool) : Text → Option Text
  | [] => none
  | c :: rest =>
    match fromClause? wanted (c :: rest) with
    | some after => some after
    | none => if c == '\n' then none else seekFrom? wanted rest

/-- **An import at the start of a line**: what follows it. -/
def import? (wanted : Text → Bool) (s : Text) : Option Text :=
  (after? "import".toList s).bind skipBlanks? |>.bind (seekFrom? wanted)

/-- `dropImports` with `skip` characters of an import still to pass; `lineStart` says that the text
starts a line. -/
def dropImportsFrom (wanted : Text → Bool) : (skip : Nat) → (lineStart : Bool) → Text → Text
  | _, _, [] => []
  | skip + 1, _, c :: rest => dropImportsFrom wanted skip (c == '\n') rest
  | 0, lineStart, c :: rest =>
    match if lineStart then import? wanted (c :: rest) else none with
    | some after => dropImportsFrom wanted (rest.length - after.length) (c == '\n') rest
    | none => c :: dropImportsFrom wanted 0 (c == '\n') rest

/-- **The text without the imports of wanted modules.** -/
def dropImports (wanted : Text → Bool) (s : Text) : Text := dropImportsFrom wanted 0 true s

/-- **The text without imports that only the old site can serve.** -/
def stripPlatformImports (s : Text) : Text :=
  dropImports isPartialModule (dropImports isPlatformModule s)

/-- **Text without an import at the start of a line is left alone.** -/
theorem dropImports_of_none (wanted : Text → Bool) (s : Text)
    (h : ∀ t, t <:+ s → import? wanted t = none) : dropImports wanted s = s := by
  suffices ∀ lineStart, dropImportsFrom wanted 0 lineStart s = s from this true
  induction s with
  | nil => intro _; rfl
  | cons c rest ih =>
    intro lineStart
    have hn : (if lineStart then import? wanted (c :: rest) else none) = none := by
      split
      · exact h _ List.suffix_rfl
      · rfl
    rw [dropImportsFrom, hn]
    simp only [List.cons.injEq, true_and]
    exact ih (fun t ht => h t (ht.trans (List.suffix_cons c rest))) _

end DocFerry.Markup
