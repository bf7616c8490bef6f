import DocFerry.Yaml.Fault
/-!
# Tokens of a settings text

What the marks of a settings text say: where documents, collections, entries, keys and values start
and end, and the scalars with what stands before them.
-/
namespace DocFerry.Yaml

/-- **The version of the format** a text is written in. -/
abbrev Version := Nat × Nat

/-- **The version taken** where a text names none. -/
def standardVersion : Version := (1, 2)

/-- **The version with the older rules.** -/
def oldVersion : Version := (1, 1)

inductive Token where
  | textEnd
  /-- The text cannot be read further. -/
  | broken (fault : Fault)
  /-- A directive naming the version. -/
  | versionDirective (v : Version)
  /-- A directive naming the beginning that a handle stands for. -/
  | tagDirective (handle start : Text)
  | otherDirective
  | documentStart
  | documentEnd
  /-- A list by indentation starts. -/
  | blockListStart
  /-- A mapping by indentation starts. -/
  | blockMapStart
  /-- A collection by indentation ends. -/
  | blockEnd
  /-- A list in brackets starts. -/
  | flowListStart
  /-- A list in brackets ends. -/
  | flowListEnd
  /-- A mapping in braces starts. -/
  | flowMapStart
  /-- A mapping in braces ends. -/
  | flowMapEnd
  /-- An entry of a list by indentation. -/
  | blockEntry
  /-- The next entry of a collection in brackets or braces. -/
  | flowEntry
  | key
  | value
  | alias (name : Text)
  /-- The name of the node that comes. -/
  | anchor (name : Text)
  /-- The tag of the node that comes: its handle, if it has one, and the rest. -/
  | tag (handle : Option Text) (suffix : Text)
  /-- A scalar, plain or quoted. -/
  | scalar (text : Text) (plain : Bool)
  deriving DecidableEq, Repr, Inhabited

end DocFerry.Yaml
