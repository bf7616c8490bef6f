import DocFerry.Config.Sections
import DocFerry.Files.Lookup
import DocFerry.Yaml.Fault
/-!
# Failures

Everything that can stop a run, by its cause, and the text that tells about it.  What the file
system refuses and what is wrong with the form of a file has no text of its own here.
-/
namespace DocFerry.Site

open Files

inductive Failure where
  | disk (problem : Problem)
  /-- The folder given for the documents is none. -/
  | docsMissing (given : Path)
  /-- No folder of documents is found. -/
  | docsNotFound
  /-- The settings file that is asked for is not there. -/
  | settingsMissing (path : Path)
  /-- The settings file holds something other than a mapping. -/
  | settingsNotMapping
  /-- A section of the settings is wrong. -/
  | section (fault : Config.Fault)
  /-- The settings file is not read. -/
  | settings (fault : Yaml.Fault)
  /-- The output folder would hold the documents. -/
  | overlap (output : Path)
  /-- A data file holds a whole number that is not read. -/
  | whole (fault : Whole.Fault)
  /-- A data file has too many levels, the last of them an array, or an object. -/
  | deepData (isObject : Bool)
  /-- A position is a whole number beyond every binary number. -/
  | hugePosition
  /-- A level of the log is not known. -/
  | unknownLevel (name : Text)
  deriving DecidableEq, Repr

/-- **The text of a failure**, if it has one. -/
def Failure.message? : Failure → Option Text
  | .disk .linkedTree => some "Cannot call rmtree on a symbolic link".toList
  | .disk (.sameFile source target) =>
    some ("PosixPath(".toList ++ Text.quoted source.text ++ ") and PosixPath(".toList ++
      Text.quoted target.text ++ ") are the same file".toList)
  | .disk .nullInPath => some "embedded null byte".toList
  | .disk (.endlessLink path) => some ("Symlink loop from ".toList ++ Text.quoted path.text)
  | .disk _ => none
  | .docsMissing given => some ("Docs directory '".toList ++ given.text ++ "' does not exist.".toList)
  | .docsNotFound =>
    some ("Could not automatically detect a Docusaurus 'docs' directory. ".toList ++
      "Run from the project root or pass --docs-dir.".toList)
  | .settingsMissing path => some ("Configuration file '".toList ++ path.text ++ "' not found.".toList)
  | .settingsNotMapping => some "Top-level YAML structure must be a mapping.".toList
  | .section fault => some fault.message
  | .settings fault => fault.message?
  | .overlap output =>
    some ("Output directory '".toList ++ output.text ++ "' must not contain the docs input.".toList)
  | .whole fault => some fault.message
  | .deepData isObject =>
    some ("maximum recursion depth exceeded while decoding a JSON ".toList ++
      (if isObject then "object" else "array").toList ++ " from a unicode string".toList)
  | .hugePosition => some "int too large to convert to float".toList
  | .unknownLevel name => some ("Unknown level: ".toList ++ Text.quoted name)

end DocFerry.Site
