import DocFerry.Site.Configuration
import DocFerry.Text.Case
/-!
# Commands

The program has two commands: one migrates a site, the other shows where top-level folders would
land.  An option that is not given on the command line is taken from the environment, and so are the
names of folders if the command line has none.

Main facts: an option given on the command line hides the environment (`optionValue_given`), and so
do names (`namesToPlace_given`).
-/
namespace DocFerry

structure MigrateOptions where
  docs : Option Path := none
  /-- The folder of static assets. -/
  static : Option Path := none
  output : Option Path := none
  config : Option Path := none
  /-- The output folder is emptied first. -/
  clean : Option Bool := none
  /-- The name of the least level of the log that is shown. -/
  logLevel : Text := "WARNING".toList

inductive Command where
  | migrate (options : MigrateOptions)
  /-- The places of folders are shown. -/
  | classify (names : List Text) (config : Option Path)

namespace Command

/-! ## Arguments -/

/-- **The options of a migration that take a value.** -/
def migrateOptionNames : List Text :=
  ["docs-dir", "static-dir", "output-dir", "config", "log-level"].map String.toList

/-- **The options of the preview**, which take a value. -/
def classifyOptionNames : List Text := ["config".toList]

/-- **The option that is a switch**; another name turns it off. -/
def cleanSwitch : Text := "clean".toList

/-- **Arguments sorted**: options with their values, and all others. -/
structure Arguments where
  options : Table Text Text := []
  /-- The other arguments, in order. -/
  others : List Text := []

/-- **The name of an option as it is known**: a low line counts as a hyphen. -/
def optionName (s : Text) : Text := s.map fun c => if c = '_' then '-' else c

/-- **A word for no value at all**, in any case. -/
def isNoValue (s : Text) : Bool := ["none", "null"].any (Text.lower s == ·.toList)

def truth? (s : Text) : Option Bool :=
  let word := Text.lower s
  if ["yes", "y", "1", "true", "t"].any (word == ·.toList) then some true
  else if ["no", "n", "0", "false", "f"].any (word == ·.toList) then some false
  else none

/-- **A switch as an option**: its name, and its value if it is turned off by name. -/
def switch? (name value : Text) : Option (Text × Text) :=
  if name = cleanSwitch then some (cleanSwitch, value)
  else if name = "no-".toList ++ cleanSwitch then
    (truth? value).map fun b => (cleanSwitch, (if b then "false" else "true").toList)
  else none

/-- **Arguments sorted** for a command with some options and perhaps the switch; none if one of them
is not understood.  Options start with two hyphens, so a word with one is no option. -/
def sortArguments (valued : List Text) (hasSwitch : Bool) : List Text → Option Arguments
  | [] => some {}
  | word :: rest =>
    match Text.after? "--".toList word with
    | none => do
      let a ← sortArguments valued hasSwitch rest
      some { a with others := word :: a.others }
    | some [] => some { others := rest }
    | some given =>
      let (name, assigned) :=
        match Text.cutAt? ['='] given with
        | some (name, value) => (optionName name, some value)
        | none => (optionName given, none)
      if valued.contains name then
        match assigned, rest with
        | some value, rest => do
          let a ← sortArguments valued hasSwitch rest
          some { a with options := (name, value) :: a.options }
        | none, value :: rest => do
          let a ← sortArguments valued hasSwitch rest
          some { a with options := (name, value) :: a.options }
        | none, [] => none
      else do
        let option ← if hasSwitch then switch? name (assigned.getD "true".toList) else none
        let a ← sortArguments valued hasSwitch rest
        some { a with options := option :: a.options }

/-! ## Options -/

/-- **The variable of the environment** that stands for an option. -/
def variableName (option : Text) : Text :=
  "INPUT_".toList ++ (Text.upper option).map fun c => if c = '-' then '_' else c

/-- **The value of an option**: as given, or from the environment. -/
def optionValue (given environment : Table Text Text) (option : String) : Option Text :=
  (Table.get? option.toList given).or (Table.get? (variableName option.toList) environment)

/-- **A path given as an option.** -/
def optionPath (given environment : Table Text Text) (option : String) : Option Path :=
  (optionValue given environment option).map Path.ofText

/-- **The switch**, as given or from the environment; none if its value is not understood.  In the
environment its other name stands for the switch itself. -/
def switchValue? (given environment : Table Text Text) : Option (Option Bool) :=
  let value := (optionValue given environment "clean").or
    (Table.get? (variableName "no-clean".toList) environment)
  match value.filter fun s => !isNoValue s with
  | none => some none
  | some s => (truth? s).map some

/-- **The names of folders to be placed**: those given, or those in the environment. -/
def namesToPlace (given : List Text) (environment : Table Text Text) : List Text :=
  if given.isEmpty then
    ((Table.get? "INPUT_NAMES".toList environment).map Text.words).getD []
  else given

theorem namesToPlace_given {given : List Text} (h : given ≠ []) (environment : Table Text Text) :
    namesToPlace given environment = given := by
  simp [namesToPlace, h]

theorem optionValue_given {given environment : Table Text Text} {option : String} {value : Text}
    (h : Table.get? option.toList given = some value) :
    optionValue given environment option = some value := by
  simp [optionValue, h]

end Command

/-- **The options of a migration** among arguments and environment. -/
def MigrateOptions.ofArguments? (a : Command.Arguments) (environment : Table Text Text) :
    Option MigrateOptions := do
  let path := Command.optionPath a.options environment
  let clean ← Command.switchValue? a.options environment
  let standard : MigrateOptions := {}
  if !a.others.isEmpty then none
  else
    some {
      docs := path "docs-dir", static := path "static-dir", output := path "output-dir"
      config := path "config", clean
      logLevel := (Command.optionValue a.options environment "log-level").getD standard.logLevel }

/-- **The command of arguments and environment**, none if they are not understood. -/
def Command.ofArguments? (environment : Table Text Text) : List Text → Option Command
  | [] => none
  | command :: rest =>
    if command = "migrate".toList then do
      let a ← sortArguments migrateOptionNames true rest
      (MigrateOptions.ofArguments? a environment).map .migrate
    else if command = "classify".toList then do
      let a ← sortArguments classifyOptionNames false rest
      some (.classify (namesToPlace a.others environment) (optionPath a.options environment "config"))
    else none

/-- **Settings with the options of a migration** in place of their own. -/
def MigrateOptions.apply (o : MigrateOptions) (s : Site.Settings) : Site.Settings :=
  { s with
    docs := o.docs.or s.docs
    static := o.static.or s.static
    output := o.output.getD s.output
    clean := o.clean.getD s.clean }

end DocFerry
