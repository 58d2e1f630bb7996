import LivingDoc.Wording

/-!
The command line: what its arguments ask for.

A subcommand comes first. After it, options and the path of the document may stand in any order;
an option's value is the next argument or follows an equals sign, and two hyphens end the options.

Arguments are read one after the other. A request for help is granted as soon as it is read, if
nothing in front of it is at fault, and what follows it is not read at all.
-/

namespace LivingDoc

/-- What a run maps, and with which settings. -/
structure Input where
  /-- The path of the document. -/
  document : String
  /-- The path of the configuration. -/
  config : String
  /-- The language tag given on the command line. -/
  language : Option String
  deriving DecidableEq, Repr

/-- What the arguments ask for. -/
inductive Command where
  /-- Print the version. -/
  | version
  /-- Print the explanation of a topic. -/
  | help (topic : Topic)
  /-- Print the feature that a document describes. -/
  | map (input : Input)
  /-- Print the verdicts on a feature, with reports from the paths given for each format. -/
  | results (input : Input) (specRun cucumberJson : List String)
  deriving DecidableEq, Repr

namespace Command

/-- The path of the configuration if none is given. -/
def standardConfig : String := "pickles.toml"

/-- The settings found in the arguments of a subcommand so far. -/
structure Settings where
  documents : List String
  configs : List String
  languages : List String
  specRun : List String
  cucumberJson : List String
  deriving DecidableEq, Repr

namespace Settings

/-- No settings. -/
def empty : Settings := ⟨[], [], [], [], []⟩

/-- Adds a document. -/
def addDocument (settings : Settings) (path : String) : Settings :=
  { settings with documents := settings.documents ++ [path] }

/-- Adds the value of an option, if there is such an option; options for reports exist only
where `reports` holds. -/
def addOption? (reports : Bool) (settings : Settings) (option value : String) :
    Option Settings :=
  match option, reports with
  | "config", _ => some { settings with configs := settings.configs ++ [value] }
  | "language", _ => some { settings with languages := settings.languages ++ [value] }
  | "spec-run", true => some { settings with specRun := settings.specRun ++ [value] }
  | "cucumber-json", true => some { settings with cucumberJson := settings.cucumberJson ++ [value] }
  | _, _ => none

/-- Whether settings are free of faults so far: nothing is given twice that may be given once, and
no path is empty. A document may still be missing. -/
def areSound (settings : Settings) : Bool :=
  settings.documents.length ≤ 1 && settings.configs.length ≤ 1 && settings.languages.length ≤ 1
    && !(settings.documents ++ settings.configs ++ settings.specRun
      ++ settings.cucumberJson).contains ""

/-- The input that settings give if they are free of faults and there is a document. -/
def input? (settings : Settings) : Option Input := do
  let document ← settings.documents.head?
  if settings.areSound then
    some ⟨document, settings.configs.headD standardConfig, settings.languages.head?⟩
  else none

end Settings

/-- Whether an argument is read as an option, so that it is no value. A single hyphen is a value. -/
def isOption (argument : String) : Bool :=
  match argument.toList with
  | '-' :: _ :: _ => true
  | _ => false

/-- The name of a long option and the value attached to it. -/
def longOption? (argument : String) : Option (String × Option String) :=
  match argument.toList with
  | '-' :: '-' :: text =>
    let name := String.ofList (text.takeWhile (· != '='))
    match text.dropWhile (· != '=') with
    | [] => some (name, none)
    | _ :: value => some (name, some (String.ofList value))
  | _ => none

/-- Whether an argument asks for help. Short options may be written as one argument, and the first
one counts at once. -/
def asksForHelp (argument : String) : Bool :=
  argument = "--help" || ['-', 'h'].isPrefixOf argument.toList

/-- What has been read of the arguments of a subcommand. -/
inductive Reading where
  /-- They ask for help. -/
  | help
  /-- They give settings. -/
  | settings (settings : Settings)
  deriving DecidableEq, Repr

/-- Reads the arguments of a subcommand, with settings found before them. -/
def read? (reports : Bool) (settings : Settings) : List String → Option Reading
  | [] => some (.settings settings)
  | "--" :: documents => some (.settings (documents.foldl Settings.addDocument settings))
  | argument :: rest =>
    if asksForHelp argument then if settings.areSound then some .help else none
    else if isOption argument then
      match longOption? argument with
      | none => none
      | some (option, some value) => do
        read? reports (← settings.addOption? reports option value) rest
      | some (option, none) =>
        match rest with
        | [] => none
        | value :: rest =>
          if isOption value then none
          else do read? reports (← settings.addOption? reports option value) rest
    else read? reports (settings.addDocument argument) rest

/-- The topic that the arguments of the command for help name. -/
def topic? : List String → Option Topic
  | [] => some .program
  | ["map"] => some .map
  | ["results"] => some .results
  | ["help"] => some .help
  | _ => none

/-- What the arguments ask for, if they are well formed. -/
def parse? : List String → Option Command
  | "map" :: arguments => do
    match ← read? false .empty arguments with
    | .help => return .help .map
    | .settings settings => return .map (← settings.input?)
  | "results" :: arguments => do
    match ← read? true .empty arguments with
    | .help => return .help .results
    | .settings settings =>
      return .results (← settings.input?) settings.specRun settings.cucumberJson
  | "help" :: arguments => do return .help (← topic? arguments)
  | argument :: _ =>
    if asksForHelp argument then some (.help .program)
    else if argument = "--version" || ['-', 'V'].isPrefixOf argument.toList then some .version
    else none
  | [] => none

end Command
end LivingDoc
