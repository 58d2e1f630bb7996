import LivingDoc.Directory
import LivingDoc.Language
import LivingDoc.Report
import LivingDoc.Toml.Document
import LivingDoc.Wording

/-!
Configurations: the language of the documentation and the reports to read.
-/

namespace LivingDoc

/-- A report to read. -/
structure ReportLocation where
  path : String
  format : ReportFormat
  deriving DecidableEq, Repr

/-- What a configuration file says. -/
structure Config where
  /-- The language tag for documents that do not give one. -/
  language : String
  reports : List ReportLocation
  deriving DecidableEq, Repr

/-- Why there is no configuration. -/
inductive ConfigFault where
  | unreadable (path : String) (fault : ReadFault)
  /-- The text in the file is no TOML document or lacks the form of a configuration. -/
  | unparsed (path text : String)
  | unsupportedLanguage (tag : String)
  | emptyPath
  deriving DecidableEq, Repr

/-- The message that states a fault. -/
def ConfigFault.message [Wording] : ConfigFault → String
  | unreadable path fault => "read " ++ path ++ ": " ++ fault.message
  | unparsed path text => "parse " ++ path ++ ": " ++ Wording.config text
  | unsupportedLanguage tag => "language '" ++ tag ++ "' is not supported"
  | emptyPath => "results.path must be non-empty"

namespace Config

/-- The configuration that holds where none is given. -/
def standard : Config := ⟨Language.standard.tag, []⟩

/-! ## Decoding -/

/-- Decodes a format: its name, or a table whose only key is the name and holds nothing. -/
def decodeFormat? : Toml.Value → Option ReportFormat
  | .string name => ReportFormat.ofName? name
  | .table [(name, .table [])] => ReportFormat.ofName? name
  | .table [(name, .array [])] => ReportFormat.ofName? name
  | _ => none

/-- Decodes a string. -/
def decodeString? : Toml.Value → Option String
  | .string s => some s
  | _ => none

/-- Decodes the location of a report: a table, or an array with the path in front and the format
second. Other entries of a table are ignored if they are sound, and other items of an array without
a look at them. -/
def decodeLocation? : Toml.Value → Option ReportLocation
  | .table entries => do
    let path ← decodeString? (← entries.lookup "path")
    let format ← decodeFormat? (← entries.lookup "format")
    if Toml.areSoundEntries entries then some ⟨path, format⟩ else none
  | .array (path :: format :: _) => do return ⟨← decodeString? path, ← decodeFormat? format⟩
  | _ => none

/-- Decodes the outermost table of a document. Other keys than those of a configuration are
ignored if their values are sound. -/
def decode? (entries : List (String × Toml.Value)) : Option Config := do
  let language ←
    match entries.lookup "language" with
    | none => some standard.language
    | some value => decodeString? value
  let reports ←
    match entries.lookup "results" with
    | none => some []
    | some (.array items) => items.mapM decodeLocation?
    | some _ => none
  if Toml.areSoundEntries (entries.filter fun entry => entry.1 != "results") then
    some ⟨language, reports⟩
  else none

/-! ## Loading -/

/-- Checks that the language has a table of keywords and that no path is empty. -/
def check (config : Config) : Except ConfigFault Unit :=
  if (Language.ofTag? config.language).isNone then .error (.unsupportedLanguage config.language)
  else if config.reports.any fun report => report.path = "" then .error .emptyPath
  else .ok ()

/-- The configuration in the file under a path. Where there is no file, the standard one holds. -/
def load (directory : Directory) (path : String) : Except ConfigFault Config := do
  if directory.holds path then
    let text ←
      match directory.readText path with
      | .ok text => pure text
      | .error fault => throw (.unreadable path fault)
    let some config := (Toml.parse? text).bind decode? | throw (.unparsed path text)
    config.check
    return config
  else return standard

end Config
end LivingDoc
