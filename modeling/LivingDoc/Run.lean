import LivingDoc.Assessment
import LivingDoc.CommandLine
import LivingDoc.Gherkin.Interpretation
import LivingDoc.Json.Printer
import LivingDoc.Loading

/-!
Whole runs of the program: from arguments and a working directory to what is printed and the exit
code.

The steps of a run come in a fixed order, and the first fault ends it: the configuration, the
document, the language, the meaning of the document, and the reports one after the other.
-/

namespace LivingDoc

/-- Why a run that was asked for properly has no result. -/
inductive RunFault where
  | config (fault : ConfigFault)
  | document (fault : DocumentFault)
  | language (fault : MappingFault)
  /-- The document under a path has no meaning. -/
  | mapping (path : String) (fault : MappingFault)
  | report (fault : LoadFault)
  deriving DecidableEq, Repr

/-- The message that states a fault. -/
def RunFault.message [Wording] : RunFault → String
  | config fault => fault.message
  | document fault => fault.message
  | language fault => "configure mapper: " ++ fault.message
  | mapping path fault => "map " ++ path ++ ": " ++ fault.message
  | report fault => fault.message

/-- What a run leaves behind. -/
structure Outcome where
  exitCode : Nat
  stdout : String
  stderr : String
  deriving DecidableEq, Repr

/-! ## Exit codes -/

/-- The run has a result, and no verdict is a failure. -/
def exitOk : Nat := 0

/-- The configuration, the document or a report is invalid. -/
def exitInvalid : Nat := 1

/-- The run has found a failed verdict. -/
def exitFailed : Nat := 2

/-- The arguments are not well formed. -/
def exitUsage : Nat := 2

/-! ## Steps of a run -/

/-- A result or the fault of a step, as a fault of the run. -/
def orFault {ε α : Type} (fault : ε → RunFault) : Except ε α → Except RunFault α
  | .ok value => .ok value
  | .error cause => .error (fault cause)

/-- The language tag that counts: the one on the command line, or else the one of the document, or
else the one of the configuration. -/
def languageTag (input : Input) (document : Gherkin.Document) (config : Config) : String :=
  ((input.language).orElse fun _ => document.feature.bind (·.language)).getD config.language

/-- The feature that the document of an input describes. -/
def describedFeature (directory : Directory) (input : Input) (config : Config) :
    Except RunFault Feature := do
  let document ← orFault .document (Gherkin.Document.load directory input.document)
  let language ← orFault .language (Language.ofTag (languageTag input document config))
  orFault (.mapping input.document) (document.interpret language)

/-- The feature that `map` prints. -/
def featureToPrint (directory : Directory) (input : Input) : Except RunFault Feature := do
  let config ← orFault .config (Config.load directory input.config)
  describedFeature directory input config

/-- The reports of a run: those of the configuration, then those on the command line by format. -/
def reportLocations (config : Config) (specRun cucumberJson : List String) :
    List ReportLocation :=
  config.reports ++ specRun.map (⟨·, .specRun⟩) ++ cucumberJson.map (⟨·, .cucumberJson⟩)

/-- The assessment that `results` prints. -/
def assessmentToPrint (directory : Directory) (input : Input) (specRun cucumberJson : List String) :
    Except RunFault Assessment := do
  let config ← orFault .config (Config.load directory input.config)
  let feature ← describedFeature directory input config
  let reports ←
    orFault .report (Report.loadEach directory (reportLocations config specRun cucumberJson))
  return .ofFeature feature (Source.ofReports reports)

/-! ## Runs -/

/-- A value as it is printed: laid out over lines, with a line break at the end. -/
def printed (value : Json) : String :=
  value.pretty ++ "\n"

/-- The outcome of a run that ends with a fault. -/
def failedRun [Wording] (fault : RunFault) : Outcome :=
  ⟨exitInvalid, "", fault.message⟩

/-- The outcome of a command. -/
def Command.run [Wording] (directory : Directory) : Command → Outcome
  | version => ⟨exitOk, "pickles 0.1.0\n", ""⟩
  | help topic => ⟨exitOk, Wording.help topic, ""⟩
  | map input =>
    match featureToPrint directory input with
    | .error fault => failedRun fault
    | .ok feature => ⟨exitOk, printed feature.encode, ""⟩
  | results input specRun cucumberJson =>
    match assessmentToPrint directory input specRun cucumberJson with
    | .error fault => failedRun fault
    | .ok assessment =>
      ⟨if assessment.anyFailed then exitFailed else exitOk, printed assessment.encode, ""⟩

/-- The outcome of a run with the given arguments in a working directory. -/
def run [Wording] (arguments : List String) (directory : Directory) : Outcome :=
  match Command.parse? arguments with
  | none => ⟨exitUsage, "", Wording.usage arguments⟩
  | some command => command.run directory

end LivingDoc
