import LivingDoc.Config
import LivingDoc.Gherkin.Decoding

/-!
Documents and reports in files.
-/

namespace LivingDoc

/-! ## Documents -/

/-- Why there is no document. -/
inductive DocumentFault where
  | unreadable (path : String) (fault : ReadFault)
  /-- The text in the file is no document. -/
  | unparsed (path text : String)
  deriving DecidableEq, Repr

/-- The message that states a fault. -/
def DocumentFault.message [Wording] : DocumentFault → String
  | unreadable path fault => "read " ++ path ++ ": " ++ fault.message
  | unparsed path text => "parse gherkin document " ++ path ++ ": " ++ Wording.document text

/-- The document in the file under a path. -/
def Gherkin.Document.load (directory : Directory) (path : String) :
    Except DocumentFault Gherkin.Document :=
  match directory.readText path with
  | .error fault => .error (.unreadable path fault)
  | .ok text =>
    match Json.decode? Gherkin.Document.decode text with
    | some document => .ok document
    | none => .error (.unparsed path text)

/-! ## Reports -/

/-- Why there is no report under a path. -/
inductive ReportFault where
  | unreadable (path : String) (fault : ReadFault)
  | malformed (malformed : Report.Malformed)
  deriving DecidableEq, Repr

/-- The message that states a fault. -/
def ReportFault.message [Wording] : ReportFault → String
  | unreadable path fault => "read report " ++ path ++ ": " ++ fault.message
  | malformed cause => cause.message

/-- A report that cannot be loaded, and why. -/
structure LoadFault where
  location : ReportLocation
  fault : ReportFault
  deriving DecidableEq, Repr

/-- The message that states a fault. -/
def LoadFault.message [Wording] (fault : LoadFault) : String :=
  "load " ++ fault.location.format.title ++ " report " ++ fault.location.path ++ ": "
    ++ fault.fault.message

namespace Report

/-- The text of the file under a path. The page around a SpecRun report may be in any encoding, so
what is no UTF-8 in it is replaced. -/
def readText (directory : Directory) : ReportFormat → String → Except ReadFault String
  | .specRun, path => (directory.read path).map Text.Utf8.decodeLossy
  | .cucumberJson, path => directory.readText path

/-- The report in the file under a path. -/
def read (directory : Directory) (format : ReportFormat) (path : String) :
    Except ReportFault Report :=
  match readText directory format path with
  | .error fault => .error (.unreadable path fault)
  | .ok text =>
    match parse format text with
    | .error malformed => .error (.malformed malformed)
    | .ok report => .ok report

/-- The report at a location. -/
def load (directory : Directory) (location : ReportLocation) : Except LoadFault Report :=
  match read directory location.format location.path with
  | .error fault => .error ⟨location, fault⟩
  | .ok report => .ok report

/-- The reports at several locations, or the first fault. -/
def loadEach (directory : Directory) (locations : List ReportLocation) :
    Except LoadFault (List Report) :=
  locations.mapM (load directory)

end Report

/-- Several reports as one source of verdicts. -/
def Source.ofReports (reports : List Report) : Source :=
  .merged (reports.map Report.toSource)

end LivingDoc
