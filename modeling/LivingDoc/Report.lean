import LivingDoc.Cucumber
import LivingDoc.Source
import LivingDoc.SpecRun.Index
import LivingDoc.SpecRun.Page

/-!
Reports of test runs in the formats that are understood.

All formats come down to recorded features. They differ in how a report is decoded and in how the
rows of an outline's examples are titled; no format tells these rows apart.
-/

namespace LivingDoc

/-- A format of reports. -/
inductive ReportFormat where
  | specRun
  | cucumberJson
  deriving DecidableEq, Repr

namespace ReportFormat

/-- The name a format has in configurations. -/
def name : ReportFormat → String
  | specRun => "spec_run"
  | cucumberJson => "cucumber_json"

/-- The name a format has in messages. -/
def title : ReportFormat → String
  | specRun => "spec run"
  | cucumberJson => "cucumber"

/-- The format with exactly the given name. -/
def ofName? (name : String) : Option ReportFormat :=
  [specRun, cucumberJson].find? fun format => format.name = name

end ReportFormat

/-- A report: its format and what it has recorded. -/
structure Report where
  format : ReportFormat
  features : List RecordedFeature
  deriving DecidableEq, Repr

namespace Report

/-- The records on a page with a SpecRun report. -/
def ofPage (page : String) : Except Malformed Report := do
  return ⟨.specRun, ← SpecRun.features (← SpecRun.embedded page.toList)⟩

/-- The records in a Cucumber report. -/
def ofCucumber (text : String) : Except Malformed Report := do
  return ⟨.cucumberJson, ← Cucumber.features text⟩

/-- The report that a text holds in a format. -/
def parse : ReportFormat → String → Except Malformed Report
  | .specRun, text => ofPage text
  | .cucumberJson, text => ofCucumber text

/-- The record of the named feature. -/
def feature? (report : Report) (name : String) : Option RecordedFeature :=
  RecordedFeature.find? report.features name

/-- The scenarios of a recorded feature that are rows of the named outline, as the format has
them. -/
def outlineRows (format : ReportFormat) (feature : RecordedFeature) (outlineName : String) :
    List RecordedScenario :=
  match format with
  | .specRun => feature.rows outlineName
  | .cucumberJson => feature.titled outlineName

/-- A report as a source of verdicts. What it has not recorded is inconclusive. -/
def toSource (report : Report) : Source where
  feature feature := (report.feature? feature.name).elim .inconclusive RecordedFeature.verdict
  scenario scenario :=
    ((report.feature? scenario.featureName).bind (·.scenario? scenario.name)).elim
      .inconclusive RecordedScenario.verdict
  outline outline :=
    (report.feature? outline.featureName).elim .inconclusive fun feature =>
      overallVerdict (outlineRows report.format feature outline.name)
  row _ _ := .error Source.noRows
  answersRows := false

end Report
end LivingDoc
