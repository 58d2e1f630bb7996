import LivingDoc.Verdict

/-!
What a report has recorded about test runs, and the search for the record of a behaviour.

Behaviour and record meet by their titles alone, and of several features or scenarios with one
title the first one counts. Some reports record each row of an outline's examples as a scenario of
its own, whose title is the name of the outline, a comma, a space and the values of the row.
-/

namespace LivingDoc

/-- A scenario as it was run. -/
structure RecordedScenario where
  title : String
  /-- The outcome in the words of the report, if there is one. -/
  outcome : Option String
  deriving DecidableEq, Repr

/-- A feature with the scenarios that were run for it. -/
structure RecordedFeature where
  title : String
  scenarios : List RecordedScenario
  deriving DecidableEq, Repr

/-- The verdict on a recorded scenario. -/
def RecordedScenario.verdict (scenario : RecordedScenario) : Verdict :=
  .ofOutcome scenario.outcome

/-- The verdict on several recorded scenarios together. -/
def overallVerdict (scenarios : List RecordedScenario) : Verdict :=
  .overall (scenarios.map RecordedScenario.verdict)

/-- The beginning that the titles of all rows of an outline share. -/
def rowTitleStart (outlineName : String) : String :=
  outlineName ++ ", "

namespace RecordedFeature

/-- The verdict on all that was recorded for a feature. -/
def verdict (feature : RecordedFeature) : Verdict :=
  overallVerdict feature.scenarios

/-- The first scenario with a title. -/
def scenario? (feature : RecordedFeature) (title : String) : Option RecordedScenario :=
  feature.scenarios.find? fun scenario => scenario.title == title

/-- All scenarios with a title. -/
def titled (feature : RecordedFeature) (title : String) : List RecordedScenario :=
  feature.scenarios.filter fun scenario => scenario.title == title

/-- All scenarios that are rows of the named outline. -/
def rows (feature : RecordedFeature) (outlineName : String) : List RecordedScenario :=
  feature.scenarios.filter fun scenario =>
    (rowTitleStart outlineName).toList.isPrefixOf scenario.title.toList

/-- The first feature with a title. -/
def find? (features : List RecordedFeature) (title : String) : Option RecordedFeature :=
  features.find? fun feature => feature.title == title

end RecordedFeature
end LivingDoc
