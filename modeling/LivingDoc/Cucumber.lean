import LivingDoc.Json.Decoder
import LivingDoc.Record
import LivingDoc.Report.Malformed

/-!
Cucumber reports: JSON lists of features with the elements that were run, and the outcome of each
step of an element.

Each row of an outline's examples is an element of its own that carries the name of the outline.
Backgrounds are elements too, but no scenarios.
-/

namespace LivingDoc.Cucumber

open Json (Decoder fields?)

/-- A step as it was run, with its status if there is one. -/
structure Step where
  status : Option String
  deriving DecidableEq, Repr

/-- A scenario, a row of an outline or a background as it was run. -/
structure Element where
  name : String
  kind : Option String
  steps : List Step
  deriving DecidableEq, Repr

/-- A feature with the elements that were run for it. -/
structure Feature where
  name : String
  elements : List Element
  deriving DecidableEq, Repr

/-! ## Decoding -/

/-- Decodes the result of a step to its status. -/
def decodeStatus : Decoder (Option String) := fun place value => do
  let fields ← fields? ["status"] place value
  fields.optional "status" .string

/-- Decodes a step. A missing result says as little as a result without a status. -/
def Step.decode : Decoder Step := fun place value => do
  let fields ← fields? ["result"] place value
  return ⟨(← fields.optional "result" decodeStatus).join⟩

/-- Decodes an element. -/
def Element.decode : Decoder Element := fun place value => do
  let fields ← fields? ["name", "type", "steps"] place value
  return ⟨← fields.required "name" .string, ← fields.optional "type" .string,
    ← fields.items "steps" Step.decode⟩

/-- Decodes a feature. -/
def Feature.decode : Decoder Feature := fun place value => do
  let fields ← fields? ["name", "elements"] place value
  return ⟨← fields.required "name" .string, ← fields.items "elements" Element.decode⟩

/-! ## Records -/

/-- The verdict on a step. -/
def Step.verdict (step : Step) : Verdict :=
  .ofOutcome step.status

/-- The outcome of an element: failed if a step failed, and passed if there are steps and all of
them passed. -/
def Element.outcome (element : Element) : Option String :=
  let verdicts := element.steps.map Step.verdict
  if verdicts.contains .failed then some Verdict.failed.name
  else if verdicts ≠ [] && verdicts.all (· == .passed) then some Verdict.passed.name
  else none

/-- Whether an element is a background. -/
def Element.isBackground (element : Element) : Bool :=
  element.kind == some "background"

/-- What a feature records: its elements except for backgrounds. -/
def Feature.record (feature : Feature) : RecordedFeature :=
  ⟨feature.name, (feature.elements.filter fun element => !element.isBackground).map fun element =>
    ⟨element.name, element.outcome⟩⟩

/-- The features recorded in the text of a report. -/
def features (text : String) : Except Report.Malformed (List RecordedFeature) :=
  match Json.decode? (.list Feature.decode) text with
  | some features => .ok (features.map Feature.record)
  | none => .error (.notCucumberJson text)

end LivingDoc.Cucumber
