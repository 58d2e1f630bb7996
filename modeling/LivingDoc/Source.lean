import LivingDoc.Feature
import LivingDoc.Verdict

/-!
Sources of verdicts: whatever answers questions about the features, scenarios and outlines of the
documentation. Several sources together are one source, which merges their answers.
-/

namespace LivingDoc

/-- A question that a source cannot answer. -/
inductive QueryFault where
  | unsupported (what : String)
  deriving DecidableEq, Repr

/-- The message that states a fault. -/
def QueryFault.message : QueryFault → String
  | unsupported what => what ++ " is not supported by this results source"

/-- What answers questions about verdicts. -/
structure Source where
  feature : Feature → Verdict
  scenario : Scenario → Verdict
  outline : Outline → Verdict
  /-- The verdict on the row of an outline's examples with the given values. -/
  row : Outline → List String → Except QueryFault Verdict
  /-- Whether the source tells the rows of examples apart. -/
  answersRows : Bool

namespace Source

/-- The verdict on an element of a feature. -/
def element (source : Source) : Element → Verdict
  | .scenario scenario => source.scenario scenario
  | .outline outline => source.outline outline

/-- The refusal of a question about a row of examples. -/
def noRows : QueryFault := .unsupported "example results"

/-- Several sources as one. It can tell rows of examples apart only if there are sources and all
of them can. -/
def merged (sources : List Source) : Source where
  feature feature := .overall (sources.map fun source => source.feature feature)
  scenario scenario := .overall (sources.map fun source => source.scenario scenario)
  outline outline := .overall (sources.map fun source => source.outline outline)
  row outline values :=
    if !sources.isEmpty && sources.all answersRows then do
      return .overall (← sources.mapM fun source => source.row outline values)
    else .error noRows
  answersRows := !sources.isEmpty && sources.all answersRows

end Source
end LivingDoc
