/-!
The keywords of a behaviour description, independent of the language they are written in.
-/

namespace LivingDoc

/-- What a keyword of a behaviour description stands for. -/
inductive Keyword where
  | given
  | when
  | «then»
  | and
  | but
  | feature
  | background
  | scenario
  | scenarioOutline
  | examples
  deriving DecidableEq, Repr

namespace Keyword

/-- All keywords in the order in which a spelling is looked up. The step keywords come first, with
`given` in front, so that a spelling which several of them share stands for `given`. -/
def all : List Keyword :=
  [given, when, «then», and, but, feature, background, scenario, scenarioOutline, examples]

/-- The name a keyword is written with in a model. -/
def name : Keyword → String
  | given => "Given"
  | when => "When"
  | «then» => "Then"
  | and => "And"
  | but => "But"
  | feature => "Feature"
  | background => "Background"
  | scenario => "Scenario"
  | scenarioOutline => "ScenarioOutline"
  | examples => "Examples"

end Keyword

end LivingDoc
