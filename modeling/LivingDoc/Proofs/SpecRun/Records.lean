import LivingDoc.Proofs.Xml.Tree
import LivingDoc.SpecRun.Index

/-!
What trees of XML elements record, by their shape alone.

Features come in the order in which their elements begin, and a scenario belongs to the feature
element nearest above it, however many other elements lie between. No stack and no position takes
part in this; that the index over the tokens comes to the same is shown elsewhere.
-/

namespace LivingDoc.SpecRun

open Xml (Tree)

/-- The title among the attributes of an element that has one. -/
def titleAmong (attributes : List (List Char × List Char)) : String :=
  String.ofList ((attributes.lookup titleKey).getD [])

/-- The scenario that an element with these attributes records. -/
def recordedScenario (attributes : List (List Char × List Char)) : RecordedScenario :=
  ⟨titleAmong attributes, (attributes.lookup resultKey).map String.ofList⟩

mutual

/-- The scenarios in a tree that belong to the feature around it. -/
def scenariosIn : Tree → List RecordedScenario
  | ⟨name, attributes, children⟩ =>
    if name = featureName then []
    else if name = scenarioName then
      recordedScenario attributes :: scenariosAmong children
    else scenariosAmong children

/-- The scenarios in several trees that belong to the feature around them. -/
def scenariosAmong : List Tree → List RecordedScenario
  | [] => []
  | tree :: trees => scenariosIn tree ++ scenariosAmong trees

end

mutual

/-- The features that a tree records. -/
def featuresIn : Tree → List RecordedFeature
  | ⟨name, attributes, children⟩ =>
    if name = featureName then
      ⟨titleAmong attributes, scenariosAmong children⟩ :: featuresAmong children
    else featuresAmong children

/-- The features that several trees record. -/
def featuresAmong : List Tree → List RecordedFeature
  | [] => []
  | tree :: trees => featuresIn tree ++ featuresAmong trees

end

mutual

/-- Whether each element of a tree that records something has a title. A scenario records something
only `within` a feature. -/
def IsTitled (within : Bool) : Tree → Prop
  | ⟨name, attributes, children⟩ =>
    (name = featureName ∨ name = scenarioName ∧ within = true →
      (attributes.lookup titleKey).isSome = true) ∧
    AreTitled (within || name = featureName) children

/-- Whether each element of several trees that records something has a title. -/
def AreTitled (within : Bool) : List Tree → Prop
  | [] => True
  | tree :: trees => IsTitled within tree ∧ AreTitled within trees

end

mutual

instance decidableIsTitled (within : Bool) : (tree : Tree) → Decidable (IsTitled within tree)
  | ⟨name, attributes, children⟩ =>
    have := decidableAreTitled (within || name = featureName) children
    inferInstanceAs (Decidable ((name = featureName ∨ name = scenarioName ∧ within = true →
      (attributes.lookup titleKey).isSome = true) ∧
      AreTitled (within || name = featureName) children))

instance decidableAreTitled (within : Bool) :
    (trees : List Tree) → Decidable (AreTitled within trees)
  | [] => inferInstanceAs (Decidable True)
  | tree :: trees =>
    have := decidableIsTitled within tree
    have := decidableAreTitled within trees
    inferInstanceAs (Decidable (IsTitled within tree ∧ AreTitled within trees))

end

end LivingDoc.SpecRun
