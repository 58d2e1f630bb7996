import LivingDoc.Source

/-!
The assessment of a feature by a source of verdicts: one verdict on the whole and one on each of
its elements.
-/

namespace LivingDoc

/-- The verdict on an element of a feature. -/
structure ElementAssessment where
  /-- The name of the kind of the element. -/
  kind : String
  name : String
  tags : List String
  verdict : Verdict
  deriving DecidableEq, Repr

/-- The verdicts on a feature and on its elements in their order. -/
structure Assessment where
  feature : String
  verdict : Verdict
  elements : List ElementAssessment
  deriving DecidableEq, Repr

namespace Assessment

/-- What a source says about a feature. -/
def ofFeature (feature : Feature) (source : Source) : Assessment :=
  ⟨feature.name, source.feature feature,
    feature.elements.map fun element =>
      ⟨element.kind, element.name, element.tags, source.element element⟩⟩

/-- Whether the feature or one of its elements failed. -/
def anyFailed (assessment : Assessment) : Bool :=
  assessment.verdict == .failed
    || assessment.elements.any fun element => element.verdict == .failed

/-- An assessment as a JSON value. -/
def encode (assessment : Assessment) : Json :=
  .record [("feature", .text assessment.feature), ("result", .text assessment.verdict.name),
    ("elements", .list (assessment.elements.map fun element =>
      .record [("kind", .text element.kind), ("name", .text element.name),
        ("tags", encodeTexts element.tags), ("result", .text element.verdict.name)]))]

end Assessment
end LivingDoc
