import LivingDoc.Proofs.Gherkin.Reification
import LivingDoc.Proofs.SourceTree
import LivingDoc.Report

/-!
The features of two reports in one report.

A report answers a question from the first record of the feature that the question is about. So of
two lists of features in one report only the first one that records the feature is asked, while two
reports are both asked. Where no feature is recorded in both lists, this makes no difference;
otherwise the one report may miss what the second list records, and never says more.
-/

namespace LivingDoc

/-- The name of the feature that a question is about. -/
def Question.featureName : Question → String
  | feature asked => asked.name
  | scenario asked => asked.featureName
  | outline asked => asked.featureName
  | element asked => asked.featureName

namespace Report

/-! ## The record behind an answer -/

/-- The verdict of a recorded scenario, if there is one with a title. -/
def verdictOnScenario (recorded : RecordedFeature) (title : String) : Verdict :=
  (recorded.scenario? title).elim .inconclusive RecordedScenario.verdict

/-- The verdict on all rows of the named outline. -/
def verdictOnOutline (format : ReportFormat) (recorded : RecordedFeature) (name : String) :
    Verdict :=
  overallVerdict (outlineRows format recorded name)

/-- What the record of a feature says about a question on that feature. -/
def verdictOn (format : ReportFormat) (recorded : RecordedFeature) : Question → Verdict
  | .feature _ => recorded.verdict
  | .scenario asked => verdictOnScenario recorded asked.name
  | .outline asked => verdictOnOutline format recorded asked.name
  | .element (.scenario asked) => verdictOnScenario recorded asked.name
  | .element (.outline asked) => verdictOnOutline format recorded asked.name

/-- A report answers a question from the record of one feature, the first one with its name. -/
theorem answer_eq (report : Report) (question : Question) :
    report.toSource.answer question =
      (report.feature? question.featureName).elim .inconclusive
        (verdictOn report.format · question) := by
  have ofScenario : ∀ asked : Scenario, report.toSource.scenario asked =
      (report.feature? asked.featureName).elim .inconclusive
        (verdictOnScenario · asked.name) := by
    intro asked
    change ((report.feature? asked.featureName).bind (·.scenario? asked.name)).elim _ _ = _
    cases report.feature? asked.featureName <;> rfl
  cases question with
  | feature asked => rfl
  | scenario asked => exact ofScenario asked
  | outline asked => rfl
  | element asked =>
      cases asked with
      | scenario asked => exact ofScenario asked
      | outline asked => rfl

/-! ## Two lists of features -/

variable {format : ReportFormat} {features more : List RecordedFeature} {question : Question}

theorem feature?_append (name : String) :
    feature? ⟨format, features ++ more⟩ name =
      (feature? ⟨format, features⟩ name).or (feature? ⟨format, more⟩ name) :=
  List.find?_append

/-- If the first list records the feature, the second one is not asked. -/
theorem answer_append_of_recorded {recorded : RecordedFeature}
    (found : feature? ⟨format, features⟩ question.featureName = some recorded) :
    (toSource ⟨format, features ++ more⟩).answer question =
      (toSource ⟨format, features⟩).answer question := by
  rw [answer_eq, answer_eq, feature?_append, found]
  rfl

/-- If the first list does not record the feature, it says nothing, and the second one is asked. -/
theorem answer_append_of_unrecorded
    (absent : feature? ⟨format, features⟩ question.featureName = none) :
    (toSource ⟨format, features ++ more⟩).answer question =
        (toSource ⟨format, more⟩).answer question ∧
      (toSource ⟨format, features⟩).answer question = .inconclusive := by
  rw [answer_eq, answer_eq, answer_eq, feature?_append, absent]
  exact ⟨rfl, rfl⟩

/-- A feature recorded in one of two lists without a common title is not recorded in the other. -/
theorem feature?_eq_none_of_disjoint {recorded : RecordedFeature} {name : String}
    (disjoint : ∀ feature ∈ features, ∀ other ∈ more, feature.title ≠ other.title)
    (found : feature? ⟨format, features⟩ name = some recorded) :
    feature? ⟨format, more⟩ name = none := by
  refine List.find?_eq_none.mpr fun other member same => ?_
  have title := List.find?_some found
  have differ := disjoint recorded (List.mem_of_find?_eq_some found) other member
  exact differ ((beq_iff_eq.mp title).trans (beq_iff_eq.mp same).symm)

/-- **Two lists of features in one report, and in two reports.** If no title is in both lists, the
one report answers every question as the two reports do together. Its answer never weighs more than
theirs, whatever the lists. -/
theorem answer_append (format : ReportFormat) (features more : List RecordedFeature) :
    ((∀ feature ∈ features, ∀ other ∈ more, feature.title ≠ other.title) →
      ∀ question, (toSource ⟨format, features ++ more⟩).answer question =
        (Source.merged [toSource ⟨format, features⟩, toSource ⟨format, more⟩]).answer question) ∧
    ∀ question, ((toSource ⟨format, features ++ more⟩).answer question).rank ≤
      ((Source.merged [toSource ⟨format, features⟩, toSource ⟨format, more⟩]).answer question).rank
    := by
  refine ⟨fun disjoint question => ?_, fun question => ?_⟩
  · rw [Source.answer_merged_pair]
    cases found : feature? ⟨format, features⟩ question.featureName with
    | some recorded =>
        have silent : (toSource ⟨format, more⟩).answer question = .inconclusive := by
          rw [answer_eq, feature?_eq_none_of_disjoint disjoint found]
          rfl
        rw [answer_append_of_recorded found, silent, Verdict.merge_inconclusive]
    | none =>
        have asked := @answer_append_of_unrecorded format features more question found
        rw [asked.1, asked.2, Verdict.inconclusive_merge]
  · rw [Source.answer_merged_pair, Verdict.rank_merge]
    cases found : feature? ⟨format, features⟩ question.featureName with
    | some recorded =>
        rw [answer_append_of_recorded found]
        exact Nat.le_max_left _ _
    | none =>
        rw [(answer_append_of_unrecorded found).1]
        exact Nat.le_max_right _ _

/-- A feature that one list records twice, and another one: in one report or in two, the scenario of
the other feature failed. If the second list records the first feature once more, the one report
misses the failure there. -/
theorem answer_append_shadowed :
    let recorded (title outcome : String) : RecordedFeature := ⟨title, [⟨"s", some outcome⟩]⟩
    let features := [recorded "a" "passed", recorded "a" "ignored"]
    let more := [recorded "b" "failed"]
    let again := [recorded "a" "failed"]
    let source (features : List RecordedFeature) : Source := toSource ⟨.specRun, features⟩
    let question (name : String) : Question := .scenario ⟨"s", "", [], [], name⟩
    (∀ feature ∈ features, ∀ other ∈ more, feature.title ≠ other.title) ∧
      (source (features ++ more)).answer (question "b") =
        (Source.merged [source features, source more]).answer (question "b") ∧
      (source (features ++ more)).answer (question "b") = .failed ∧
      ((source (features ++ again)).answer (question "a")).rank ≤
        ((Source.merged [source features, source again]).answer (question "a")).rank ∧
      (source (features ++ again)).answer (question "a") = .passed ∧
      (Source.merged [source features, source again]).answer (question "a") = .failed := by
  intro recorded features more again source question
  have disjoint : ∀ feature ∈ features, ∀ other ∈ more, feature.title ≠ other.title := by decide
  refine ⟨disjoint, ?_, by decide, ?_, by decide, by decide⟩
  · exact (answer_append .specRun features more).1 disjoint (question "b")
  · exact (answer_append .specRun features again).2 (question "a")

end Report
end LivingDoc
