import LivingDoc.Loading
import LivingDoc.Proofs.Cucumber
import LivingDoc.Proofs.Except
import LivingDoc.Proofs.SourceTree

/-!
Reports of the same shape, one of which never records a better outcome than the other.

What is looked up in two such reports is found at the same places in both. From there on everything
respects the rank of verdicts, even the outcome of a Cucumber element, which is no merge of its
steps: a step without a status undoes a pass. So a worse outcome anywhere in a report never improves
the verdict on a feature or on one of its elements.
-/

namespace LivingDoc

/-! ## Verdicts -/

/-- The first of two verdicts weighs at most as much as the second. -/
def Verdict.AtMost (verdict verdict' : Verdict) : Prop :=
  verdict.rank ≤ verdict'.rank

/-- Verdicts that weigh more one by one weigh more together. -/
theorem Verdict.AtMost.overall {verdicts verdicts' : List Verdict}
    (atMost : List.Forall₂ Verdict.AtMost verdicts verdicts') :
    (overall verdicts).AtMost (overall verdicts') := by
  refine rank_overall_le_iff.mpr fun verdict member => ?_
  obtain ⟨verdict', member', heavier⟩ := exists_partner atMost member
  exact Nat.le_trans heavier (rank_le_rank_overall member')

/-! ## What reports record -/

/-- Whether two recorded scenarios differ in their outcomes only, and that of the first weighs at
most as much as that of the second. -/
structure RecordedScenario.AtMost (scenario scenario' : RecordedScenario) : Prop where
  title : scenario.title = scenario'.title
  verdict : scenario.verdict.AtMost scenario'.verdict

/-- Whether two recorded features differ in the outcomes of scenarios only, and those of the first
weigh at most as much as those of the second. -/
structure RecordedFeature.AtMost (feature feature' : RecordedFeature) : Prop where
  title : feature.title = feature'.title
  scenarios : List.Forall₂ RecordedScenario.AtMost feature.scenarios feature'.scenarios

namespace Cucumber

/-- Whether one step was recorded with a status that weighs at most as much as that of another. -/
def Step.AtMost (step step' : Step) : Prop :=
  step.verdict.AtMost step'.verdict

/-- Whether two elements differ in the statuses of their steps only, and those of the first weigh at
most as much as those of the second. -/
structure Element.AtMost (element element' : Element) : Prop where
  name : element.name = element'.name
  kind : element.kind = element'.kind
  steps : List.Forall₂ Step.AtMost element.steps element'.steps

/-- Whether two features differ in the statuses of steps only, and those of the first weigh at most
as much as those of the second. -/
structure Feature.AtMost (feature feature' : Feature) : Prop where
  name : feature.name = feature'.name
  elements : List.Forall₂ Element.AtMost feature.elements feature'.elements

/-- Where no step improves, the element does not improve. A pass can only turn into a failure: all
steps still pass, or one of them fails. -/
theorem Element.AtMost.verdict {element element' : Element} (atMost : element.AtMost element') :
    element.verdict.AtMost element'.verdict := by
  cases known : element.verdict with
  | inconclusive => exact Nat.zero_le _
  | failed =>
      obtain ⟨step, member, failed⟩ := verdict_eq_failed_iff.mp known
      obtain ⟨step', member', heavier⟩ := exists_partner atMost.steps member
      unfold Step.AtMost Verdict.AtMost at heavier
      rw [failed] at heavier
      have failed' := Verdict.one_lt_rank_iff.mp heavier
      rw [verdict_eq_failed_iff.mpr ⟨step', member', failed'⟩]
      exact Nat.le_refl _
  | passed =>
      obtain ⟨nonempty, all⟩ := verdict_eq_passed_iff.mp known
      by_cases failure : ∃ step' ∈ element'.steps, step'.verdict = .failed
      · rw [verdict_eq_failed_iff.mpr failure]
        exact Nat.le_succ 1
      · have nonempty' : element'.steps ≠ [] := by
          intro none
          have same := atMost.steps.length_eq
          rw [none] at same
          exact nonempty (List.length_eq_zero_iff.mp same)
        have all' : ∀ step' ∈ element'.steps, step'.verdict = .passed := by
          intro step' member'
          have flipped : List.Forall₂ (fun step' step => Step.AtMost step step') element'.steps
              element.steps := List.Forall₂.flip atMost.steps
          obtain ⟨step, member, heavier⟩ := exists_partner flipped member'
          unfold Step.AtMost Verdict.AtMost at heavier
          rw [all step member] at heavier
          cases found : step'.verdict with
          | passed => rfl
          | failed => exact absurd ⟨step', member', found⟩ failure
          | inconclusive =>
              rw [found] at heavier
              cases heavier
        rw [verdict_eq_passed_iff.mpr ⟨nonempty', all'⟩]
        exact Nat.le_refl _

/-- Backgrounds are left out at the same places of two features, so their records correspond. -/
theorem Feature.AtMost.record {feature feature' : Feature} (atMost : feature.AtMost feature') :
    feature.record.AtMost feature'.record := by
  refine ⟨atMost.name, ?_⟩
  have kept : List.Forall₂ Element.AtMost
      (feature.elements.filter fun element => !element.isBackground)
      (feature'.elements.filter fun element => !element.isBackground) := by
    refine List.rel_filter (fun element element' related => ?_) atMost.elements
    have same : element.isBackground = element'.isBackground :=
      congrArg (fun kind => kind == some "background") related.kind
    exact iff_of_eq (congrArg (fun background => (!background) = true) same)
  unfold Feature.record
  rw [List.forall₂_map_left_iff, List.forall₂_map_right_iff]
  exact kept.imp fun element element' related => ⟨related.name, related.verdict⟩

end Cucumber

/-! ## Search in a report -/

/-- What is searched for is found at the same place of two lists, or in neither. -/
theorem find?_rel {α : Type} {R : α → α → Prop} {p : α → Bool} {items items' : List α}
    (related : List.Forall₂ R items items') (same : ∀ item item', R item item' → p item = p item') :
    Option.Rel R (items.find? p) (items'.find? p) := by
  induction related with
  | nil => exact .none
  | @cons item item' items items' here _ ih =>
      have first := same item item' here
      cases found : p item with
      | true =>
          rw [List.find?_cons_of_pos found, List.find?_cons_of_pos (first ▸ found)]
          exact .some here
      | false =>
          have absent : ¬ p item = true := by simp [found]
          rw [List.find?_cons_of_neg absent, List.find?_cons_of_neg (first ▸ absent)]
          exact ih

/-- What is found in two places gives comparable verdicts, and what is not found gives none. -/
theorem elim_atMost {α : Type} {R : α → α → Prop} {verdict : α → Verdict}
    {found found' : Option α} (related : Option.Rel R found found')
    (atMost : ∀ item item', R item item' → (verdict item).AtMost (verdict item')) :
    (found.elim .inconclusive verdict).AtMost (found'.elim .inconclusive verdict) := by
  cases related with
  | none => exact Nat.le_refl _
  | some here => exact atMost _ _ here

theorem overallVerdict_atMost {scenarios scenarios' : List RecordedScenario}
    (atMost : List.Forall₂ RecordedScenario.AtMost scenarios scenarios') :
    (overallVerdict scenarios).AtMost (overallVerdict scenarios') := by
  refine Verdict.AtMost.overall ?_
  rw [List.forall₂_map_left_iff, List.forall₂_map_right_iff]
  exact atMost.imp fun scenario scenario' related => related.verdict

namespace RecordedFeature.AtMost

variable {feature feature' : RecordedFeature}

/-- Scenarios that are chosen by their titles stand at the same places. -/
theorem filter (atMost : feature.AtMost feature') (p : String → Bool) :
    List.Forall₂ RecordedScenario.AtMost
      (feature.scenarios.filter fun scenario => p scenario.title)
      (feature'.scenarios.filter fun scenario => p scenario.title) := by
  refine List.rel_filter (fun scenario scenario' related => ?_) atMost.scenarios
  exact iff_of_eq (congrArg (fun title => p title = true) related.title)

theorem scenario? (atMost : feature.AtMost feature') (title : String) :
    Option.Rel RecordedScenario.AtMost (feature.scenario? title) (feature'.scenario? title) :=
  find?_rel atMost.scenarios fun scenario scenario' related => by rw [related.title]

theorem outlineRows (atMost : feature.AtMost feature') (format : ReportFormat)
    (outlineName : String) :
    List.Forall₂ RecordedScenario.AtMost (Report.outlineRows format feature outlineName)
      (Report.outlineRows format feature' outlineName) := by
  cases format with
  | specRun =>
      exact atMost.filter fun title => (rowTitleStart outlineName).toList.isPrefixOf title.toList
  | cucumberJson => exact atMost.filter fun title => title == outlineName

end RecordedFeature.AtMost

/-! ## Reports -/

namespace Report

/-- `report.AtMost report'`: two reports of one format agree in all but outcomes, and each outcome
of a scenario (in a SpecRun report) or status of a step (in a Cucumber report) of the first weighs
at most as much as that in its place in the second. -/
inductive AtMost : Report → Report → Prop
  | specRun {features features' : List RecordedFeature} :
    List.Forall₂ RecordedFeature.AtMost features features' →
    AtMost ⟨.specRun, features⟩ ⟨.specRun, features'⟩
  | cucumberJson {features features' : List Cucumber.Feature} :
    List.Forall₂ Cucumber.Feature.AtMost features features' →
    AtMost ⟨.cucumberJson, features.map Cucumber.Feature.record⟩
      ⟨.cucumberJson, features'.map Cucumber.Feature.record⟩

namespace AtMost

variable {report report' : Report}

theorem features (atMost : report.AtMost report') :
    report.format = report'.format ∧
      List.Forall₂ RecordedFeature.AtMost report.features report'.features := by
  cases atMost with
  | specRun features => exact ⟨rfl, features⟩
  | cucumberJson features =>
      refine ⟨rfl, ?_⟩
      rw [List.forall₂_map_left_iff, List.forall₂_map_right_iff]
      exact features.imp fun feature feature' related => related.record

theorem feature? (atMost : report.AtMost report') (name : String) :
    Option.Rel RecordedFeature.AtMost (report.feature? name) (report'.feature? name) :=
  find?_rel atMost.features.2 fun feature feature' related => by rw [related.title]

theorem scenario (atMost : report.AtMost report') (scenario : Scenario) :
    (report.toSource.scenario scenario).AtMost (report'.toSource.scenario scenario) := by
  have found := atMost.feature? scenario.featureName
  unfold toSource
  dsimp only
  generalize report.feature? scenario.featureName = feature?,
    report'.feature? scenario.featureName = feature?' at found
  cases found with
  | none => exact Nat.le_refl _
  | some related =>
      exact elim_atMost (related.scenario? scenario.name) fun _ _ related => related.verdict

theorem outline (atMost : report.AtMost report') (outline : Outline) :
    (report.toSource.outline outline).AtMost (report'.toSource.outline outline) := by
  have found := atMost.feature? outline.featureName
  unfold toSource
  dsimp only
  rw [atMost.features.1]
  exact elim_atMost found fun _ _ related =>
    overallVerdict_atMost (related.outlineRows report'.format outline.name)

/-- **A better report answers no question with a worse verdict.** -/
theorem answer (atMost : report.AtMost report') (question : Question) :
    (report.toSource.answer question).AtMost (report'.toSource.answer question) := by
  cases question with
  | feature feature =>
      exact elim_atMost (atMost.feature? feature.name) fun _ _ related =>
        overallVerdict_atMost related.scenarios
  | scenario scenario => exact atMost.scenario scenario
  | outline outline => exact atMost.outline outline
  | element element =>
      cases element with
      | scenario scenario => exact atMost.scenario scenario
      | outline outline => exact atMost.outline outline

end AtMost

theorem atMost_self_of_parse {format : ReportFormat} {text : String} {report : Report}
    (parsed : parse format text = .ok report) : report.AtMost report := by
  cases format with
  | specRun =>
      obtain ⟨payload, _, parsed⟩ := bind_eq_ok_iff.mp parsed
      obtain ⟨features, _, parsed⟩ := bind_eq_ok_iff.mp parsed
      cases parsed
      exact .specRun (List.forall₂_same.mpr fun feature _ =>
        ⟨rfl, List.forall₂_same.mpr fun _ _ => ⟨rfl, Nat.le_refl _⟩⟩)
  | cucumberJson =>
      obtain ⟨features, found, parsed⟩ := bind_eq_ok_iff.mp parsed
      cases parsed
      unfold Cucumber.features at found
      split at found
      · cases found
        exact .cucumberJson (List.forall₂_same.mpr fun feature _ =>
          ⟨rfl, List.forall₂_same.mpr fun element _ =>
            ⟨rfl, rfl, List.forall₂_same.mpr fun _ _ => Nat.le_refl _⟩⟩)
      · cases found

/-- The order reaches every report that can be loaded: each is at most itself. -/
theorem atMost_self_of_load {directory : Directory} {location : ReportLocation} {report : Report}
    (loaded : load directory location = .ok report) : report.AtMost report := by
  unfold load read at loaded
  split at loaded
  · cases loaded
  · next read =>
    split at read
    · cases read
    · next text _ =>
      split at read
      · cases read
      · next parsed =>
        cases read
        cases loaded
        exact atMost_self_of_parse parsed

end Report

/-! ## Assessments -/

/-- Whether two rows are about the same element, and the verdict of the first weighs at most as much
as that of the second. -/
structure ElementAssessment.AtMost (row row' : ElementAssessment) : Prop where
  kind : row.kind = row'.kind
  name : row.name = row'.name
  tags : row.tags = row'.tags
  verdict : row.verdict.AtMost row'.verdict

/-- Whether two assessments are about the same feature, and each verdict of the first weighs at most
as much as that in its place in the second. -/
structure Assessment.AtMost (assessment assessment' : Assessment) : Prop where
  feature : assessment.feature = assessment'.feature
  verdict : assessment.verdict.AtMost assessment'.verdict
  elements : List.Forall₂ ElementAssessment.AtMost assessment.elements assessment'.elements

namespace Assessment

/-- A source that answers every question with a verdict at least as heavy assesses no better. -/
theorem atMost_of_answer {source source' : Source}
    (atMost : ∀ question, (source.answer question).AtMost (source'.answer question))
    (feature : Feature) : (ofFeature feature source).AtMost (ofFeature feature source') where
  feature := rfl
  verdict := atMost (.feature feature)
  elements := by
    unfold ofFeature
    rw [List.forall₂_map_left_iff, List.forall₂_map_right_iff, List.forall₂_same]
    exact fun element _ => ⟨rfl, rfl, rfl, atMost (.element element)⟩

/-- Failures stay. -/
theorem AtMost.anyFailed {assessment assessment' : Assessment}
    (atMost : assessment.AtMost assessment') (failed : assessment.anyFailed = true) :
    assessment'.anyFailed = true := by
  unfold Assessment.anyFailed at failed ⊢
  rw [Bool.or_eq_true, beq_iff_eq, List.any_eq_true] at failed ⊢
  rcases failed with whole | ⟨row, member, failed⟩
  · have heavier := atMost.verdict
    rw [Verdict.AtMost, whole] at heavier
    exact .inl (Verdict.one_lt_rank_iff.mp heavier)
  · obtain ⟨row', member', related⟩ := exists_partner atMost.elements member
    have heavier := related.verdict
    rw [Verdict.AtMost, eq_of_beq failed] at heavier
    exact .inr ⟨row', member', beq_iff_eq.mpr (Verdict.one_lt_rank_iff.mp heavier)⟩

/-- **No recorded outcome masks a worse one.** -/
theorem ofReports_mono {reports reports' : List Report}
    (atMost : List.Forall₂ Report.AtMost reports reports') (feature : Feature) :
    (ofFeature feature (Source.ofReports reports)).AtMost
        (ofFeature feature (Source.ofReports reports')) ∧
      ((ofFeature feature (Source.ofReports reports)).anyFailed = true →
        (ofFeature feature (Source.ofReports reports')).anyFailed = true) := by
  have assessed : (ofFeature feature (Source.ofReports reports)).AtMost
      (ofFeature feature (Source.ofReports reports')) := by
    refine atMost_of_answer (fun question => ?_) feature
    unfold Source.ofReports
    rw [Source.answer_merged, Source.answer_merged, List.map_map, List.map_map]
    refine Verdict.AtMost.overall ?_
    rw [List.forall₂_map_left_iff, List.forall₂_map_right_iff]
    exact atMost.imp fun report report' related => related.answer question
  exact ⟨assessed, assessed.anyFailed⟩

/-- A step without a status comes to fail and an ignored scenario to pass. The scenario, of which
nothing was known, now fails, and the outline that failed still does. -/
theorem ofReports_mono_undefined :
    let feature : Feature := ⟨"f", "", [], [.scenario ⟨"s", "", [], [], "f"⟩,
      .outline ⟨"o", "", [], [], [], "f"⟩], none⟩
    let reports (outcome : String) (status : Option String) : List Report :=
      [⟨.specRun, [⟨"f", [⟨"s", some outcome⟩, ⟨"o, 1", some "failed"⟩]⟩]⟩,
        ⟨.cucumberJson, [Cucumber.Feature.record
          ⟨"f", [⟨"s", none, [⟨some "passed"⟩, ⟨status⟩]⟩]⟩]⟩]
    let before := ofFeature feature (Source.ofReports (reports "ignored" none))
    let after := ofFeature feature (Source.ofReports (reports "passed" (some "Failed")))
    before = ⟨"f", .failed, [⟨"scenario", "s", [], .inconclusive⟩,
        ⟨"scenario_outline", "o", [], .failed⟩]⟩ ∧
      before.AtMost after ∧ after.anyFailed = true := by
  intro feature reports before after
  have known : before = ⟨"f", .failed, [⟨"scenario", "s", [], .inconclusive⟩,
      ⟨"scenario_outline", "o", [], .failed⟩]⟩ := by decide
  have failed : before.anyFailed = true := by
    rw [known]
    rfl
  have outcomes : (Verdict.ofOutcome (some "ignored")).AtMost (.ofOutcome (some "passed")) := by
    unfold Verdict.AtMost
    decide
  have atMost : List.Forall₂ Report.AtMost (reports "ignored" none)
      (reports "passed" (some "Failed")) := by
    refine .cons (.specRun ?_) (.cons (@Report.AtMost.cucumberJson [_] [_] ?_) .nil)
    · exact .cons ⟨rfl, .cons ⟨rfl, outcomes⟩ (.cons ⟨rfl, Nat.le_refl _⟩ .nil)⟩ .nil
    · exact .cons ⟨rfl, .cons ⟨rfl, rfl, .cons (Nat.le_refl _) (.cons (Nat.zero_le _) .nil)⟩ .nil⟩
        .nil
  obtain ⟨assessed, stillFailed⟩ := ofReports_mono atMost feature
  exact ⟨known, assessed, stillFailed failed⟩

end Assessment
end LivingDoc
