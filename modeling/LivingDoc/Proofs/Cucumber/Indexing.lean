import LivingDoc.Proofs.Cucumber
import LivingDoc.Proofs.Json.Forms
import LivingDoc.Report

/-!
What a Cucumber report records, in whatever form its features are written.

No value in such a report is examined before its type is known, so what its members are that no
structure knows does not matter. Of the features, only names and the elements that are no
backgrounds are recorded.
-/

namespace LivingDoc.Cucumber

open Json (Form fields?)
open Json.Decoder (Accepts)

/-! ## Forms -/

/-- The forms of the result of a step, given its status. -/
def statusForm : Form (Option String) :=
  .record fun status => [.optional "status" .text status]

/-- The forms of a step, given its result. -/
def resultForm : Form (Option (Option String)) :=
  .record fun result => [.optional "result" statusForm result]

/-- The forms of a step. Without a status it may have a result or none. -/
def Step.form : Form Step := fun step value =>
  ∃ result : Option (Option String), result.join = step.status ∧ resultForm result value

/-- The forms of an element. -/
def Element.form : Form Element :=
  .record fun element => [.required "name" .text element.name,
    .optional "type" .text element.kind, .items "steps" Step.form element.steps]

/-- The forms of a feature. -/
def Feature.form : Form Feature :=
  .record fun feature => [.required "name" .text feature.name,
    .items "elements" Element.form feature.elements]

/-! ## Decoding -/

/-- Nothing is asked of values that are not examined. -/
abbrev Unexamined : Json.Place → Json → Prop :=
  fun _ _ => True

theorem inherited_unexamined : Json.Inherited Unexamined where
  item _ _ _ := trivial
  member _ _ _ := trivial

theorem accepts_status : Accepts Unexamined decodeStatus statusForm := by
  refine .record inherited_unexamined (by decide) (fun _ => rfl) fun status given found => ?_
  obtain ⟨status, -⟩ := List.forall_mem_cons.mp found
  exact status.optional .optionalText

theorem accepts_result : Accepts Unexamined
    (fun place value => do (← fields? ["result"] place value).optional "result" decodeStatus)
    resultForm := by
  refine .record inherited_unexamined (by decide) (fun _ => rfl) fun result given found => ?_
  obtain ⟨result, -⟩ := List.forall_mem_cons.mp found
  exact result.optional (.optional accepts_status Form.not_record_null)

theorem Step.accepts : Accepts Unexamined decode form := by
  rintro place step value ⟨result, status, isForm⟩ _
  have decoded := accepts_result place result value isForm trivial
  obtain ⟨given, fields, decoded⟩ := Option.bind_eq_some_iff.mp decoded
  rw [decode, fields]
  change (given.optional "result" decodeStatus).bind _ = _
  rw [decoded, Option.bind_some, status]
  rfl

theorem Element.accepts : Accepts Unexamined decode form := by
  refine .record inherited_unexamined (by decide) (fun _ => rfl) fun element given found => ?_
  simp only [List.forall_mem_cons] at found
  obtain ⟨name, kind, steps, -⟩ := found
  rw [name.required .text, kind.optional .optionalText,
    steps.items (.list inherited_unexamined Step.accepts)]
  rfl

theorem Feature.accepts : Accepts Unexamined decode form := by
  refine .record inherited_unexamined (by decide) (fun _ => rfl) fun feature given found => ?_
  simp only [List.forall_mem_cons] at found
  obtain ⟨name, elements, -⟩ := found
  rw [name.required .text, elements.items (.list inherited_unexamined Element.accepts)]
  rfl

/-- A text that spells a form of some features is read as what they record. -/
theorem features_of_form {features : List Feature} {value : Json} {text : String}
    (isForm : Form.list Feature.form features value)
    (spells : Json.Spells text.toList value.tokens) :
    Cucumber.features text = .ok (features.map Feature.record) := by
  have accepts : Accepts Unexamined (.list Feature.decode) (Form.list Feature.form) :=
    .list inherited_unexamined Feature.accepts
  rw [Cucumber.features, accepts.decode?_eq isForm spells trivial]

/-! ## Records -/

/-- Whether a step has a certain status, up to the case of the letters A to Z. -/
def Step.HasStatus (step : Step) (word : String) : Prop :=
  ∃ status, step.status = some status ∧ Text.sameIgnoringCase status word = true

/-- The elements of a feature that are scenarios. -/
def Feature.scenarios (feature : Feature) : List Element :=
  feature.elements.filter fun element => element.kind ≠ some "background"

/-- Whether a step of an element has failed. -/
def Element.Fails (element : Element) : Prop :=
  ∃ step ∈ element.steps, step.HasStatus "failed"

/-- Whether an element has steps and all of them have passed. -/
def Element.Passes (element : Element) : Prop :=
  element.steps ≠ [] ∧ ∀ step ∈ element.steps, step.HasStatus "passed"

/-- What is recorded of an element. -/
structure Element.RecordedAs (element : Element) (scenario : RecordedScenario) : Prop where
  title : scenario.title = element.name
  failed : scenario.verdict = .failed ↔ element.Fails
  passed : scenario.verdict = .passed ↔ ¬ element.Fails ∧ element.Passes
  inconclusive : scenario.verdict = .inconclusive ↔ ¬ element.Fails ∧ ¬ element.Passes

/-- What is recorded of a feature: its scenarios in order. -/
structure Feature.RecordedAs (feature : Feature) (recorded : RecordedFeature) : Prop where
  title : recorded.title = feature.name
  scenarios : List.Forall₂ Element.RecordedAs feature.scenarios recorded.scenarios

/-- Whether two features differ at most in their backgrounds. -/
structure Feature.SameScenarios (feature feature' : Feature) : Prop where
  name : feature.name = feature'.name
  scenarios : feature.scenarios = feature'.scenarios

namespace Element

variable {element : Element}

theorem verdict_eq_failed_iff_fails : element.verdict = .failed ↔ element.Fails := by
  rw [verdict_eq_failed_iff]
  exact exists_congr fun step => and_congr_right fun _ => Verdict.ofOutcome_eq_failed_iff

theorem verdict_eq_passed_iff_passes : element.verdict = .passed ↔ element.Passes := by
  rw [verdict_eq_passed_iff]
  exact and_congr_right fun _ => forall_congr' fun step => imp_congr_right fun _ =>
    Verdict.ofOutcome_eq_passed_iff

theorem recordedAs (element : Element) : element.RecordedAs ⟨element.name, element.outcome⟩ := by
  have failed : element.verdict = .failed ↔ element.Fails := verdict_eq_failed_iff_fails
  have passed : element.verdict = .passed ↔ element.Passes := verdict_eq_passed_iff_passes
  refine ⟨rfl, failed, ?_, ?_⟩
  · change element.verdict = .passed ↔ _
    rw [← failed, ← passed]
    cases element.verdict <;> decide
  · change element.verdict = .inconclusive ↔ _
    rw [← failed, ← passed]
    cases element.verdict <;> decide

end Element

namespace Feature

theorem record_eq (feature : Feature) :
    feature.record =
      ⟨feature.name, feature.scenarios.map fun element => ⟨element.name, element.outcome⟩⟩ := by
  have scenarios : (fun element : Element => !element.isBackground) =
      fun element => decide (element.kind ≠ some "background") := by
    funext element
    simp [Element.isBackground, beq_eq_decide]
  rw [record, Feature.scenarios, scenarios]

theorem recordedAs (feature : Feature) : feature.RecordedAs feature.record := by
  rw [record_eq]
  exact ⟨rfl, List.forall₂_map_right_iff.mpr (List.forall₂_same.mpr fun element _ =>
    element.recordedAs)⟩

/-- Backgrounds leave no trace in what is recorded. -/
theorem SameScenarios.record_eq {feature feature' : Feature}
    (same : feature.SameScenarios feature') : feature.record = feature'.record := by
  rw [Feature.record_eq, Feature.record_eq, same.name, same.scenarios]

end Feature

/-- **What a Cucumber report records**, in whatever form its features are written: the features in
order, and of each the elements that are no backgrounds. What reports say that differ at most in
their backgrounds is the same. -/
theorem ofCucumber_of_form {features : List Feature} {value : Json} {text : String}
    (isForm : Form.list Feature.form features value)
    (spells : Json.Spells text.toList value.tokens) :
    (∃ recorded, Report.ofCucumber text = .ok ⟨.cucumberJson, recorded⟩ ∧
      List.Forall₂ Feature.RecordedAs features recorded) ∧
    ∀ (features' : List Feature) (value' : Json) (text' : String),
      List.Forall₂ Feature.SameScenarios features features' →
      Form.list Feature.form features' value' → Json.Spells text'.toList value'.tokens →
      Report.ofCucumber text' = Report.ofCucumber text := by
  have read := features_of_form isForm spells
  refine ⟨⟨features.map Feature.record, ?_, ?_⟩,
    fun features' value' text' same isForm' spells' => ?_⟩
  · rw [Report.ofCucumber, read]
    rfl
  · exact List.forall₂_map_right_iff.mpr (List.forall₂_same.mpr fun feature _ =>
      feature.recordedAs)
  · have records : features.map Feature.record = features'.map Feature.record := by
      rw [← List.forall₂_eq_eq_eq, List.forall₂_map_left_iff, List.forall₂_map_right_iff]
      exact same.imp fun _ _ same => same.record_eq
    rw [Report.ofCucumber, Report.ofCucumber, read, features_of_form isForm' spells', records]

/-- A report with members that no structure knows, one a number that no double can hold, and blanks
after every token. A failed background is recorded in it as little as none. -/
theorem ofCucumber_of_form_background :
    let background : Element := ⟨"", some "background", [⟨some "failed"⟩]⟩
    let lunch : Element := ⟨"Lunch", none, [⟨some "PASSED"⟩, ⟨none⟩]⟩
    let failed : Json := .record [("result", .record [("status", .text "failed")])]
    let passed : Json := .record [("result", .record [("status", .text "PASSED")])]
    let skipped : Json := .record [("result", .null)]
    let backgroundValue : Json := .record [("name", .text ""), ("type", .text "background"),
      ("steps", .list [failed])].reverse
    let lunchValue : Json :=
      .record [("name", .text "Lunch"), ("steps", .list [passed, skipped])].reverse
    let value : Json := .list [.record [("name", .text "Eating"),
      ("elements", .list [backgroundValue, lunchValue]), ("added", .str none),
      ("added", .num ⟨false, ['1'], none, some ⟨'e', none, ['9', '9', '9']⟩⟩)].reverse]
    let text := String.ofList (value.tokens.flatMap fun token => token.text ++ ['\n'])
    let value' : Json := .list [.record [("name", .text "Eating"),
      ("elements", .list [lunchValue])]]
    let text' := String.ofList (value'.tokens.flatMap fun token => token.text ++ [' '])
    let features : List Feature := [⟨"Eating", [background, lunch]⟩]
    let features' : List Feature := [⟨"Eating", [lunch]⟩]
    Form.list Feature.form features value ∧ Json.Spells text.toList value.tokens ∧
      List.Forall₂ Feature.SameScenarios features features' ∧
      Form.list Feature.form features' value' ∧ Json.Spells text'.toList value'.tokens ∧
      (∃ recorded, Report.ofCucumber text = .ok ⟨.cucumberJson, recorded⟩ ∧
        List.Forall₂ Feature.RecordedAs features recorded) ∧
      Report.ofCucumber text' = Report.ofCucumber text := by
  intro background lunch failed passed skipped backgroundValue lunchValue value text value' text'
    features features'
  have status (word : String) :
      Step.form ⟨some word⟩ (.record [("result", .record [("status", .text word)])]) :=
    ⟨some (some word), rfl,
      Form.record_of_given (.member (Form.record_of_given (.member rfl .nil)) .nil)⟩
  have isSkipped : Step.form ⟨none⟩ skipped :=
    ⟨none, rfl, Form.record_of_given (.member rfl .nil)⟩
  have isBackground : Element.form background backgroundValue :=
    Form.record_of_perm (.member rfl (.member rfl (.member
      ⟨_, rfl, .cons (status "failed") .nil⟩ .nil))) (List.reverse_perm _)
  have isLunch : Element.form lunch lunchValue :=
    Form.record_of_perm (.member rfl (.leftOut rfl (.member
      ⟨_, rfl, .cons (status "PASSED") (.cons isSkipped .nil)⟩ .nil))) (List.reverse_perm _)
  have isForm : Form.list Feature.form features value :=
    ⟨_, rfl, .cons ⟨_, [("added", .str none), ("added", .num _)], _,
      .member rfl (.member ⟨_, rfl, .cons isBackground (.cons isLunch .nil)⟩ .nil), by decide,
      List.reverse_perm _, rfl⟩ .nil⟩
  have isForm' : Form.list Feature.form features' value' :=
    ⟨_, rfl, .cons (Form.record_of_given
      (.member rfl (.member ⟨_, rfl, .cons isLunch .nil⟩ .nil))) .nil⟩
  have same : List.Forall₂ Feature.SameScenarios features features' := .cons ⟨rfl, rfl⟩ .nil
  have spells : Json.Spells text.toList value.tokens := by
    rw [String.toList_ofList]
    exact Json.spells_spaced rfl (by decide)
  have spells' : Json.Spells text'.toList value'.tokens := by
    rw [String.toList_ofList]
    exact Json.spells_spaced rfl (by decide)
  obtain ⟨records, others⟩ := ofCucumber_of_form isForm spells
  exact ⟨isForm, spells, same, isForm', spells', records,
    others features' value' text' same isForm' spells'⟩

end LivingDoc.Cucumber
