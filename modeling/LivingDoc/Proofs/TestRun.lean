import LivingDoc.Assessment
import LivingDoc.Proofs.Gherkin.Interpretation
import LivingDoc.Proofs.OutlineRows
import LivingDoc.Proofs.Verdict

/-!
One test run, recorded in either format.

A run has an outcome for each scenario that was run, and one for each row of an outline's examples.
The formats title the rows differently, and one of them words the outcomes anew. Where the names
of a feature are distinct, and none of them looks like the row of an outline, this makes no
difference: from both reports the feature is assessed by what happened in the run.
-/

namespace LivingDoc

open Gherkin (Definition Describes)

/-- The name under which a child of a feature is run, if it is run on its own. -/
def Gherkin.Definition.runName? : Definition → Option String
  | .background _ => none
  | .scenario child => some child.name
  | .outline child => some child.name

/-- The names under which the children of a feature are run. -/
def Gherkin.Feature.runNames (raw : Gherkin.Feature) : List String :=
  raw.children.filterMap Definition.runName?

/-- Whether no name of a feature begins like the title of a row of one of its outlines. -/
def Gherkin.Feature.KeepsRowsApart (raw : Gherkin.Feature) : Prop :=
  ∀ outline, .outline outline ∈ raw.children → ∀ name ∈ raw.runNames,
    ¬ (rowTitleStart outline.name).toList <+: name.toList

/-- What happened when a feature was run. -/
structure TestRun where
  /-- The outcome of the scenario with a name, if it was run. -/
  outcome : String → Option String
  /-- The values and the outcome of each row that was run of the outline with a name. -/
  rows : String → List (String × String)

namespace TestRun

/-- The outcomes of a child of a feature. -/
def outcomes (run : TestRun) : Definition → List String
  | .background _ => []
  | .scenario child => (run.outcome child.name).toList
  | .outline child => (run.rows child.name).map Prod.snd

/-- The assessment of the element that a child describes. -/
def element? (run : TestRun) : Definition → Option ElementAssessment
  | .background _ => none
  | .scenario child =>
    some ⟨"scenario", child.name, child.tags, .ofOutcome (run.outcome child.name)⟩
  | .outline child =>
    some ⟨"scenario_outline", child.name, child.tags,
      .ofOutcomes ((run.rows child.name).map fun row => some row.2)⟩

/-- The assessment of a feature by what happened when it was run. -/
def assessment (run : TestRun) (raw : Gherkin.Feature) : Assessment :=
  ⟨raw.name, .ofOutcomes ((raw.children.flatMap run.outcomes).map some),
    raw.children.filterMap run.element?⟩

/-! ## Reports of a run -/

/-- The title under which a format records the row of an outline with the given values. -/
def rowTitle (outlineName values : String) : ReportFormat → String
  | .specRun => rowTitleStart outlineName ++ values
  | .cucumberJson => outlineName

/-- The titles and outcomes that a format records for a child of a feature. -/
def records (run : TestRun) (format : ReportFormat) : Definition → List (String × String)
  | .background _ => []
  | .scenario child => (run.outcome child.name).toList.map fun outcome => (child.name, outcome)
  | .outline child => (run.rows child.name).map fun row => (rowTitle child.name row.1 format, row.2)

/-- Whether a SpecRun report with these features records the run of a feature: the first one with
its title has a scenario for each record, in any order, and no other. -/
def RecordedBySpecRun (run : TestRun) (raw : Gherkin.Feature) (features : List RecordedFeature) :
    Prop :=
  ∃ before feature after, features = before ++ feature :: after ∧
    (∀ other ∈ before, other.title ≠ raw.name) ∧ feature.title = raw.name ∧
    feature.scenarios.Perm ((raw.children.flatMap (run.records .specRun)).map fun record =>
      ⟨record.1, some record.2⟩)

/-- Whether a Cucumber report with these features records the run of a feature: the first one with
its name has an element with a single step for each record, in any order, and no other elements than
these and backgrounds. -/
def RecordedByCucumber (run : TestRun) (raw : Gherkin.Feature) (features : List Cucumber.Feature) :
    Prop :=
  ∃ before feature after, features = before ++ feature :: after ∧
    (∀ other ∈ before, other.name ≠ raw.name) ∧ feature.name = raw.name ∧
    ((feature.elements.filter fun element => !element.isBackground).map fun element =>
      (element.name, element.steps)).Perm
        ((raw.children.flatMap (run.records .cucumberJson)).map fun record =>
          (record.1, [⟨some record.2⟩]))

/-! ## Titles of rows -/

variable {run : TestRun} {raw : Gherkin.Feature} {format : ReportFormat}

/-- A record is titled like the child it is for, or as one of its rows. -/
theorem title_of_mem_records {child : Definition} {record : String × String}
    (member : record ∈ run.records format child) :
    ∃ name, child.runName? = some name ∧
      (record.1 = name ∨ format = .specRun ∧ (∃ outline, child = .outline outline) ∧
        (rowTitleStart name).toList <+: record.1.toList) := by
  cases child with
  | background child => cases member
  | scenario child =>
      rcases List.mem_map.mp member with ⟨outcome, _, rfl⟩
      exact ⟨child.name, rfl, .inl rfl⟩
  | outline child =>
      rcases List.mem_map.mp member with ⟨row, _, rfl⟩
      refine ⟨child.name, rfl, ?_⟩
      cases format with
      | specRun =>
          refine .inr ⟨rfl, ⟨child, rfl⟩, ?_⟩
          change _ <+: (rowTitleStart child.name ++ row.1).toList
          rw [String.toList_append]
          exact List.prefix_append _ _
      | cucumberJson => exact .inl rfl

/-- Only the records of a scenario have its name for a title. -/
theorem runName?_of_title (apart : raw.KeepsRowsApart) {name : String} (known : name ∈ raw.runNames)
    {child : Definition} (inChildren : child ∈ raw.children) {record : String × String}
    (member : record ∈ run.records format child) (same : record.1 = name) :
    child.runName? = some name := by
  obtain ⟨other, named, here | ⟨_, ⟨outline, rfl⟩, begins⟩⟩ := title_of_mem_records member
  · rw [named, ← here, same]
  · cases named
    rw [same] at begins
    exact (apart outline inChildren name known begins).elim

/-- Whether a title is one that a format gives to the rows of the named outline. -/
def isRowTitle (outlineName title : String) : ReportFormat → Bool
  | .specRun => (rowTitleStart outlineName).toList.isPrefixOf title.toList
  | .cucumberJson => title == outlineName

/-- Only the records of an outline have the titles of its rows. -/
theorem runName?_of_isRowTitle (apart : raw.KeepsRowsApart) {outline : Gherkin.Outline}
    (known : .outline outline ∈ raw.children) {child : Definition}
    (inChildren : child ∈ raw.children) {record : String × String}
    (member : record ∈ run.records format child)
    (isRow : isRowTitle outline.name record.1 format = true) :
    child.runName? = some outline.name := by
  have outlineName : outline.name ∈ raw.runNames :=
    List.mem_filterMap.mpr ⟨.outline outline, known, rfl⟩
  cases format with
  | cucumberJson => exact runName?_of_title apart outlineName inChildren member (eq_of_beq isRow)
  | specRun =>
      have begins := List.isPrefixOf_iff_prefix.mp isRow
      obtain ⟨name, named, same | ⟨_, ⟨other, rfl⟩, beginsToo⟩⟩ := title_of_mem_records member
      · have isName : name ∈ raw.runNames := List.mem_filterMap.mpr ⟨child, inChildren, named⟩
        rw [same] at begins
        exact (apart outline known name isName begins).elim
      · -- The title is that of a row of two outlines.
        cases named
        have otherName : other.name ∈ raw.runNames :=
          List.mem_filterMap.mpr ⟨.outline other, inChildren, rfl⟩
        have keeps := apart outline known other.name otherName
        have keepsToo := apart other inChildren outline.name outlineName
        exact congrArg some (eq_of_rowTitleStart ⟨keepsToo, keeps⟩ beginsToo begins)

/-! ## The records of one child -/

/-- Where names are distinct, titles that only a child with a certain name has are found among the
records of one child. -/
theorem filter_records (distinct : raw.runNames.Nodup) {child : Definition}
    (inChildren : child ∈ raw.children) {name : String} (named : child.runName? = some name)
    {p : String → Bool} (own : ∀ record ∈ run.records format child, p record.1 = true)
    (others : ∀ other ∈ raw.children, ∀ record ∈ run.records format other, p record.1 = true →
      other.runName? = some name) :
    (raw.children.flatMap (run.records format)).filter (fun record => p record.1) =
      run.records format child := by
  obtain ⟨before, after, split⟩ := List.append_of_mem inChildren
  unfold Gherkin.Feature.runNames at distinct
  rw [split, List.filterMap_append, List.filterMap_cons_some named] at distinct
  have noOther : ∀ part : List Definition, (∀ other ∈ part, other ∈ raw.children) →
      name ∉ part.filterMap Definition.runName? →
      (part.flatMap (run.records format)).filter (fun record => p record.1) = [] := by
    intro part inside fresh
    rw [List.filter_eq_nil_iff]
    intro record member isOwn
    rcases List.mem_flatMap.mp member with ⟨other, inPart, member⟩
    have same := others other (inside other inPart) record member isOwn
    exact fresh (List.mem_filterMap.mpr ⟨other, inPart, same⟩)
  have parts := List.nodup_append.mp distinct
  have noneBefore := noOther before
    (fun other member => split ▸ List.mem_append_left _ member)
    (fun member => parts.2.2 name member name List.mem_cons_self rfl)
  have noneAfter := noOther after
    (fun other member => split ▸ List.mem_append_right _ (List.mem_cons_of_mem _ member))
    (List.nodup_cons.mp parts.2.1).1
  rw [split, List.flatMap_append, List.flatMap_cons, List.filter_append, List.filter_append,
    noneBefore, noneAfter, List.filter_eq_self.mpr own, List.nil_append, List.append_nil]

/-! ## The records of a report -/

/-- What a report says of a record: its title and its verdict. -/
def judgement (record : String × String) : String × Verdict :=
  (record.1, .ofOutcome (some record.2))

/-- Whether the scenarios of a recorded feature are those of a run in a format, in any order and
in any words. -/
def Matches (run : TestRun) (raw : Gherkin.Feature) (format : ReportFormat)
    (feature : RecordedFeature) : Prop :=
  (feature.scenarios.map fun scenario => (scenario.title, scenario.verdict)).Perm
    ((raw.children.flatMap (run.records format)).map judgement)

variable {feature : RecordedFeature}

/-- The scenarios with titles that only the records of one child have are the records of that
child. -/
theorem Matches.records (matched : run.Matches raw format feature) (distinct : raw.runNames.Nodup)
    {child : Definition} (inChildren : child ∈ raw.children) {name : String}
    (named : child.runName? = some name) {p : String → Bool}
    (own : ∀ record ∈ run.records format child, p record.1 = true)
    (others : ∀ other ∈ raw.children, ∀ record ∈ run.records format other, p record.1 = true →
      other.runName? = some name) :
    ((feature.scenarios.filter fun scenario => p scenario.title).map fun scenario =>
        (scenario.title, scenario.verdict)).Perm ((run.records format child).map judgement) := by
  have filtered := List.Perm.filter (fun record => p record.1) matched
  rw [List.filter_map, List.filter_map] at filtered
  have one := filter_records (p := p) distinct inChildren named own others
  change (List.map _ (feature.scenarios.filter fun scenario => p scenario.title)).Perm
    (List.map judgement ((raw.children.flatMap (run.records format)).filter fun record =>
      p record.1)) at filtered
  rw [one] at filtered
  exact filtered

theorem overallVerdict_eq {scenarios : List RecordedScenario} {records : List (String × String)}
    (perm : (scenarios.map fun scenario => (scenario.title, scenario.verdict)).Perm
      (records.map judgement)) :
    overallVerdict scenarios = .ofOutcomes (records.map fun record => some record.2) := by
  have verdicts := Verdict.overall_perm (perm.map Prod.snd)
  rw [List.map_map, List.map_map] at verdicts
  unfold overallVerdict Verdict.ofOutcomes
  rw [List.map_map]
  exact verdicts

theorem map_records (child : Definition) :
    (run.records format child).map Prod.snd = run.outcomes child := by
  cases child with
  | background => rfl
  | scenario child =>
      change ((run.outcome child.name).toList.map _).map Prod.snd = (run.outcome child.name).toList
      rw [List.map_map]
      exact List.map_id _
  | outline child =>
      change ((run.rows child.name).map _).map Prod.snd = (run.rows child.name).map Prod.snd
      rw [List.map_map]
      rfl

theorem Matches.verdict (matched : run.Matches raw format feature) :
    feature.verdict = .ofOutcomes ((raw.children.flatMap run.outcomes).map some) := by
  have outcomes : (raw.children.flatMap (run.records format)).map Prod.snd =
      raw.children.flatMap run.outcomes := by
    rw [List.map_flatMap]
    simp only [map_records]
  rw [RecordedFeature.verdict, overallVerdict_eq matched, ← outcomes, List.map_map]
  rfl

/-- The first scenario that is titled like a scenario of the feature says how that one was run. -/
theorem Matches.scenario (matched : run.Matches raw format feature) (distinct : raw.runNames.Nodup)
    (apart : raw.KeepsRowsApart) {child : Gherkin.Scenario}
    (inChildren : .scenario child ∈ raw.children) :
    (feature.scenario? child.name).elim .inconclusive RecordedScenario.verdict =
      .ofOutcome (run.outcome child.name) := by
  have known : child.name ∈ raw.runNames :=
    List.mem_filterMap.mpr ⟨.scenario child, inChildren, rfl⟩
  have own : ∀ record ∈ run.records format (.scenario child), (record.1 == child.name) = true := by
    intro record member
    rcases List.mem_map.mp member with ⟨outcome, _, rfl⟩
    exact beq_self_eq_true _
  have perm := matched.records distinct inChildren rfl (p := (· == child.name)) own
    fun other inOthers record member same =>
      runName?_of_title apart known inOthers member (eq_of_beq same)
  unfold RecordedFeature.scenario?
  rw [← List.head?_filter]
  generalize (feature.scenarios.filter fun scenario => scenario.title == child.name) = found at perm
  cases outcome : run.outcome child.name with
  | none =>
      rw [TestRun.records, outcome] at perm
      rw [List.map_eq_nil_iff.mp (List.perm_nil.mp perm)]
      rfl
  | some word =>
      rw [TestRun.records, outcome] at perm
      rcases List.map_eq_singleton_iff.mp (List.perm_singleton.mp perm) with ⟨scenario, rfl, same⟩
      exact congrArg Prod.snd same

/-- The scenarios that are titled like rows of an outline say how its rows were run. -/
theorem Matches.outline (matched : run.Matches raw format feature) (distinct : raw.runNames.Nodup)
    (apart : raw.KeepsRowsApart) {child : Gherkin.Outline}
    (inChildren : .outline child ∈ raw.children) :
    overallVerdict (Report.outlineRows format feature child.name) =
      .ofOutcomes ((run.rows child.name).map fun row => some row.2) := by
  have own : ∀ record ∈ run.records format (.outline child),
      isRowTitle child.name record.1 format = true := by
    intro record member
    rcases List.mem_map.mp member with ⟨row, _, rfl⟩
    cases format with
    | specRun =>
        change (rowTitleStart child.name).toList.isPrefixOf
          (rowTitleStart child.name ++ row.1).toList = true
        rw [String.toList_append, List.isPrefixOf_iff_prefix]
        exact List.prefix_append _ _
    | cucumberJson => exact beq_self_eq_true _
  have perm := matched.records distinct inChildren rfl
    (p := fun title => isRowTitle child.name title format) own
    fun other inOthers record member isRow =>
      runName?_of_isRowTitle apart inChildren inOthers member isRow
  have rows : Report.outlineRows format feature child.name =
      feature.scenarios.filter fun scenario => isRowTitle child.name scenario.title format := by
    cases format <;> rfl
  rw [rows, overallVerdict_eq perm, TestRun.records, List.map_map]
  rfl

/-! ## Assessments -/

/-- **A report that matches a run assesses the feature by the run**, whatever its format. -/
theorem Matches.assessment {language : Language} {mapped : Feature} {report : Report}
    (interpreted : raw.interpret language = .ok mapped) (distinct : raw.runNames.Nodup)
    (apart : raw.KeepsRowsApart) (found : report.feature? raw.name = some feature)
    (matched : run.Matches raw report.format feature) :
    Assessment.ofFeature mapped report.toSource = run.assessment raw := by
  have name := (Gherkin.Feature.interpret_eq_ok interpreted).1
  have elements : mapped.elements.map (fun element =>
      (⟨element.kind, element.name, element.tags, report.toSource.element element⟩ :
        ElementAssessment)) = raw.children.filterMap run.element? := by
    refine Gherkin.Feature.map_elements interpreted (fun _ => rfl) ?_
    intro child member element describes
    cases describes with
    | @scenario child element sameName sameTags sameFeature =>
        have answer : report.toSource.element (.scenario element) =
            .ofOutcome (run.outcome child.name) := by
          change ((report.feature? element.featureName).bind fun recorded =>
            recorded.scenario? element.name).elim _ _ = _
          rw [sameFeature, sameName, found]
          exact matched.scenario distinct apart member
        rw [answer]
        change some _ = some (ElementAssessment.mk "scenario" element.name element.tags _)
        rw [sameName, sameTags]
    | @outline child element sameName sameTags sameFeature =>
        have answer : report.toSource.element (.outline element) =
            .ofOutcomes ((run.rows child.name).map fun row => some row.2) := by
          change (report.feature? element.featureName).elim _ _ = _
          rw [sameFeature, sameName, found]
          exact matched.outline distinct apart member
        rw [answer]
        change some _ = some (ElementAssessment.mk "scenario_outline" element.name element.tags _)
        rw [sameName, sameTags]
  have whole : report.toSource.feature mapped =
      .ofOutcomes ((raw.children.flatMap run.outcomes).map some) := by
    change (report.feature? mapped.name).elim _ _ = _
    rw [name, found]
    exact matched.verdict
  unfold Assessment.ofFeature TestRun.assessment
  rw [elements, name, whole]

/-- The first feature with a name is found among those with other names in front. -/
theorem find?_of_split {before after : List RecordedFeature} {title : String}
    (others : ∀ other ∈ before, other.title ≠ title) (same : feature.title = title) :
    RecordedFeature.find? (before ++ feature :: after) title = some feature := by
  unfold RecordedFeature.find?
  rw [List.find?_append, List.find?_eq_none.mpr (by simpa using others), Option.none_or,
    List.find?_cons_of_pos (by simpa using same)]

/-- An element with a single step has the verdict of the step, in other words perhaps. -/
theorem ofOutcome_element {element : Cucumber.Element} {word : String}
    (single : element.steps = [⟨some word⟩]) :
    Verdict.ofOutcome element.outcome = .ofOutcome (some word) := by
  have verdicts : element.steps.map Cucumber.Step.verdict = [.ofOutcome (some word)] := by
    rw [single]
    rfl
  unfold Cucumber.Element.outcome
  dsimp only
  rw [verdicts]
  cases Verdict.ofOutcome (some word) with
  | passed => exact Verdict.ofOutcome_name .passed
  | failed => exact Verdict.ofOutcome_name .failed
  | inconclusive => rfl

theorem RecordedBySpecRun.matches {features : List RecordedFeature}
    (recorded : run.RecordedBySpecRun raw features) :
    ∃ feature, (Report.mk .specRun features).feature? raw.name = some feature ∧
      run.Matches raw .specRun feature := by
  obtain ⟨before, feature, after, rfl, others, same, perm⟩ := recorded
  refine ⟨feature, find?_of_split others same, ?_⟩
  have judged := perm.map fun scenario => (scenario.title, scenario.verdict)
  rw [List.map_map] at judged
  exact judged

theorem RecordedByCucumber.matches {features : List Cucumber.Feature}
    (recorded : run.RecordedByCucumber raw features) :
    ∃ feature, (Report.mk .cucumberJson (features.map Cucumber.Feature.record)).feature? raw.name =
        some feature ∧ run.Matches raw .cucumberJson feature := by
  obtain ⟨before, feature, after, rfl, others, same, perm⟩ := recorded
  refine ⟨feature.record, ?_, ?_⟩
  · rw [List.map_append, List.map_cons]
    refine find?_of_split ?_ same
    intro other member
    rcases List.mem_map.mp member with ⟨raw', inBefore, rfl⟩
    exact others raw' inBefore
  · -- The outcome of an element depends on its steps only.
    have judged := perm.map fun element =>
      (element.1, Verdict.ofOutcome (Cucumber.Element.outcome ⟨element.1, none, element.2⟩))
    rw [List.map_map, List.map_map] at judged
    have words : (raw.children.flatMap (run.records .cucumberJson)).map judgement =
        (raw.children.flatMap (run.records .cucumberJson)).map _ :=
      List.map_congr_left fun record _ =>
        congrArg (Prod.mk record.1) (@ofOutcome_element ⟨record.1, none, _⟩ _ rfl).symm
    unfold Matches
    rw [words, Cucumber.Feature.record, List.map_map]
    exact judged

/-- **Both formats report the same run alike.** Whichever of the two reports a feature is assessed
by, it is assessed by what happened in the run. -/
theorem assessments_agree {language : Language} {mapped : Feature}
    {features : List RecordedFeature} {cucumberFeatures : List Cucumber.Feature}
    (interpreted : raw.interpret language = .ok mapped) (distinct : raw.runNames.Nodup)
    (apart : raw.KeepsRowsApart) (bySpecRun : run.RecordedBySpecRun raw features)
    (byCucumber : run.RecordedByCucumber raw cucumberFeatures) :
    Assessment.ofFeature mapped (Report.mk .specRun features).toSource =
        Assessment.ofFeature mapped
          (Report.mk .cucumberJson (cucumberFeatures.map Cucumber.Feature.record)).toSource ∧
      Assessment.ofFeature mapped (Report.mk .specRun features).toSource = run.assessment raw := by
  obtain ⟨_, foundSpecRun, matchedSpecRun⟩ := bySpecRun.matches
  obtain ⟨_, foundCucumber, matchedCucumber⟩ := byCucumber.matches
  have specRun := matchedSpecRun.assessment interpreted distinct apart foundSpecRun
  have cucumber := matchedCucumber.assessment interpreted distinct apart foundCucumber
  exact ⟨specRun.trans cucumber.symm, specRun⟩

/-- Two outlines whose names differ by a comma: their rows are told apart. -/
theorem assessments_agree_comma :
    let mapped : Feature := ⟨"f", "", [], [.scenario ⟨"s", "", [], [], "f"⟩,
      .outline ⟨"a", "", [], [], [], "f"⟩, .outline ⟨"a,", "", [], [], [], "f"⟩], none⟩
    let specRun : List RecordedFeature := [⟨"g", []⟩, ⟨"f", [⟨"a,, 1", some "passed"⟩,
      ⟨"a, 2", some "failed"⟩, ⟨"s", some "Passed"⟩, ⟨"a, 1", some "passed"⟩]⟩]
    let cucumber : List Cucumber.Feature := [⟨"f", [⟨"", some "background", []⟩,
      ⟨"s", none, [⟨some "Passed"⟩]⟩, ⟨"a", none, [⟨some "passed"⟩]⟩,
      ⟨"a", none, [⟨some "failed"⟩]⟩, ⟨"a,", none, [⟨some "passed"⟩]⟩]⟩]
    Assessment.ofFeature mapped (Report.mk .specRun specRun).toSource =
        Assessment.ofFeature mapped
          (Report.mk .cucumberJson (cucumber.map Cucumber.Feature.record)).toSource ∧
      Assessment.ofFeature mapped (Report.mk .specRun specRun).toSource =
        ⟨"f", .failed, [⟨"scenario", "s", [], .passed⟩, ⟨"scenario_outline", "a", [], .failed⟩,
          ⟨"scenario_outline", "a,", [], .passed⟩]⟩ := by
  intro mapped specRun cucumber
  let raw : Gherkin.Feature := ⟨none, "", "f", none, [], [.scenario ⟨"", "s", none, [], []⟩,
    .outline ⟨"", "a", none, [], [], []⟩, .outline ⟨"", "a,", none, [], [], []⟩]⟩
  let run : TestRun := ⟨fun _ => some "Passed",
    fun name => if name = "a" then [("1", "passed"), ("2", "failed")] else [("1", "passed")]⟩
  have interpreted : raw.interpret .english = .ok mapped := rfl
  have apart : raw.KeepsRowsApart := by
    have allApart : ∀ outlineName ∈ ["a", "a,"], ∀ name ∈ ["s", "a", "a,"],
        ¬ (rowTitleStart outlineName).toList <+: name.toList := by decide
    intro outline member
    have isOutline : outline.name ∈ ["a", "a,"] := by
      have shape : outline = ⟨"", "a", none, [], [], []⟩ ∨
          outline = ⟨"", "a,", none, [], [], []⟩ := by
        simpa [raw] using member
      rcases shape with rfl | rfl <;> simp
    exact allApart outline.name isOutline
  have bySpecRun : run.RecordedBySpecRun raw specRun :=
    ⟨[⟨"g", []⟩], specRun[1], [], rfl, by decide, rfl, by decide⟩
  have byCucumber : run.RecordedByCucumber raw cucumber :=
    ⟨[], cucumber[0], [], rfl, by decide, rfl, by decide⟩
  have agree := assessments_agree interpreted (by decide) apart bySpecRun byCucumber
  exact ⟨agree.1, agree.2.trans (by decide)⟩

end TestRun
end LivingDoc
