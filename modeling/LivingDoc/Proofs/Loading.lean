import LivingDoc.Proofs.Printout
import LivingDoc.Proofs.ReportFaults
import LivingDoc.Proofs.SourceTree

/-!
Runs for verdicts that have come to their reports.

From there on only two things can happen. Either some report cannot be loaded, and the first such
one ends the run before anything is printed, with a text that leads from the report to the cause; or
all of them are loaded, and their verdicts on the feature and on each of its elements are printed.
In the second case the reports count as a set: the answers of several reports depend neither on
their order nor on how often one is given.
-/

namespace LivingDoc

/-! ## Reports -/

namespace Report

/-- Where two directories hold the same under a path, they hold the same report. -/
theorem load_congr {directory directory' : Directory} {location : ReportLocation}
    (same : directory.read location.path = directory'.read location.path) :
    load directory location = load directory' location := by
  have text : ∀ format,
      readText directory format location.path = readText directory' format location.path := by
    intro format
    cases format with
    | specRun => exact congrArg (Except.map Text.Utf8.decodeLossy) same
    | cucumberJson => exact congrArg (· >>= _) same
  unfold load read
  rw [text]

/-- What several reports say together in answer to a question. -/
def answerTogether (reports : List Report) (question : Question) : Verdict :=
  .overall (reports.map fun report => report.toSource.answer question)

theorem answer_ofReports (reports : List Report) (question : Question) :
    (Source.ofReports reports).answer question = answerTogether reports question := by
  unfold Source.ofReports answerTogether
  rw [Source.answer_merged, List.map_map]
  rfl

/-- Several reports answer by what they are, not by their order or their number. -/
theorem answer_ofReports_congr {reports reports' : List Report}
    (same : ∀ report, report ∈ reports ↔ report ∈ reports') (question : Question) :
    (Source.ofReports reports).answer question = (Source.ofReports reports').answer question := by
  rw [answer_ofReports, answer_ofReports]
  refine Verdict.overall_congr fun verdict => ?_
  simp only [List.mem_map, same]

end Report

/-! ## Printed verdicts -/

/-- The verdicts of several reports on a feature and on each of its elements, as a JSON value. -/
def verdictReport (feature : Feature) (reports : List Report) : Json :=
  .record [("feature", .text feature.name),
    ("result", .text (Report.answerTogether reports (.feature feature)).name),
    ("elements", .list (feature.elements.map fun element =>
      .record [("kind", .text element.kind), ("name", .text element.name),
        ("tags", .list (element.tags.map .text)),
        ("result", .text (Report.answerTogether reports (.element element)).name)]))]

theorem encode_ofFeature (feature : Feature) (reports : List Report) :
    (Assessment.ofFeature feature (Source.ofReports reports)).encode =
      verdictReport feature reports := by
  have whole := Report.answer_ofReports reports (.feature feature)
  have rows := fun element => Report.answer_ofReports reports (.element element)
  dsimp only [Source.answer] at whole rows
  unfold Assessment.encode Assessment.ofFeature verdictReport
  simp only [List.map_map, whole, rows]
  rfl

/-- Whether some report says that the feature or one of its elements has failed. -/
def SomeFailed (feature : Feature) (reports : List Report) : Prop :=
  ∃ question ∈ Assessment.questions feature, ∃ report ∈ reports,
    report.toSource.answer question = .failed

theorem someFailed_iff {feature : Feature} {reports : List Report} :
    SomeFailed feature reports ↔
      (Assessment.ofFeature feature (Source.ofReports reports)).anyFailed = true := by
  simp only [Assessment.anyFailed_ofFeature_iff, Report.answer_ofReports, Report.answerTogether,
    Verdict.overall_eq_failed_iff, List.mem_map]
  rfl

/-- A run has printed the verdicts of reports on a feature, and nothing else: the whole value, from
its first brace to the line break behind its last one, and no text about faults. Its exit code tells
whether there is a failure among them. -/
structure Outcome.IsVerdictReport (outcome : Outcome) (feature : Feature) (reports : List Report) :
    Prop where
  printout : IsPrintout outcome.stdout (verdictReport feature reports)
  layout : outcome.stdout = (verdictReport feature reports).pretty ++ "\n"
  stderr : outcome.stderr = ""
  failed : SomeFailed feature reports → outcome.exitCode = 2
  passed : ¬ SomeFailed feature reports → outcome.exitCode = 0

theorem Outcome.IsVerdictReport.eq_of_failed {outcome : Outcome} {feature : Feature}
    {reports : List Report} (verdicts : outcome.IsVerdictReport feature reports)
    (failure : SomeFailed feature reports) :
    outcome = ⟨2, (verdictReport feature reports).pretty ++ "\n", ""⟩ := by
  cases outcome
  rw [Outcome.mk.injEq]
  exact ⟨verdicts.failed failure, verdicts.layout, verdicts.stderr⟩

/-! ## What comes before the reports -/

section Prepared

variable {directory : Directory} {input : Input} {arguments specRun cucumberJson : List String}

theorem featureToPrint_eq_ok_iff {feature : Feature} :
    featureToPrint directory input = .ok feature ↔
      ∃ config, Config.load directory input.config = .ok config ∧
        describedFeature directory input config = .ok feature := by
  unfold featureToPrint
  simp only [bind_eq_ok_iff, orFault_eq_ok_iff]

/-- A fault in front of the reports is a fault of the verdicts, whatever the reports are. -/
theorem assessmentToPrint_of_fault {fault : RunFault}
    (refused : featureToPrint directory input = .error fault) :
    assessmentToPrint directory input specRun cucumberJson = .error fault := by
  unfold featureToPrint at refused
  unfold assessmentToPrint
  cases configured : orFault RunFault.config (Config.load directory input.config) with
  | error unconfigured =>
      rw [configured] at refused
      exact congrArg Except.error (Except.error.inj refused)
  | ok config =>
      rw [configured] at refused
      have undescribed : describedFeature directory input config = .error fault := refused
      dsimp only [bind, Except.bind]
      rw [undescribed]

section Described

variable {config : Config} {feature : Feature}
  (parsed : Command.parse? arguments = some (.results input specRun cucumberJson))
  (configured : Config.load directory input.config = .ok config)
  (described : describedFeature directory input config = .ok feature)

include configured described in
/-- With a feature at hand, what is left to do is to load the reports. -/
theorem assessmentToPrint_of_described :
    assessmentToPrint directory input specRun cucumberJson =
      (orFault .report (Report.loadEach directory
        (reportLocations config specRun cucumberJson))).map fun reports =>
          .ofFeature feature (Source.ofReports reports) := by
  unfold assessmentToPrint
  rw [configured]
  dsimp only [orFault, bind, Except.bind]
  rw [described]
  cases Report.loadEach directory (reportLocations config specRun cucumberJson) <;> rfl

include parsed configured described

theorem run_of_loadFault [Wording] {cause : LoadFault}
    (failed : Report.loadEach directory (reportLocations config specRun cucumberJson) =
      .error cause) : run arguments directory = ⟨1, "", cause.message⟩ := by
  have refused : assessmentToPrint directory input specRun cucumberJson = _ :=
    assessmentToPrint_of_described configured described
  rw [failed] at refused
  exact run_of_fault parsed refused

theorem run_of_reports [Wording] {reports : List Report}
    (loaded : Report.loadEach directory (reportLocations config specRun cucumberJson) =
      .ok reports) :
    run arguments directory =
      let assessment := Assessment.ofFeature feature (Source.ofReports reports)
      ⟨if assessment.anyFailed then 2 else 0, printed assessment.encode, ""⟩ := by
  have found : assessmentToPrint directory input specRun cucumberJson = _ :=
    assessmentToPrint_of_described configured described
  rw [loaded] at found
  exact run_of_assessment parsed found

end Described

end Prepared

/-! ## Runs that have come to their reports -/

/-- A run for verdicts in which all has gone well up to the reports: the arguments are well formed,
the configuration and the document can be loaded, and the document has a meaning in the language
that counts. -/
structure PreparedRun where
  arguments : List String
  directory : Directory
  input : Input
  specRun : List String
  cucumberJson : List String
  config : Config
  document : Gherkin.Document
  language : Language
  feature : Feature
  parsed : Command.parse? arguments = some (.results input specRun cucumberJson)
  configured : Config.load directory input.config = .ok config
  loaded : Gherkin.Document.load directory input.document = .ok document
  spoken : Language.ofTag (languageTag input document config) = .ok language
  interpreted : document.interpret language = .ok feature

namespace PreparedRun

/-- The reports of a run, in the order in which they are loaded: those of the configuration, then
those on the command line by format. -/
def locations (prepared : PreparedRun) : List ReportLocation :=
  prepared.config.reports ++ prepared.specRun.map (⟨·, .specRun⟩)
    ++ prepared.cucumberJson.map (⟨·, .cucumberJson⟩)

/-- The outcome of a run. -/
def outcome [Wording] (prepared : PreparedRun) : Outcome :=
  run prepared.arguments prepared.directory

/-- The outcome of a run for verdicts that prints an assessment. -/
def assessed (assessment : Assessment) : Outcome :=
  ⟨if assessment.anyFailed then 2 else 0, printed assessment.encode, ""⟩

variable {prepared : PreparedRun}

theorem describedFeature_eq :
    describedFeature prepared.directory prepared.input prepared.config = .ok prepared.feature := by
  unfold describedFeature
  simp only [bind_eq_ok_iff, orFault_eq_ok_iff]
  exact ⟨_, prepared.loaded, _, prepared.spoken, prepared.interpreted⟩

/-- The first report that cannot be loaded ends the run. -/
theorem outcome_of_error [Wording] {cause : LoadFault}
    (failed : Report.loadEach prepared.directory prepared.locations = .error cause) :
    prepared.outcome = ⟨1, "", cause.message⟩ :=
  run_of_loadFault prepared.parsed prepared.configured prepared.describedFeature_eq failed

theorem outcome_of_reports [Wording] {reports : List Report}
    (loaded : Report.loadEach prepared.directory prepared.locations = .ok reports) :
    prepared.outcome = assessed (.ofFeature prepared.feature (Source.ofReports reports)) :=
  run_of_reports prepared.parsed prepared.configured prepared.describedFeature_eq loaded

/-- Two runs describe the same feature if their documents and languages are the same. -/
theorem feature_eq {other : PreparedRun} (document : other.document = prepared.document)
    (language : other.language = prepared.language) : other.feature = prepared.feature := by
  have found := other.interpreted
  rw [document, language, prepared.interpreted] at found
  exact (Except.ok.inj found).symm

/-- Reports that are loaded by another run as well, in any order and number, lead to the same
outcome there. -/
theorem outcome_eq [Wording] {other : PreparedRun} {reports : List Report}
    (loaded : Report.loadEach prepared.directory prepared.locations = .ok reports)
    (document : other.document = prepared.document) (language : other.language = prepared.language)
    (locations : ∀ location, location ∈ other.locations ↔ location ∈ prepared.locations)
    (reads : ∀ location ∈ prepared.locations,
      other.directory.read location.path = prepared.directory.read location.path) :
    other.outcome = prepared.outcome := by
  have loads : ∀ location ∈ prepared.locations,
      Report.load other.directory location = Report.load prepared.directory location :=
    fun location member => Report.load_congr (reads location member)
  obtain ⟨reports', loaded'⟩ :
      ∃ reports', Report.loadEach other.directory other.locations = .ok reports' := by
    refine exists_mapM_iff.mpr fun location member => ?_
    have inBoth := (locations location).mp member
    rw [loads location inBoth]
    exact exists_mapM_iff.mp ⟨reports, loaded⟩ location inBoth
  have same : ∀ report, report ∈ reports' ↔ report ∈ reports := by
    intro report
    rw [mem_mapM_iff loaded', mem_mapM_iff loaded]
    refine exists_congr fun location => ?_
    rw [locations location]
    exact and_congr_right fun member => by rw [loads location member]
  rw [outcome_of_reports loaded', outcome_of_reports loaded, feature_eq document language,
    Assessment.ofFeature_congr (Report.answer_ofReports_congr same)]

theorem isVerdictReport_assessed (feature : Feature) (reports : List Report) :
    (assessed (.ofFeature feature (Source.ofReports reports))).IsVerdictReport feature reports where
  printout := by
    dsimp only [assessed]
    rw [encode_ofFeature]
    have spelled := Assessment.isSpelled_encode (.ofFeature feature (Source.ofReports reports))
    rw [encode_ofFeature] at spelled
    exact isPrintout_printed spelled
  layout := by
    dsimp only [assessed]
    rw [encode_ofFeature]
    rfl
  stderr := rfl
  failed failure := if_pos (someFailed_iff.mp failure)
  passed noFailure := if_neg (someFailed_iff.not.mp noFailure)

/-- **Reports are loaded all or not at all, and only faults depend on their order.** If some report
cannot be loaded, the run prints nothing but the error chain of the first such one, whatever the
others hold. If all can be loaded, the run prints all their verdicts; and so does, with the same
outcome, every other run on the same document and in the same language that loads the same reports,
in any order and number. -/
theorem all_or_nothing [Wording] (prepared : PreparedRun) :
    ((∃ location ∈ prepared.locations, ∃ cause,
        Report.load prepared.directory location = .error cause) →
      ∃ before failing after text, prepared.locations = before ++ failing :: after ∧
        (∀ location ∈ before, ∃ report, Report.load prepared.directory location = .ok report) ∧
        ErrorChain prepared.directory failing text ∧ prepared.outcome = ⟨1, "", text⟩) ∧
    ((∀ location ∈ prepared.locations, ∃ report,
        Report.load prepared.directory location = .ok report) →
      (∃ reports, List.Forall₂ (fun location report =>
          Report.load prepared.directory location = .ok report) prepared.locations reports ∧
        prepared.outcome.IsVerdictReport prepared.feature reports) ∧
      ∀ other : PreparedRun, other.document = prepared.document →
        other.language = prepared.language →
        (∀ location, location ∈ other.locations ↔ location ∈ prepared.locations) →
        (∀ location ∈ prepared.locations,
          other.directory.read location.path = prepared.directory.read location.path) →
        other.outcome = prepared.outcome) := by
  constructor
  · rintro ⟨location, member, cause, failed⟩
    cases loaded : Report.loadEach prepared.directory prepared.locations with
    | ok reports =>
        obtain ⟨report, found⟩ := exists_mapM_iff.mp ⟨reports, loaded⟩ location member
        rw [failed] at found
        cases found
    | error cause =>
        obtain ⟨before, failing, after, split, earlier, first⟩ := mapM_eq_error_iff.mp loaded
        have chain := errorChain_iff.mpr ⟨cause, first, rfl⟩
        exact ⟨before, failing, after, _, split, earlier, chain, outcome_of_error loaded⟩
  · intro each
    obtain ⟨reports, loaded⟩ := exists_mapM_iff.mpr each
    have verdicts : prepared.outcome.IsVerdictReport prepared.feature reports := by
      rw [outcome_of_reports loaded]
      exact isVerdictReport_assessed prepared.feature reports
    exact ⟨⟨reports, mapM_eq_ok_iff.mp loaded, verdicts⟩,
      fun other document language locations reads =>
        outcome_eq loaded document language locations reads⟩

/-- Two reports, one of them with a failure, in either order, and once more for a configuration that
names both: the outcome is the same. With a report that is missing behind them, there is nothing but
its error chain. A text that is no report ends a run as well, with what is said of it, and so does a
page without results in front of a report that is missing. -/
theorem all_or_nothing_reordered :
    let _ : Wording :=
      { Wording.standard with cucumber := fun _ => "expected value at line 1 column 1" }
    let document := "[[null,\"\",\"f\",null,[],[[\"Scenario\",\"\",\"s\"]]]]"
    let failure := "[[\"f\",[[\"s\",null,[[[\"failed\"]]]]]]]"
    let config := "results=[['q','cucumber_json'],['r','cucumber_json']]"
    let directory := Directory.ofEntries [("d", .file document.toUTF8.toList),
      ("c", .file config.toUTF8.toList), ("r", .file failure.toUTF8.toList),
      ("q", .file "[]".toUTF8.toList), ("m", .file "x".toUTF8.toList)]
    let outcome := run ["results", "d", "--cucumber-json=r", "--cucumber-json=q"] directory
    run ["results", "d", "--config=c", "--cucumber-json=r"] directory = outcome ∧
      outcome = ⟨2, "\x7b\n  \"feature\": \"f\",\n  \"result\": \"failed\",\n" ++
        "  \"elements\": [\n    \x7b\n      \"kind\": \"scenario\",\n" ++
        "      \"name\": \"s\",\n      \"tags\": [],\n      \"result\": \"failed\"\n" ++
        "    \x7d\n  ]\n\x7d\n", ""⟩ ∧
      run ["results", "d", "--cucumber-json=r", "--cucumber-json=x"] directory =
        ⟨1, "", "load cucumber report x: read report x: No such file or directory (os error 2)"⟩ ∧
      run ["results", "d", "--cucumber-json=m"] directory =
        ⟨1, "", "load cucumber report m: malformed report: invalid cucumber json: " ++
          "expected value at line 1 column 1"⟩ ∧
      run ["results", "d", "--cucumber-json=x", "--spec-run=m"] directory =
        ⟨1, "", "load spec run report m: malformed report: " ++
          "missing marker '<!-- Pickles Begin'"⟩ := by
  intro _ document failure config directory outcome
  let raw : Gherkin.Document :=
    ⟨some ⟨none, "", "f", none, [], [.scenario ⟨"", "s", none, [], []⟩]⟩⟩
  let feature : Feature := ⟨"f", "", [], [.scenario ⟨"s", "", [], [], "f"⟩], none⟩
  let recorded : Report := ⟨.cucumberJson, [⟨"f", [⟨"s", some "failed"⟩]⟩]⟩
  have english : Language.ofTag "en" = .ok .english := by decide +kernel
  have loaded : Gherkin.Document.load directory "d" = .ok raw := by decide +kernel
  have standard : Config.load directory "pickles.toml" = .ok .standard := by decide +kernel
  have configured : Config.load directory "c" =
      .ok ⟨"en", [⟨"q", .cucumberJson⟩, ⟨"r", .cucumberJson⟩]⟩ := by decide +kernel
  let prepare (arguments : List String) (path : String) (paths : List String)
      (reports : List ReportLocation)
      (parsed : Command.parse? arguments = some (.results ⟨"d", path, none⟩ [] paths))
      (configured : Config.load directory path = .ok ⟨"en", reports⟩) : PreparedRun :=
    ⟨arguments, directory, ⟨"d", path, none⟩, [], paths, ⟨"en", reports⟩, raw, .english, feature,
      parsed, configured, loaded, english, rfl⟩
  let first := prepare ["results", "d", "--cucumber-json=r", "--cucumber-json=q"] "pickles.toml"
    ["r", "q"] [] (by decide +kernel) standard
  let other := prepare ["results", "d", "--config=c", "--cucumber-json=r"] "c" ["r"]
    [⟨"q", .cucumberJson⟩, ⟨"r", .cucumberJson⟩] (by decide +kernel) configured
  let refused := prepare ["results", "d", "--cucumber-json=r", "--cucumber-json=x"] "pickles.toml"
    ["r", "x"] [] (by decide +kernel) standard
  have failed : Report.load directory ⟨"r", .cucumberJson⟩ = .ok recorded := by decide +kernel
  have empty : Report.load directory ⟨"q", .cucumberJson⟩ = .ok ⟨.cucumberJson, []⟩ := by
    decide +kernel
  have missing : Report.load directory ⟨"x", .cucumberJson⟩ =
      .error ⟨⟨"x", .cucumberJson⟩, .unreadable "x" .missing⟩ := by decide +kernel
  have each : ∀ location ∈ first.locations, ∃ report,
      Report.load first.directory location = .ok report :=
    List.forall_mem_cons.mpr ⟨⟨_, failed⟩, List.forall_mem_singleton.mpr ⟨_, empty⟩⟩
  have same : ∀ location, location ∈ other.locations ↔ location ∈ first.locations := by
    intro location
    change location ∈ [⟨"q", .cucumberJson⟩, ⟨"r", .cucumberJson⟩, ⟨"r", .cucumberJson⟩] ↔
      location ∈ [⟨"r", .cucumberJson⟩, ⟨"q", .cucumberJson⟩]
    simp [or_comm]
  obtain ⟨⟨reports, loads, verdicts⟩, others⟩ := first.all_or_nothing.2 each
  obtain ⟨before, failing, after, text, split, _, chain, ended⟩ := refused.all_or_nothing.1
    ⟨⟨"x", .cucumberJson⟩, List.mem_cons_of_mem _ List.mem_cons_self, _, missing⟩
  refine ⟨others other rfl rfl same fun _ _ => rfl, ?_, ?_, by decide +kernel, by decide +kernel⟩
  · rcases loads with _ | ⟨ofFailed, _ | ⟨ofEmpty, _ | _⟩⟩
    cases failed.symm.trans ofFailed
    cases empty.symm.trans ofEmpty
    have answered : recorded.toSource.answer (.feature feature) = .failed := by decide +kernel
    have failure : SomeFailed feature [recorded, ⟨.cucumberJson, []⟩] :=
      ⟨.feature feature, List.mem_cons_self, recorded, List.mem_cons_self, answered⟩
    have layout : (verdictReport feature [recorded, ⟨.cucumberJson, []⟩]).pretty ++ "\n" =
        "\x7b\n  \"feature\": \"f\",\n  \"result\": \"failed\",\n" ++
        "  \"elements\": [\n    \x7b\n      \"kind\": \"scenario\",\n" ++
        "      \"name\": \"s\",\n      \"tags\": [],\n      \"result\": \"failed\"\n" ++
        "    \x7d\n  ]\n\x7d\n" := by decide +kernel
    rw [← layout]
    exact verdicts.eq_of_failed failure
  · have missed : (LoadFault.mk ⟨"x", .cucumberJson⟩ (.unreadable "x" .missing)).message =
        "load cucumber report x: read report x: No such file or directory (os error 2)" := by
      decide +kernel
    have split : [⟨"r", .cucumberJson⟩, ⟨"x", .cucumberJson⟩] = before ++ failing :: after := split
    obtain ⟨cause, first, rfl⟩ := errorChain_iff.mp chain
    rcases before with _ | ⟨_, _ | ⟨_, before⟩⟩
    · cases split
      cases failed.symm.trans first
    · cases split
      cases missing.symm.trans first
      rw [← missed]
      exact ended
    · have short : [] = before ++ failing :: after := (List.cons.inj (List.cons.inj split).2).2
      cases (List.append_eq_nil_iff.mp short.symm).2

end PreparedRun
end LivingDoc
