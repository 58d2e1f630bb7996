import LivingDoc.Proofs.Gherkin.Reification
import LivingDoc.Proofs.Keyword
import LivingDoc.Proofs.Loading

/-!
Which language a run reads its document in, and what has no influence on that.

Three places can name the language: the command line, the document and the configuration. The first
of them that does so counts, and the run goes on as if the others had said nothing. So two runs that
differ in a language that does not count leave the same behind. A configuration always names a
language, and one that has a table of keywords; only the command line and the document can ask for
one that has none.
-/

namespace LivingDoc

/-! ## Documents and configurations -/

namespace Gherkin.Document

/-- The feature of a document says which language it is written in. -/
def States (document : Document) (tag : String) : Prop :=
  ∃ feature, document.feature = some feature ∧ feature.language = some tag

/-- A document without the language of its feature. -/
def withoutLanguage (document : Document) : Document :=
  ⟨document.feature.map fun feature => { feature with language := none }⟩

theorem states_iff {document : Document} {tag : String} :
    document.States tag ↔ document.feature.bind (·.language) = some tag :=
  Option.bind_eq_some_iff.symm

/-- In a given language a document means the same whatever it says about its own. -/
theorem interpret_withoutLanguage (language : Language) (document : Document) :
    document.withoutLanguage.interpret language = document.interpret language := by
  unfold interpret withoutLanguage
  cases document.feature <;> rfl

theorem interpret_congr {document other : Document}
    (same : other.withoutLanguage = document.withoutLanguage) (language : Language) :
    other.interpret language = document.interpret language := by
  rw [← interpret_withoutLanguage, same, interpret_withoutLanguage]

/-- What a document means is what its feature means, if it has one. -/
theorem exists_interpret_eq {document : Document} {language : Language}
    {meaning : Except MappingFault LivingDoc.Feature}
    (means : document.interpret language = meaning) (found : meaning ≠ .error .noFeature) :
    ∃ feature : Feature, feature.interpret language = meaning := by
  unfold interpret at means
  cases known : document.feature with
  | none =>
      rw [known] at means
      exact absurd means.symm found
  | some feature =>
      rw [known] at means
      exact ⟨feature, means⟩

end Gherkin.Document

namespace Config

variable {directory : Directory} {path : String} {config : Config}

/-- A configuration has been checked, unless it is the standard one. -/
theorem checked_of_load (configured : load directory path = .ok config) :
    config = standard ∨ config.check = .ok () := by
  unfold load at configured
  cases held : directory.holds path with
  | false =>
      rw [held] at configured
      exact .inl (Except.ok.inj configured).symm
  | true =>
      rw [held] at configured
      cases read : directory.readText path with
      | error fault =>
          rw [read] at configured
          cases configured
      | ok text =>
          rw [read] at configured
          dsimp only [pure, Except.pure, bind, Except.bind] at configured
          cases parsed : (Toml.parse? text).bind decode? with
          | none =>
              rw [parsed] at configured
              cases configured
          | some found =>
              rw [parsed] at configured
              dsimp only at configured
              cases checked : found.check with
              | error fault =>
                  rw [checked] at configured
                  cases configured
              | ok _ =>
                  rw [checked] at configured
                  cases configured
                  exact .inr checked

/-- A configuration that can be loaded names a language with a table of keywords. -/
theorem exists_isNamedBy (configured : load directory path = .ok config) :
    ∃ language : Language, language.IsNamedBy config.language := by
  rcases checked_of_load configured with rfl | checked
  · exact ⟨.standard, Language.ofTag?_eq_some_iff.mp Language.standard.ofTag?_tag⟩
  · by_contra unnamed
    rw [not_exists] at unnamed
    unfold check at checked
    rw [Language.ofTag?_eq_none_iff.mpr unnamed] at checked
    cases checked

end Config

/-! ## Commands on a document -/

/-- The command on an input: the one for verdicts, with the paths of reports in both formats, or the
one that prints the feature. -/
def Command.on (input : Input) : Option (List String × List String) → Command
  | none => .map input
  | some (specRun, cucumberJson) => .results input specRun cucumberJson

/-- A run on a document, in which the arguments are well formed and the configuration and the
document can be loaded. -/
structure LoadedRun where
  arguments : List String
  directory : Directory
  input : Input
  /-- The paths of reports on the command line, if the run is for verdicts. -/
  reports : Option (List String × List String)
  config : Config
  document : Gherkin.Document
  parsed : Command.parse? arguments = some (.on input reports)
  configured : Config.load directory input.config = .ok config
  decoded : Gherkin.Document.load directory input.document = .ok document

namespace LoadedRun

/-- What a run leaves behind. -/
def outcome [Wording] (loaded : LoadedRun) : Outcome :=
  run loaded.arguments loaded.directory

/-- The fault that ends a run, if there is one. -/
def fault? (loaded : LoadedRun) : Option RunFault :=
  (Command.on loaded.input loaded.reports).fault? loaded.directory

/-- The reports that a run reads, in this order. -/
def locations (loaded : LoadedRun) : List ReportLocation :=
  loaded.reports.elim [] fun paths => reportLocations loaded.config paths.1 paths.2

/-- What a run leaves behind once its document is known to describe a feature. -/
def outcomeOn [Wording] (loaded : LoadedRun) (feature : Feature) : Outcome :=
  match loaded.reports with
  | none => ⟨0, printed feature.encode, ""⟩
  | some _ =>
    match Report.loadEach loaded.directory loaded.locations with
    | .error cause => ⟨1, "", cause.message⟩
    | .ok reports => PreparedRun.assessed (.ofFeature feature (Source.ofReports reports))

/-- What a run leaves behind if it reads its document in a given language. -/
def outcomeIn [Wording] (loaded : LoadedRun) (language : Language) : Outcome :=
  match loaded.document.interpret language with
  | .error fault => ⟨1, "", (RunFault.mapping loaded.input.document fault).message⟩
  | .ok feature => loaded.outcomeOn feature

/-! ## The language that counts -/

/-- `loaded.Asks tag`: of the tags for a language that a run comes across, `tag` is the one that
counts. -/
inductive Asks (loaded : LoadedRun) : String → Prop
  /-- It is given on the command line. -/
  | given {tag : String} : loaded.input.language = some tag → Asks loaded tag
  /-- None is given there, and the document says it. -/
  | stated {tag : String} :
    loaded.input.language = none → loaded.document.States tag → Asks loaded tag
  /-- None is given or said, and it is the one of the configuration. -/
  | configured : loaded.input.language = none → (∀ tag, ¬ loaded.document.States tag) →
    Asks loaded loaded.config.language

/-- What it means that a run reads its document in the language that a tag asks for. -/
structure ReadsIn [Wording] (loaded : LoadedRun) (tag : String) : Prop where
  /-- If the tag names no language, the run ends in front of the document's meaning. -/
  unsupported : (∀ language : Language, ¬ language.IsNamedBy tag) →
    loaded.outcome =
      ⟨1, "", "configure mapper: " ++ ("language '" ++ tag ++ "' has no keyword table")⟩
  /-- If it names one, the run is about what the document means in that language. -/
  supported : ∀ language : Language, language.IsNamedBy tag →
    loaded.outcome = loaded.outcomeIn language
  /-- All steps of the feature have the keyword that their author's keyword spells for the tag. -/
  keywords : ∀ feature, featureToPrint loaded.directory loaded.input = .ok feature →
    ∀ step ∈ feature.steps, Keyword.ofText tag step.nativeKeyword = .ok step.keyword
  /-- A keyword that the run does not know is none for the tag. -/
  unknown : ∀ path text spoken, featureToPrint loaded.directory loaded.input =
      .error (.mapping path (.unknownKeyword text spoken)) →
    Keyword.ofText tag text = .error (.unknownKeyword text spoken)

section Precedence

variable {loaded other : LoadedRun} {tag : String}

/-- The tag that counts is the one that a run goes by. -/
theorem asks_iff :
    loaded.Asks tag ↔ languageTag loaded.input loaded.document loaded.config = tag := by
  unfold languageTag
  constructor
  · intro asks
    cases asks with
    | given given =>
        rw [given]
        rfl
    | stated absent stated =>
        rw [absent, Option.orElse_none, Gherkin.Document.states_iff.mp stated]
        rfl
    | configured absent silent =>
        have unsaid : loaded.document.feature.bind (·.language) = none :=
          Option.eq_none_iff_forall_ne_some.mpr fun tag said =>
            silent tag (Gherkin.Document.states_iff.mpr said)
        rw [absent, Option.orElse_none, unsaid]
        rfl
  · rintro rfl
    cases given : loaded.input.language with
    | some tag => exact .given given
    | none =>
        rw [Option.orElse_none]
        cases said : loaded.document.feature.bind (·.language) with
        | some tag => exact .stated given (Gherkin.Document.states_iff.mpr said)
        | none =>
            refine .configured given fun tag stated => ?_
            rw [Gherkin.Document.states_iff.mp stated] at said
            cases said

/-! ## One run -/

theorem featureToPrint_eq (loaded : LoadedRun) :
    featureToPrint loaded.directory loaded.input =
      describedFeature loaded.directory loaded.input loaded.config := by
  unfold featureToPrint
  rw [loaded.configured]
  rfl

/-- What is left of a run once its configuration and its document are loaded. -/
theorem describedFeature_eq (asks : loaded.Asks tag) :
    describedFeature loaded.directory loaded.input loaded.config =
      (orFault .language (Language.ofTag tag) >>= fun language =>
        orFault (.mapping loaded.input.document) (loaded.document.interpret language)) := by
  unfold describedFeature
  rw [loaded.decoded]
  -- `rfl` would look into the table of languages, so the steps are opened by name.
  dsimp only [orFault, bind, Except.bind]
  rw [asks_iff.mp asks]

theorem fault?_of_error {fault : RunFault}
    (refused : featureToPrint loaded.directory loaded.input = .error fault) :
    loaded.fault? = some fault := by
  unfold fault?
  cases loaded.reports with
  | none => exact faultOf_eq_some_iff.mpr refused
  | some paths => exact faultOf_eq_some_iff.mpr (assessmentToPrint_of_fault refused)

theorem outcome_of_error [Wording] {fault : RunFault}
    (refused : featureToPrint loaded.directory loaded.input = .error fault) :
    loaded.outcome = ⟨1, "", fault.message⟩ :=
  (run_of_command loaded.parsed).trans (Ends.refused (fault?_of_error refused)).eq_run

section Reports

variable {specRun cucumberJson : List String} {feature : Feature}

theorem locations_of_some (asked : loaded.reports = some (specRun, cucumberJson)) :
    loaded.locations = reportLocations loaded.config specRun cucumberJson := by
  unfold locations
  rw [asked]
  rfl

/-- With a feature at hand, a run for verdicts is left with its reports. -/
theorem assessmentToPrint_eq (asked : loaded.reports = some (specRun, cucumberJson))
    (described : featureToPrint loaded.directory loaded.input = .ok feature) :
    assessmentToPrint loaded.directory loaded.input specRun cucumberJson =
      (orFault .report (Report.loadEach loaded.directory loaded.locations)).map fun reports =>
        .ofFeature feature (Source.ofReports reports) := by
  rw [featureToPrint_eq] at described
  rw [locations_of_some asked]
  exact assessmentToPrint_of_described loaded.configured described

theorem outcome_of_ok [Wording]
    (described : featureToPrint loaded.directory loaded.input = .ok feature) :
    loaded.outcome = loaded.outcomeOn feature := by
  have parsed := loaded.parsed
  unfold outcomeOn
  cases asked : loaded.reports with
  | none =>
      rw [asked] at parsed
      exact run_of_feature parsed described
  | some paths =>
      rw [asked] at parsed
      have left := assessmentToPrint_eq asked described
      cases each : Report.loadEach loaded.directory loaded.locations with
      | error cause =>
          rw [each] at left
          exact run_of_fault parsed left
      | ok reports =>
          rw [each] at left
          exact run_of_assessment parsed left

/-- Only a report can be at fault once there is a feature. -/
theorem fault?_of_ok {fault : RunFault}
    (described : featureToPrint loaded.directory loaded.input = .ok feature)
    (refused : loaded.fault? = some fault) : ∃ cause, fault = .report cause := by
  unfold fault? at refused
  cases asked : loaded.reports with
  | none =>
      rw [asked] at refused
      have failed : featureToPrint loaded.directory loaded.input = .error fault :=
        faultOf_eq_some_iff.mp refused
      rw [described] at failed
      cases failed
  | some paths =>
      rw [asked] at refused
      have failed : assessmentToPrint loaded.directory loaded.input paths.1 paths.2 =
          .error fault := faultOf_eq_some_iff.mp refused
      rw [assessmentToPrint_eq asked described] at failed
      cases each : Report.loadEach loaded.directory loaded.locations with
      | error cause =>
          rw [each] at failed
          exact ⟨cause, (Except.error.inj failed).symm⟩
      | ok reports =>
          rw [each] at failed
          cases failed

end Reports

/-- What a run goes on to do is settled by the tag that counts. -/
theorem featureToPrint_of_named (asks : loaded.Asks tag) {language : Language}
    (named : language.IsNamedBy tag) :
    featureToPrint loaded.directory loaded.input =
      orFault (.mapping loaded.input.document) (loaded.document.interpret language) := by
  rw [featureToPrint_eq, describedFeature_eq asks, Language.ofTag_eq_ok_iff.mpr named]
  rfl

theorem featureToPrint_of_unnamed (asks : loaded.Asks tag)
    (unnamed : ∀ language : Language, ¬ language.IsNamedBy tag) :
    featureToPrint loaded.directory loaded.input =
      .error (.language (.unsupportedLanguage tag)) := by
  rw [featureToPrint_eq, describedFeature_eq asks, Language.ofTag_of_unnamed unnamed]
  rfl

theorem outcome_of_named [Wording] (asks : loaded.Asks tag) {language : Language}
    (named : language.IsNamedBy tag) : loaded.outcome = loaded.outcomeIn language := by
  have left := featureToPrint_of_named asks named
  unfold outcomeIn
  cases meaning : loaded.document.interpret language with
  | error fault =>
      rw [meaning] at left
      exact outcome_of_error left
  | ok feature =>
      rw [meaning] at left
      exact outcome_of_ok left

theorem outcome_of_unnamed [Wording] (asks : loaded.Asks tag)
    (unnamed : ∀ language : Language, ¬ language.IsNamedBy tag) :
    loaded.outcome =
      ⟨1, "", "configure mapper: " ++ ("language '" ++ tag ++ "' has no keyword table")⟩ :=
  outcome_of_error (featureToPrint_of_unnamed asks unnamed)

/-- Where a run comes to the meaning of its document, there is a language that the tag names. -/
theorem exists_named (asks : loaded.Asks tag)
    (left : ∀ cause, featureToPrint loaded.directory loaded.input ≠ .error (.language cause)) :
    ∃ language : Language, language.IsNamedBy tag := by
  by_contra unnamed
  rw [not_exists] at unnamed
  exact left _ (featureToPrint_of_unnamed asks unnamed)

theorem readsIn_of_asks [Wording] (asks : loaded.Asks tag) : loaded.ReadsIn tag where
  unsupported := outcome_of_unnamed asks
  supported _ named := outcome_of_named asks named
  keywords feature described step member := by
    obtain ⟨language, named⟩ := exists_named asks fun cause refused => by
      rw [described] at refused
      cases refused
    rw [featureToPrint_of_named asks named, orFault_eq_ok_iff] at described
    rw [Keyword.ofText_of_named named]
    obtain ⟨raw, interpreted⟩ := Gherkin.Document.exists_interpret_eq described nofun
    exact Gherkin.Feature.keyword_of_mem_steps interpreted member
  unknown path text spoken refused := by
    obtain ⟨language, named⟩ := exists_named asks fun cause refusedToo => by
      rw [refused] at refusedToo
      cases refusedToo
    rw [featureToPrint_of_named asks named] at refused
    rw [Keyword.ofText_of_named named]
    cases meaning : loaded.document.interpret language with
    | ok feature =>
        rw [meaning] at refused
        cases refused
    | error fault =>
        rw [meaning] at refused
        cases refused
        obtain ⟨raw, interpreted⟩ := Gherkin.Document.exists_interpret_eq meaning nofun
        exact Gherkin.Feature.keyword_of_error interpreted

/-- If neither the command line nor the document names a language, the run has one. -/
theorem not_language_of_silent (absent : loaded.input.language = none)
    (silent : ∀ tag, ¬ loaded.document.States tag) (cause : MappingFault) :
    loaded.fault? ≠ some (.language cause) := by
  intro refused
  obtain ⟨language, named⟩ := Config.exists_isNamedBy loaded.configured
  have left := featureToPrint_of_named (.configured absent silent) named
  cases meaning : loaded.document.interpret language with
  | error fault =>
      rw [meaning] at left
      cases (fault?_of_error left).symm.trans refused
  | ok feature =>
      rw [meaning] at left
      obtain ⟨_, same⟩ := fault?_of_ok left refused
      cases same

/-! ## Two runs -/

/-- Two runs that are asked for the same, with the same reports at hand, on documents and with
configurations that may differ in their language. -/
structure SameUpToLanguages (loaded other : LoadedRun) : Prop where
  path : other.input.document = loaded.input.document
  given : other.input.language = loaded.input.language
  reports : other.reports = loaded.reports
  /-- The configurations name the same reports, even if they are not in the same file. -/
  config : other.config.reports = loaded.config.reports
  document : other.document.withoutLanguage = loaded.document.withoutLanguage
  reads : ∀ location ∈ loaded.locations,
    other.directory.read location.path = loaded.directory.read location.path

theorem SameUpToLanguages.locations_eq (same : loaded.SameUpToLanguages other) :
    other.locations = loaded.locations := by
  unfold locations reportLocations
  rw [same.reports, same.config]

theorem SameUpToLanguages.outcomeOn_eq [Wording] (same : loaded.SameUpToLanguages other)
    (feature : Feature) : other.outcomeOn feature = loaded.outcomeOn feature := by
  have each : Report.loadEach other.directory loaded.locations =
      Report.loadEach loaded.directory loaded.locations :=
    mapM_congr fun location member => Report.load_congr (same.reads location member)
  unfold outcomeOn
  rw [same.reports, same.locations_eq, each]

/-- Read in the same language, both runs come to the same. -/
theorem SameUpToLanguages.outcomeIn_eq [Wording] (same : loaded.SameUpToLanguages other)
    (language : Language) : other.outcomeIn language = loaded.outcomeIn language := by
  unfold outcomeIn
  rw [Gherkin.Document.interpret_congr same.document, same.path]
  simp only [same.outcomeOn_eq]

/-- What counts decides: if it is the same tag, both runs leave the same behind. -/
theorem SameUpToLanguages.outcome_eq [Wording] (same : loaded.SameUpToLanguages other)
    (asks : loaded.Asks tag) (asksToo : other.Asks tag) : other.outcome = loaded.outcome := by
  by_cases named : ∃ language : Language, language.IsNamedBy tag
  · obtain ⟨language, named⟩ := named
    rw [outcome_of_named asks named, outcome_of_named asksToo named, same.outcomeIn_eq]
  · rw [not_exists] at named
    rw [outcome_of_unnamed asks named, outcome_of_unnamed asksToo named]

/-- **The language on the command line comes first, then that of the document, then that of the
configuration.** Of the three there is always one that counts, and the run reads the document in it.
So the configuration's language has no influence on a run that is given a language or whose document
states one, and that of the document has none on a run that is given a language. A run that has only
the configuration to go by never lacks a language, since each configuration that can be loaded names
one with a table of keywords. -/
theorem language_precedence [Wording] (loaded : LoadedRun) :
    (∃ tag, loaded.Asks tag) ∧
    (∀ tag, loaded.Asks tag → loaded.ReadsIn tag) ∧
    (∀ other, loaded.SameUpToLanguages other → other.document = loaded.document →
      (∃ tag, loaded.input.language = some tag ∨ loaded.document.States tag) →
      other.outcome = loaded.outcome) ∧
    (∀ other, loaded.SameUpToLanguages other → (∃ tag, loaded.input.language = some tag) →
      other.outcome = loaded.outcome) ∧
    (loaded.input.language = none → (∀ tag, ¬ loaded.document.States tag) →
      ∀ cause, loaded.fault? ≠ some (.language cause)) ∧
    ∀ directory path config, Config.load directory path = .ok config →
      ∃ language, Language.ofTag config.language = .ok language := by
  have ofGiven : ∀ other, loaded.SameUpToLanguages other →
      (∃ tag, loaded.input.language = some tag) → other.outcome = loaded.outcome := by
    rintro other same ⟨tag, given⟩
    exact same.outcome_eq (.given given) (.given (same.given.trans given))
  refine ⟨⟨_, asks_iff.mpr rfl⟩, fun tag => readsIn_of_asks, ?_, ofGiven,
    not_language_of_silent, fun directory path config configured => ?_⟩
  · rintro other same document ⟨tag, given | stated⟩
    · exact ofGiven other same ⟨tag, given⟩
    · cases given : loaded.input.language with
      | some tag => exact ofGiven other same ⟨tag, given⟩
      | none =>
          have statedToo : other.document.States tag := document ▸ stated
          exact same.outcome_eq (.stated given stated)
            (.stated (same.given.trans given) statedToo)
  · obtain ⟨language, named⟩ := Config.exists_isNamedBy configured
    exact ⟨language, Language.ofTag_eq_ok_iff.mpr named⟩

/-- A French document, once with its language and once without. With it, the configuration may be a
German one; with French on the command line, the document need not state it; and without either, the
standard language counts, and in that the document's keyword is none. Klingon, on the command line,
has no keywords. -/
theorem language_precedence_french :
    let document (language : String) : List UInt8 :=
      ("[[" ++ language ++ ",\"\",\"f\",null,[],[[\"Scenario\",\"\",\"s\",null,[],"
        ++ "[[\"Soit \",\"x\",null]]]]]]").toUTF8.toList
    let config := "language='de'".toUTF8.toList
    let french := Directory.ofEntries [("d", .file (document "\"fr\"")), ("c", .file config)]
    let silent := Directory.ofEntries [("d", .file (document "null"))]
    let input : Input := ⟨"d", "pickles.toml", none⟩
    let feature : Feature :=
      ⟨"f", "", [], [.scenario ⟨"s", "", [⟨"Soit ", .given, "x", none, none⟩], [], "f"⟩], none⟩
    run ["map", "d"] french = ⟨0, printed feature.encode, ""⟩ ∧
      Keyword.ofText "fr" "Soit " = .ok .given ∧
      run ["map", "d", "--config=c"] french = run ["map", "d"] french ∧
      run ["map", "d", "--language=fr"] silent = run ["map", "d", "--language=fr"] french ∧
      featureToPrint silent input = .error (.mapping "d" (.unknownKeyword "Soit " "en")) ∧
      Keyword.ofText "en" "Soit " = .error (.unknownKeyword "Soit " "en") ∧
      (Command.map input).fault? silent ≠ some (.language (.unsupportedLanguage "en")) ∧
      run ["map", "d", "--language=tlh"] french =
        ⟨1, "", "configure mapper: language 'tlh' has no keyword table"⟩ := by
  intro document config french silent input feature
  let raw (language : Option String) : Gherkin.Document :=
    ⟨some ⟨language, "", "f", none, [],
      [.scenario ⟨"", "s", none, [], [⟨"Soit ", "x", none⟩]⟩]⟩⟩
  have ofFrench : Gherkin.Document.load french "d" = .ok (raw (some "fr")) := by decide +kernel
  have ofSilent : Gherkin.Document.load silent "d" = .ok (raw none) := by decide +kernel
  have standard : Config.load french "pickles.toml" = .ok .standard := by decide +kernel
  have standardToo : Config.load silent "pickles.toml" = .ok .standard := by decide +kernel
  have german : Config.load french "c" = .ok ⟨"de", []⟩ := by decide +kernel
  let first : LoadedRun := ⟨["map", "d"], french, input, none, .standard, raw (some "fr"),
    by decide +kernel, standard, ofFrench⟩
  let second : LoadedRun := ⟨["map", "d", "--config=c"], french, ⟨"d", "c", none⟩, none, ⟨"de", []⟩,
    raw (some "fr"), by decide +kernel, german, ofFrench⟩
  let third : LoadedRun := ⟨["map", "d", "--language=fr"], french,
    ⟨"d", "pickles.toml", some "fr"⟩, none, .standard, raw (some "fr"), by decide +kernel, standard,
    ofFrench⟩
  let fourth : LoadedRun := ⟨["map", "d", "--language=fr"], silent,
    ⟨"d", "pickles.toml", some "fr"⟩, none, .standard, raw none, by decide +kernel, standardToo,
    ofSilent⟩
  let fifth : LoadedRun := ⟨["map", "d"], silent, input, none, .standard, raw none,
    by decide +kernel, standardToo, ofSilent⟩
  let sixth : LoadedRun := ⟨["map", "d", "--language=tlh"], french,
    ⟨"d", "pickles.toml", some "tlh"⟩, none, .standard, raw (some "fr"), by decide +kernel,
    standard, ofFrench⟩
  have named : Language.french.IsNamedBy "fr" := by
    unfold Language.IsNamedBy
    decide +kernel
  have namedStandard : Language.english.IsNamedBy "en" := by
    unfold Language.IsNamedBy
    decide +kernel
  have unnamed : ∀ language : Language, ¬ language.IsNamedBy "tlh" := by
    intro language
    unfold Language.IsNamedBy
    cases language <;> decide +kernel
  have stated : (raw (some "fr")).States "fr" := ⟨_, rfl, rfl⟩
  have statesNone : ∀ tag, ¬ (raw none).States tag := by
    rintro tag ⟨feature, known, stated⟩
    cases known
    cases stated
  have asksFrench : first.Asks "fr" := .stated rfl stated
  have asksEnglish : fifth.Asks "en" := .configured rfl statesNone
  have ofConfig : first.SameUpToLanguages second :=
    ⟨rfl, rfl, rfl, rfl, rfl, fun _ member => (by cases member)⟩
  have ofDocument : third.SameUpToLanguages fourth :=
    ⟨rfl, rfl, rfl, rfl, rfl, fun _ member => (by cases member)⟩
  have meaning : (raw (some "fr")).interpret .french = .ok feature := by decide +kernel
  have noMeaning : (raw none).interpret .english = .error (.unknownKeyword "Soit " "en") := by
    decide +kernel
  have described : featureToPrint french input = .ok feature :=
    (featureToPrint_of_named asksFrench named).trans (congrArg (orFault _) meaning)
  have unknown : featureToPrint silent input =
      .error (.mapping "d" (.unknownKeyword "Soit " "en")) :=
    (featureToPrint_of_named asksEnglish namedStandard).trans (congrArg (orFault _) noMeaning)
  have inFrench : first.outcomeIn .french = ⟨0, printed feature.encode, ""⟩ := by
    unfold outcomeIn
    dsimp only [first]
    rw [meaning]
    rfl
  have message : "configure mapper: " ++ ("language '" ++ "tlh" ++ "' has no keyword table") =
      "configure mapper: language 'tlh' has no keyword table" := by decide +kernel
  obtain ⟨_, reads, independent, _⟩ := first.language_precedence
  obtain ⟨_, _, _, independentToo, _⟩ := third.language_precedence
  obtain ⟨_, readsToo, _, _, never, _⟩ := fifth.language_precedence
  obtain ⟨_, readsKlingon, _⟩ := sixth.language_precedence
  have given : Keyword.ofText "fr" "Soit " = .ok .given :=
    (reads "fr" asksFrench).keywords feature described
      ⟨"Soit ", .given, "x", none, none⟩ List.mem_cons_self
  have ended := (readsKlingon "tlh" (.given rfl)).unsupported unnamed
  rw [message] at ended
  exact ⟨((reads "fr" asksFrench).supported .french named).trans inFrench, given,
    independent second ofConfig rfl ⟨"fr", .inr stated⟩,
    independentToo fourth ofDocument ⟨"fr", rfl⟩, unknown,
    (readsToo "en" asksEnglish).unknown "d" "Soit " "en" unknown, never rfl statesNone _, ended⟩

end Precedence

end LoadedRun
end LivingDoc
