import LivingDoc.CommandLine
import LivingDoc.Config

/-!
Flags for reports on a command line.

The arguments of a subcommand are read one setting after the other. Flags for reports may stand
between any two settings: not between an option and its value, and not behind the two hyphens that
end the options. Wherever they stand, the document, the configuration and the language that the
other arguments ask for stay the same, and the reports of each format come in their order. All
arguments of a run for verdicts are arguments of a run for a feature with such flags.

A request for help is granted wherever it stands, if nothing in front of it is at fault. Then there
is no run of either kind.
-/

namespace LivingDoc.Command

/-! ## Flags -/

/-- The name of the option for reports of a format. -/
def reportOption : ReportFormat → String
  | .specRun => "spec-run"
  | .cucumberJson => "cucumber-json"

/-- `IsFlag flag location`: the arguments ask for the report at a location, with its path attached
to the option or behind it. -/
inductive IsFlag : List String → ReportLocation → Prop
  | attached (location : ReportLocation) :
    IsFlag ["--" ++ reportOption location.format ++ "=" ++ location.path] location
  | separate {location : ReportLocation} : isOption location.path = false →
    IsFlag ["--" ++ reportOption location.format, location.path] location

/-- `WithFlags arguments reports arguments'`: the arguments of a subcommand with flags for reports
between them. -/
inductive WithFlags : List String → List ReportLocation → List String → Prop
  | nil : WithFlags [] [] []
  | stopped (documents : List String) : WithFlags ("--" :: documents) [] ("--" :: documents)
  | document {path : String} {arguments arguments' : List String}
    {reports : List ReportLocation} :
    isOption path = false → WithFlags arguments reports arguments' →
    WithFlags (path :: arguments) reports (path :: arguments')
  | attached {argument option value : String} {arguments arguments' : List String}
    {reports : List ReportLocation} :
    longOption? argument = some (option, some value) → WithFlags arguments reports arguments' →
    WithFlags (argument :: arguments) reports (argument :: arguments')
  | separate {argument option value : String} {arguments arguments' : List String}
    {reports : List ReportLocation} :
    argument ≠ "--" → longOption? argument = some (option, none) →
    WithFlags arguments reports arguments' →
    WithFlags (argument :: value :: arguments) reports (argument :: value :: arguments')
  | flag {flag arguments arguments' : List String} {location : ReportLocation}
    {reports : List ReportLocation} :
    IsFlag flag location → WithFlags arguments reports arguments' →
    WithFlags arguments (location :: reports) (flag ++ arguments')

/-- The paths of the reports of a format. -/
def pathsOf (format : ReportFormat) (reports : List ReportLocation) : List String :=
  (reports.filter fun location => location.format = format).map ReportLocation.path

/-! ## Reading one setting -/

theorem isOption_of_longOption? {argument : String} {found : String × Option String}
    (long : longOption? argument = some found) : isOption argument = true := by
  unfold longOption? at long
  unfold isOption
  split at long
  · next shape =>
    rw [shape]
    rfl
  · cases long

theorem isOption_of_asksForHelp {argument : String} (asks : asksForHelp argument = true) :
    isOption argument = true := by
  unfold asksForHelp at asks
  rw [Bool.or_eq_true, decide_eq_true_iff] at asks
  rcases asks with rfl | short
  · decide
  · obtain ⟨rest, shape⟩ := List.isPrefixOf_iff_prefix.mp short
    unfold isOption
    rw [← shape]
    rfl

/-- An option with a value attached to it asks for no help. -/
theorem asksForHelp_of_attached {argument option value : String}
    (long : longOption? argument = some (option, some value)) : asksForHelp argument = false := by
  refine Bool.eq_false_iff.mpr fun asks => ?_
  unfold asksForHelp at asks
  rw [Bool.or_eq_true, decide_eq_true_iff] at asks
  rcases asks with rfl | short
  · have plain : longOption? "--help" = some ("help", none) := by decide
    rw [plain] at long
    cases long
  · obtain ⟨rest, shape⟩ := List.isPrefixOf_iff_prefix.mp short
    unfold longOption? at long
    rw [← shape] at long
    cases long

theorem read?_help {reports : Bool} {settings : Settings} {argument : String}
    {arguments : List String} (asks : asksForHelp argument = true) :
    read? reports settings (argument :: arguments) =
      if settings.areSound then some .help else none := by
  have visible : argument = "--" → False := by
    rintro rfl
    exact absurd asks (by decide)
  rw [read?.eq_3 _ _ _ _ visible, if_pos asks]

theorem read?_document {reports : Bool} {settings : Settings} {path : String}
    {arguments : List String} (isPath : isOption path = false) :
    read? reports settings (path :: arguments) =
      read? reports (settings.addDocument path) arguments := by
  have visible : path = "--" → False := by
    rintro rfl
    cases isPath
  have noHelp : ¬ asksForHelp path = true := fun asks =>
    Bool.false_ne_true (isPath.symm.trans (isOption_of_asksForHelp asks))
  rw [read?.eq_3 _ _ _ _ visible, if_neg noHelp, isPath]
  rfl

theorem read?_attached {reports : Bool} {settings : Settings} {argument option value : String}
    {arguments : List String} (long : longOption? argument = some (option, some value)) :
    read? reports settings (argument :: arguments) =
      (settings.addOption? reports option value).bind fun settings =>
        read? reports settings arguments := by
  have visible : argument = "--" → False := by
    rintro rfl
    cases long
  rw [read?.eq_3 _ _ _ _ visible, asksForHelp_of_attached long, isOption_of_longOption? long, long]
  rfl

theorem read?_separate {reports : Bool} {settings : Settings} {argument option value : String}
    {arguments : List String} (visible : argument ≠ "--") (noHelp : asksForHelp argument = false)
    (long : longOption? argument = some (option, none)) :
    read? reports settings (argument :: value :: arguments) =
      if isOption value then none
      else (settings.addOption? reports option value).bind fun settings =>
        read? reports settings arguments := by
  rw [read?.eq_3 _ _ _ _ visible, noHelp, isOption_of_longOption? long, long]
  rfl

theorem longOption?_attached (location : ReportLocation) :
    longOption? ("--" ++ reportOption location.format ++ "=" ++ location.path) =
      some (reportOption location.format, some location.path) := by
  cases location.format <;> simp [longOption?, reportOption]

theorem longOption?_separate (format : ReportFormat) :
    longOption? ("--" ++ reportOption format) = some (reportOption format, none) := by
  cases format <;> decide

theorem eq_of_longOption?_attached {argument option value : String}
    (long : longOption? argument = some (option, some value)) :
    argument = "--" ++ option ++ "=" ++ value := by
  unfold longOption? at long
  split at long
  · next text shape =>
    dsimp only at long
    split at long
    · cases long
    · next sign rest cut =>
      cases long
      have isSign : (sign != '=') = false := by
        have nonempty : text.dropWhile (· != '=') ≠ [] := by
          rw [cut]
          exact List.cons_ne_nil sign rest
        simpa only [cut, List.head_cons] using List.head_dropWhile_not (· != '=') nonempty
      obtain rfl : sign = '=' := by simpa using isSign
      have whole : text.takeWhile (· != '=') ++ '=' :: rest = text :=
        cut ▸ List.takeWhile_append_dropWhile
      rw [← String.toList_inj, shape]
      simp [whole]
  · cases long

theorem eq_of_longOption?_separate {argument option : String}
    (long : longOption? argument = some (option, none)) : argument = "--" ++ option := by
  unfold longOption? at long
  split at long
  · next text shape =>
    dsimp only at long
    split at long
    · next cut =>
      cases long
      have whole : text.takeWhile (· != '=') ++ [] = text :=
        cut ▸ List.takeWhile_append_dropWhile
      rw [List.append_nil] at whole
      rw [← String.toList_inj, shape]
      simp [whole]
    · cases long
  · cases long

/-! ## Settings with reports -/

namespace Settings

/-- Settings with the given reports in place of their own. -/
def withReports (settings : Settings) (reports : List ReportLocation) : Settings :=
  { settings with
    specRun := pathsOf .specRun reports
    cucumberJson := pathsOf .cucumberJson reports }

theorem foldl_addDocument_withReports (settings : Settings) (reports : List ReportLocation)
    (documents : List String) :
    documents.foldl addDocument (settings.withReports reports) =
      (documents.foldl addDocument settings).withReports reports := by
  induction documents generalizing settings with
  | nil => rfl
  | cons document documents ih => exact ih (settings.addDocument document)

/-- An option that exists without reports has the same effect with reports. -/
theorem addOption?_withReports {settings settings' : Settings} {option value : String}
    (reports : List ReportLocation)
    (added : settings.addOption? false option value = some settings') :
    (settings.withReports reports).addOption? true option value =
      some (settings'.withReports reports) := by
  unfold addOption? at added
  split at added
  · cases added
    rfl
  · cases added
    rfl
  · next impossible => cases impossible
  · next impossible => cases impossible
  · cases added

/-- An option for reports adds its report behind the others. -/
theorem addOption?_report (settings : Settings) (reports : List ReportLocation)
    (location : ReportLocation) :
    (settings.withReports reports).addOption? true (reportOption location.format) location.path =
      some (settings.withReports (reports ++ [location])) := by
  obtain ⟨path, format⟩ := location
  cases format <;> simp [addOption?, reportOption, withReports, pathsOf]

/-- An option exists without reports or asks for one. -/
theorem addOption?_true {settings added : Settings} {reports : List ReportLocation}
    {option value : String}
    (adds : (settings.withReports reports).addOption? true option value = some added) :
    (∃ without : Settings, (settings.withReports []).addOption? false option value =
        some (without.withReports []) ∧ added = without.withReports reports) ∨
    ∃ format, option = reportOption format ∧
      added = settings.withReports (reports ++ [⟨value, format⟩]) := by
  unfold addOption? at adds
  split at adds
  · exact .inl ⟨{ settings with configs := settings.configs ++ [value] }, rfl,
      (Option.some.inj adds).symm⟩
  · exact .inl ⟨{ settings with languages := settings.languages ++ [value] }, rfl,
      (Option.some.inj adds).symm⟩
  · refine .inr ⟨.specRun, rfl, ?_⟩
    exact Option.some.inj (adds.symm.trans (addOption?_report settings reports ⟨value, .specRun⟩))
  · refine .inr ⟨.cucumberJson, rfl, ?_⟩
    exact Option.some.inj
      (adds.symm.trans (addOption?_report settings reports ⟨value, .cucumberJson⟩))
  · cases adds

theorem areSound_iff {settings : Settings} :
    settings.areSound = true ↔
      settings.documents.length ≤ 1 ∧ settings.configs.length ≤ 1 ∧
        settings.languages.length ≤ 1 ∧
        "" ∉ settings.documents ++ settings.configs ++ settings.specRun
          ++ settings.cucumberJson := by
  unfold areSound
  simp only [Bool.and_eq_true, decide_eq_true_iff, Bool.not_eq_true', List.contains_eq_mem,
    decide_eq_false_iff_not, and_assoc]

/-- Settings give an input exactly if they have one document, at most one configuration and
language, and no path is empty. -/
theorem input?_eq_some_iff {settings : Settings} {input : Input} :
    settings.input? = some input ↔
      (settings.documents = [input.document] ∧ settings.configs.length ≤ 1 ∧
        settings.languages.length ≤ 1) ∧
      (input.config = settings.configs.headD standardConfig ∧
        input.language = settings.languages.head?) ∧
      "" ∉ input.document :: input.config :: (settings.specRun ++ settings.cucumberJson) := by
  obtain ⟨documents, configs, languages, specRun, cucumberJson⟩ := settings
  obtain ⟨document', config', language'⟩ := input
  unfold input?
  cases documents with
  | nil => exact ⟨nofun, fun given => nomatch given.1.1⟩
  | cons document others =>
      rw [List.head?_cons]
      change (if _ then some _ else none) = some _ ↔ _
      have standard : standardConfig ≠ "" := by decide
      rw [Option.ite_none_right_eq_some, areSound_iff]
      obtain _ | ⟨config, _ | _⟩ := configs <;> simp <;> grind

/-- Without their reports settings still give their input. -/
theorem input?_withoutReports {settings : Settings} {reports : List ReportLocation} {input : Input}
    (given : (settings.withReports reports).input? = some input) :
    (settings.withReports []).input? = some input := by
  rw [input?_eq_some_iff] at given ⊢
  obtain ⟨counts, values, nonempty⟩ := given
  refine ⟨counts, values, fun empty => nonempty ?_⟩
  have inFront : [input.document, input.config] ⊆
      input.document :: input.config ::
        (pathsOf .specRun reports ++ pathsOf .cucumberJson reports) :=
    List.cons_subset_cons _ (List.cons_subset_cons _ (List.nil_subset _))
  exact inFront empty

/-- Reports do not change the input that settings give. -/
theorem eq_of_input?_withReports {settings : Settings} {reports : List ReportLocation}
    {input input' : Input} (given : settings.input? = some input)
    (within : (settings.withReports reports).input? = some input') : input' = input := by
  obtain ⟨⟨document, _⟩, ⟨config, language⟩, _⟩ := input?_eq_some_iff.mp given
  obtain ⟨⟨document', _⟩, ⟨config', language'⟩, _⟩ := input?_eq_some_iff.mp within
  have sameDocument : [input'.document] = [input.document] := document'.symm.trans document
  cases input
  cases input'
  rw [Input.mk.injEq]
  exact ⟨List.singleton_inj.mp sameDocument, config'.trans config.symm,
    language'.trans language.symm⟩

end Settings

/-- A flag adds its report behind the others. -/
theorem read?_flag {settings : Settings} {reports : List ReportLocation}
    {flag arguments : List String} {location : ReportLocation} (isFlag : IsFlag flag location) :
    read? true (settings.withReports reports) (flag ++ arguments) =
      read? true (settings.withReports (reports ++ [location])) arguments := by
  cases isFlag with
  | attached =>
      change read? true _ (_ :: arguments) = _
      rw [read?_attached (longOption?_attached location), Settings.addOption?_report]
      rfl
  | separate isPath =>
      have visible : "--" ++ reportOption location.format ≠ "--" := by
        cases location.format <;> decide
      have noHelp : asksForHelp ("--" ++ reportOption location.format) = false := by
        cases location.format <;> decide
      change read? true _ (_ :: _ :: arguments) = _
      rw [read?_separate visible noHelp (longOption?_separate _), isPath,
        Settings.addOption?_report]
      rfl

/-- The settings found with flags are those found without them, together with the reports that the
flags ask for. -/
theorem read?_withFlags {arguments arguments' : List String} {reports : List ReportLocation}
    (flags : WithFlags arguments reports arguments') {settings settings' : Settings}
    (seen : List ReportLocation)
    (found : read? false settings arguments = some (.settings settings')) :
    read? true (settings.withReports seen) arguments' =
      some (.settings (settings'.withReports (seen ++ reports))) := by
  induction flags generalizing settings seen with
  | nil =>
      cases found
      rw [List.append_nil]
      rfl
  | stopped documents =>
      cases found
      rw [List.append_nil, ← Settings.foldl_addDocument_withReports]
      rfl
  | document isPath _ ih =>
      rw [read?_document isPath] at found ⊢
      exact ih seen found
  | attached long _ ih =>
      rw [read?_attached long] at found ⊢
      obtain ⟨added, adds, found⟩ := Option.bind_eq_some_iff.mp found
      rw [Settings.addOption?_withReports seen adds]
      exact ih seen found
  | @separate argument _ _ _ _ _ visible long _ ih =>
      cases asks : asksForHelp argument with
      | true =>
          rw [read?_help asks] at found
          split at found <;> cases found
      | false =>
          rw [read?_separate visible asks long] at found ⊢
          split at found
          · cases found
          · next isValue =>
            obtain ⟨added, adds, found⟩ := Option.bind_eq_some_iff.mp found
            rw [if_neg isValue, Settings.addOption?_withReports seen adds]
            exact ih seen found
  | @flag _ _ _ location reports isFlag _ ih =>
      rw [List.append_cons, read?_flag isFlag]
      exact ih (seen ++ [location]) found

/-- Help is granted behind any settings that are free of faults, whatever follows. -/
theorem read?_append_help {reports : Bool} {settings settings' : Settings} {argument : String}
    {before after : List String} (unended : "--" ∉ before)
    (found : read? reports settings before = some (.settings settings'))
    (sound : settings'.areSound = true) (asks : asksForHelp argument = true) :
    read? reports settings (before ++ argument :: after) = some .help := by
  fun_induction read? reports settings before with
  | case1 settings =>
      cases found
      rw [List.nil_append, read?_help asks, if_pos sound]
  | case2 => exact (unended List.mem_cons_self).elim
  | case3 => cases found
  | case4 => cases found
  | case5 => cases found
  | case6 settings argument' rest _ _ _ option value long ih =>
      obtain ⟨added, adds, found⟩ := Option.bind_eq_some_iff.mp found
      rw [List.cons_append, read?_attached long, adds]
      exact ih added (fun member => unended (List.mem_cons_of_mem _ member)) found
  | case7 => cases found
  | case8 => cases found
  | case9 settings argument' visible asks' _ option long value rest isValue ih =>
      obtain ⟨added, adds, found⟩ := Option.bind_eq_some_iff.mp found
      rw [List.cons_append, List.cons_append,
        read?_separate visible (Bool.eq_false_iff.mpr asks') long, if_neg isValue, adds]
      exact ih added (fun member =>
        unended (List.mem_cons_of_mem _ (List.mem_cons_of_mem _ member))) found
  | case10 settings argument' rest _ _ isPath ih =>
      rw [List.cons_append, read?_document (Bool.eq_false_iff.mpr isPath)]
      exact ih (fun member => unended (List.mem_cons_of_mem _ member)) found

/-! ## Whole command lines -/

theorem parse?_map_iff {arguments : List String} {input : Input} :
    parse? ("map" :: arguments) = some (.map input) ↔
      ∃ settings, read? false .empty arguments = some (.settings settings) ∧
        settings.input? = some input := by
  change (read? false .empty arguments).bind _ = _ ↔ _
  rw [Option.bind_eq_some_iff]
  constructor
  · rintro ⟨reading, found, asked⟩
    cases reading with
    | help => cases asked
    | settings settings =>
        obtain ⟨input', given, same⟩ := Option.bind_eq_some_iff.mp asked
        cases same
        exact ⟨settings, found, given⟩
  · rintro ⟨settings, found, given⟩
    exact ⟨.settings settings, found, Option.bind_eq_some_iff.mpr ⟨input, given, rfl⟩⟩

theorem parse?_results_iff {arguments specRun cucumberJson : List String} {input : Input} :
    parse? ("results" :: arguments) = some (.results input specRun cucumberJson) ↔
      ∃ settings, read? true .empty arguments = some (.settings settings) ∧
        settings.input? = some input ∧ settings.specRun = specRun ∧
        settings.cucumberJson = cucumberJson := by
  change (read? true .empty arguments).bind _ = _ ↔ _
  rw [Option.bind_eq_some_iff]
  constructor
  · rintro ⟨reading, found, asked⟩
    cases reading with
    | help => cases asked
    | settings settings =>
        obtain ⟨input', given, same⟩ := Option.bind_eq_some_iff.mp asked
        cases same
        exact ⟨settings, found, given, rfl, rfl⟩
  · rintro ⟨settings, found, given, rfl, rfl⟩
    exact ⟨.settings settings, found, Option.bind_eq_some_iff.mpr ⟨input, given, rfl⟩⟩

/-- **Help with a subcommand is granted wherever it is asked for**, if nothing in front of the
request is at fault. -/
theorem parse?_append_help {settings : Settings} {argument : String} {before after : List String}
    (unended : "--" ∉ before) (sound : settings.areSound = true)
    (asks : asksForHelp argument = true) :
    (read? false .empty before = some (.settings settings) →
      parse? ("map" :: (before ++ argument :: after)) = some (.help .map)) ∧
    (read? true .empty before = some (.settings settings) →
      parse? ("results" :: (before ++ argument :: after)) = some (.help .results)) := by
  refine ⟨fun found => ?_, fun found => ?_⟩
  · change (read? false .empty (before ++ argument :: after)).bind _ = _
    rw [read?_append_help unended found sound asks]
    rfl
  · change (read? true .empty (before ++ argument :: after)).bind _ = _
    rw [read?_append_help unended found sound asks]
    rfl

/-- Where settings have been read, there is no other way for the arguments to be well formed than to
give an input. -/
theorem exists_input_of_parse? {arguments : List String} {settings : Settings}
    (found : read? true .empty arguments = some (.settings settings))
    (wellFormed : parse? ("results" :: arguments) ≠ none) :
    ∃ input, settings.input? = some input := by
  obtain ⟨command, parsed⟩ := Option.ne_none_iff_exists'.mp wellFormed
  change (read? true .empty arguments).bind _ = _ at parsed
  rw [found, Option.bind_some] at parsed
  obtain ⟨input, given, _⟩ := Option.bind_eq_some_iff.mp parsed
  exact ⟨input, given⟩

/-- **Flags for reports change only the reports.** If what `map` is asked for is well formed, and so
is what `results` is asked for with further flags, then both are asked for the same input. -/
theorem parse?_withFlags {arguments arguments' : List String} {reports : List ReportLocation}
    {input : Input} (mapped : parse? ("map" :: arguments) = some (.map input))
    (flags : WithFlags arguments reports arguments')
    (wellFormed : parse? ("results" :: arguments') ≠ none) :
    parse? ("results" :: arguments') =
      some (.results input (pathsOf .specRun reports) (pathsOf .cucumberJson reports)) := by
  obtain ⟨settings, found, without⟩ := parse?_map_iff.mp mapped
  have withFlags : read? true .empty arguments' =
      some (.settings (settings.withReports reports)) := read?_withFlags flags [] found
  obtain ⟨input', within⟩ := exists_input_of_parse? withFlags wellFormed
  cases Settings.eq_of_input?_withReports without within
  exact parse?_results_iff.mpr ⟨_, withFlags, within, rfl, rfl⟩

/-- The arguments of a run for verdicts are arguments of a run for a feature, with flags between
them. -/
theorem exists_withFlags_read? {settings settings' : Settings} {seen : List ReportLocation}
    {arguments' : List String}
    (found : read? true (settings.withReports seen) arguments' = some (.settings settings')) :
    ∃ (arguments : List String) (reports : List ReportLocation) (without : Settings),
      WithFlags arguments reports arguments' ∧
      read? false (settings.withReports []) arguments =
        some (.settings (without.withReports [])) ∧
      settings' = without.withReports (seen ++ reports) := by
  -- The settings without reports are followed along, and the reports seen so far stay in front.
  generalize begun : settings.withReports seen = both at found
  fun_induction read? true both arguments' generalizing settings seen with
  | case1 =>
      subst begun
      cases found
      exact ⟨[], [], settings, .nil, rfl, by rw [List.append_nil]⟩
  | case2 both documents =>
      subst begun
      cases found
      refine ⟨_, [], documents.foldl Settings.addDocument settings, .stopped documents, ?_, ?_⟩
      · have without := Settings.foldl_addDocument_withReports settings [] documents
        exact congrArg (fun settings => some (Reading.settings settings)) without
      · rw [List.append_nil, Settings.foldl_addDocument_withReports]
  | case3 => cases found
  | case4 => cases found
  | case5 => cases found
  | case6 both argument rest _ _ _ option value long ih =>
      subst begun
      obtain ⟨added, adds, found⟩ := Option.bind_eq_some_iff.mp found
      rcases Settings.addOption?_true adds with ⟨without, addsToo, rfl⟩ | ⟨format, rfl, rfl⟩
      · obtain ⟨arguments, reports, final, flags, read, same⟩ := ih _ rfl found
        refine ⟨_, reports, final, .attached long flags, ?_, same⟩
        rw [read?_attached long, addsToo]
        exact read
      · obtain ⟨arguments, reports, final, flags, read, same⟩ := ih _ rfl found
        cases eq_of_longOption?_attached long
        refine ⟨arguments, ⟨value, format⟩ :: reports, final, ?_, read, ?_⟩
        · exact .flag (.attached ⟨value, format⟩) flags
        · rw [same, List.append_assoc, List.singleton_append]
  | case7 => cases found
  | case8 => cases found
  | case9 both argument visible asks _ option long value rest isValue ih =>
      subst begun
      obtain ⟨added, adds, found⟩ := Option.bind_eq_some_iff.mp found
      rcases Settings.addOption?_true adds with ⟨without, addsToo, rfl⟩ | ⟨format, rfl, rfl⟩
      · obtain ⟨arguments, reports, final, flags, read, same⟩ := ih _ rfl found
        refine ⟨_, reports, final, .separate visible long flags, ?_, same⟩
        rw [read?_separate visible (Bool.eq_false_iff.mpr asks) long, if_neg isValue, addsToo]
        exact read
      · obtain ⟨arguments, reports, final, flags, read, same⟩ := ih _ rfl found
        cases eq_of_longOption?_separate long
        have isPath : isOption (ReportLocation.mk value format).path = false :=
          Bool.eq_false_iff.mpr isValue
        refine ⟨arguments, ⟨value, format⟩ :: reports, final, ?_, read, ?_⟩
        · exact .flag (.separate isPath) flags
        · rw [same, List.append_assoc, List.singleton_append]
  | case10 both argument rest _ _ isPath ih =>
      subst begun
      have added : (settings.addDocument argument).withReports seen =
          (settings.withReports seen).addDocument argument := rfl
      obtain ⟨arguments, reports, final, flags, read, same⟩ := ih added found
      have isPath := Bool.eq_false_iff.mpr isPath
      refine ⟨_, reports, final, .document isPath flags, ?_, same⟩
      rw [read?_document isPath]
      exact read

/-- **Each run for verdicts is a run for a feature with flags.** -/
theorem exists_withFlags {arguments' specRun cucumberJson : List String} {input : Input}
    (parsed : parse? ("results" :: arguments') = some (.results input specRun cucumberJson)) :
    ∃ arguments reports, WithFlags arguments reports arguments' ∧
      parse? ("map" :: arguments) = some (.map input) := by
  obtain ⟨settings, found, given, _, _⟩ := parse?_results_iff.mp parsed
  have begun : read? true (Settings.empty.withReports []) arguments' =
      some (.settings settings) := found
  obtain ⟨arguments, reports, without, flags, read, rfl⟩ := exists_withFlags_read? begun
  have mapped := parse?_map_iff.mpr ⟨_, read, Settings.input?_withoutReports given⟩
  exact ⟨arguments, reports, flags, mapped⟩

end LivingDoc.Command
