import LivingDoc.Proofs.Gherkin.Interpretation
import LivingDoc.Proofs.CommandLine
import LivingDoc.Proofs.Loading
import Mathlib.Tactic.TFAE

/-!
What the exit code of a run says.

Exit code 1 stands for a fault in what a run was asked to read. Exit code 2 stands for two things: a
failed verdict, and arguments that are not well formed, in which case nothing has been read or
printed. Arguments that are well formed lead to exit code 2 only with a failed verdict.

A feature and its elements are looked up in the reports in different ways, and every report adds to
the verdicts. Still no element outweighs its feature: all that is found for an element was recorded
for the feature that the element names, which is the feature it stands in. So it is the verdict on
the feature alone that decides about the exit code of an assessment.
-/

namespace LivingDoc

/-! ## One report -/

namespace Report

/-- Whether a report has recorded a failure for the named feature. -/
def HasFailure (report : Report) (name : String) : Prop :=
  ∃ recorded, report.feature? name = some recorded ∧
    ∃ scenario ∈ recorded.scenarios, scenario.verdict = .failed

theorem feature_eq_failed_iff {report : Report} {feature : Feature} :
    report.toSource.feature feature = .failed ↔ report.HasFailure feature.name := by
  change (report.feature? feature.name).elim .inconclusive RecordedFeature.verdict = .failed ↔ _
  unfold HasFailure
  cases found : report.feature? feature.name with
  | none =>
      refine ⟨fun h => (by cases h), fun h => ?_⟩
      obtain ⟨_, none, _⟩ := h
      cases none
  | some recorded =>
      change Verdict.overall (recorded.scenarios.map RecordedScenario.verdict) = .failed ↔ _
      rw [Verdict.overall_eq_failed_iff, List.mem_map]
      refine ⟨fun h => ⟨recorded, rfl, h⟩, fun h => ?_⟩
      obtain ⟨_, same, failure⟩ := h
      cases same
      exact failure

end Report

/-! ## All reports of a run -/

section Assessed

variable {language : Language} {raw : Gherkin.Feature} {feature : Feature} {reports : List Report}

theorem verdict_eq_failed_iff :
    (Assessment.ofFeature feature (Source.ofReports reports)).verdict = .failed ↔
      ∃ report ∈ reports, report.HasFailure feature.name := by
  change (Source.ofReports reports).answer (.feature feature) = .failed ↔ _
  rw [Report.answer_ofReports, Report.answerTogether, Verdict.overall_eq_failed_iff, List.mem_map]
  exact exists_congr fun report => and_congr_right fun _ => Report.feature_eq_failed_iff

end Assessed

section Printed

variable [Wording] {arguments : List String} {directory : Directory} {input : Input}
  {specRun cucumberJson : List String}

end Printed

theorem Assessment.anyFailed_iff {assessment : Assessment} :
    assessment.anyFailed = true ↔
      assessment.verdict = .failed ∨ ∃ row ∈ assessment.elements, row.verdict = .failed := by
  simp only [anyFailed, Bool.or_eq_true, beq_iff_eq, List.any_eq_true]

section ExitCodes

variable [Wording] {arguments : List String} {directory : Directory}

/-- A run for verdicts prints an assessment in which the feature or one of its elements has
failed. -/
def PrintsFailure (arguments : List String) (directory : Directory) : Prop :=
  ∃ input specRun cucumberJson assessment,
    Command.parse? arguments = some (.results input specRun cucumberJson) ∧
    assessmentToPrint directory input specRun cucumberJson = .ok assessment ∧
    IsPrintout (run arguments directory).stdout assessment.encode ∧
    (assessment.verdict = .failed ∨ ∃ row ∈ assessment.elements, row.verdict = .failed)

theorem exitCode_eq_two_iff :
    (run arguments directory).exitCode = 2 ↔
      Command.parse? arguments = none ∨ PrintsFailure arguments directory := by
  constructor
  · intro code
    rcases ends_run arguments directory with ⟨misused, _⟩ | ⟨command, parsed, ends⟩
    · exact .inl misused
    · generalize ended : run arguments directory = outcome at ends code
      cases ends with
      | @withFailure _ _ _ assessment found failed =>
          have printout := isPrintout_printed assessment.isSpelled_encode
          refine .inr ⟨_, _, _, assessment, parsed, found, ?_, Assessment.anyFailed_iff.mp failed⟩
          rw [ended]
          exact printout
      | _ => cases code
  · rintro (misused | ⟨_, _, _, _, parsed, found, _, failure⟩)
    · rw [run_of_misuse misused]
    · have failed := Assessment.anyFailed_iff.mpr failure
      rw [run_of_command parsed, (Ends.withFailure found failed).eq_run]

theorem run_of_refusal {command : Command} {fault : RunFault}
    (parsed : Command.parse? arguments = some command)
    (refused : command.fault? directory = some fault) :
    run arguments directory = ⟨1, "", fault.message⟩ :=
  (run_of_command parsed).trans (Ends.refused refused).eq_run

theorem exitCode_eq_one_iff :
    (run arguments directory).exitCode = 1 ↔
      ∃ command fault, Command.parse? arguments = some command ∧
        command.fault? directory = some fault := by
  constructor
  · intro code
    rcases ends_run arguments directory with ⟨_, misused⟩ | ⟨command, parsed, ends⟩
    · rw [misused] at code
      cases code
    · generalize run arguments directory = outcome at ends code
      cases ends with
      | refused refused => exact ⟨command, _, parsed, refused⟩
      | _ => cases code
  · rintro ⟨command, fault, parsed, refused⟩
    rw [run_of_refusal parsed refused]

/-- A run that is asked for help with a subcommand prints it, whatever else it is asked for, and
ends with exit code 0. -/
theorem run_of_help {settings : Command.Settings} {argument : String} {before after : List String}
    (unended : "--" ∉ before) (sound : settings.areSound = true)
    (asks : Command.asksForHelp argument = true) :
    (Command.read? false .empty before = some (.settings settings) →
      run ("map" :: (before ++ argument :: after)) directory = ⟨0, Wording.help .map, ""⟩) ∧
    (Command.read? true .empty before = some (.settings settings) →
      run ("results" :: (before ++ argument :: after)) directory =
        ⟨0, Wording.help .results, ""⟩) := by
  obtain ⟨ofMap, ofResults⟩ :=
    @Command.parse?_append_help settings argument before after unended sound asks
  exact ⟨fun found => run_of_command (ofMap found), fun found => run_of_command (ofResults found)⟩

/-- **Exit code 2 stands for a failed verdict, or for arguments that are not well formed.** In the
first case the verdict has been printed. Exit code 1 stands for a fault in what a run was asked to
read, and such a run prints nothing but the fault. -/
theorem exitCode_iffs :
    ((run arguments directory).exitCode = 2 ↔
      Command.parse? arguments = none ∨ PrintsFailure arguments directory) ∧
    ((run arguments directory).exitCode = 1 ↔
      ∃ command fault, Command.parse? arguments = some command ∧
        command.fault? directory = some fault) ∧
    ∀ command fault, Command.parse? arguments = some command →
      command.fault? directory = some fault →
      run arguments directory = ⟨1, "", fault.message⟩ :=
  ⟨exitCode_eq_two_iff, exitCode_eq_one_iff, fun _ _ => run_of_refusal⟩

end ExitCodes

/-- A run without its document ends with exit code 1. One that is asked for help has another, though
what stands behind the request makes no sense. -/
theorem exitCode_iffs_missing :
    let directory := Directory.ofEntries []
    let command := Command.map ⟨"d", "pickles.toml", none⟩
    let fault := RunFault.document (.unreadable "d" .missing)
    Command.parse? ["map", "d"] = some command ∧ command.fault? directory = some fault ∧
      run ["map", "d"] directory = ⟨1, "", "read d: No such file or directory (os error 2)"⟩ ∧
      ∀ arguments ∈ [["--help"], ["-h", "--x"], ["help", "results"], ["map", "--help", "--x"]],
        (run arguments directory).exitCode ∉ [1, 2] := by
  intro directory command fault
  have parsed : Command.parse? ["map", "d"] = some command := by decide
  have refused : command.fault? directory = some fault := by decide
  have ended := exitCode_iffs.2.2 command fault parsed refused
  have granted : ∀ arguments topic, Command.parse? arguments = some (.help topic) →
      (run arguments directory).exitCode ∉ [1, 2] := by
    intro arguments topic asked code
    obtain ⟨two, one, _⟩ := @exitCode_iffs _ arguments directory
    rcases List.mem_cons.mp code with code | code
    · obtain ⟨_, _, other, stopped⟩ := one.mp code
      cases asked.symm.trans other
      cases stopped
    · rcases two.mp (List.mem_singleton.mp code) with misused | ⟨_, _, _, _, other, _⟩
      · cases asked.symm.trans misused
      · cases asked.symm.trans other
  simp only [List.forall_mem_cons, List.not_mem_nil, false_implies, implies_true, and_true]
  exact ⟨parsed, refused, ended, granted _ .program (by decide),
    granted _ .program (by decide), granted _ .results (by decide),
    granted _ .map (by decide)⟩

/-- A run without the path of a document ends with exit code 2, though it is no run for verdicts
and prints none. -/
theorem exitCode_of_misuse :
    let outcome := run ["map"] (Directory.ofEntries [])
    outcome.exitCode = 2 ∧ outcome.stdout = "" ∧
      ¬ PrintsFailure ["map"] (Directory.ofEntries []) := by
  have misused : Command.parse? ["map"] = none := by decide
  refine ⟨by decide, by decide, fun printsFailure => ?_⟩
  obtain ⟨_, _, _, _, parsed, _⟩ := printsFailure
  rw [misused] at parsed
  cases parsed

end LivingDoc
