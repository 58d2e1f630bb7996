import LivingDoc.Proofs.Except
import LivingDoc.Run

/-!
The ways in which a run can end.

Arguments that are not well formed end a run before it has read or printed anything. The run of a
command ends in one of six ways, each with an outcome of its own: what was asked for is printed, or
there is a fault in what had to be read for it.
-/

namespace LivingDoc

theorem orFault_eq_ok_iff {ε α : Type} {fault : ε → RunFault} {x : Except ε α} {value : α} :
    orFault fault x = .ok value ↔ x = .ok value := by
  cases x with
  | error => exact ⟨fun h => (by cases h), fun h => (by cases h)⟩
  | ok => exact ⟨fun h => congrArg Except.ok (Except.ok.inj h), fun h => h ▸ rfl⟩

/-- The fault that ends the run of a command, if there is one. -/
def Command.fault? (directory : Directory) : Command → Option RunFault
  | version => none
  | help _ => none
  | map input => faultOf (featureToPrint directory input)
  | results input specRun cucumberJson =>
    faultOf (assessmentToPrint directory input specRun cucumberJson)

section Commands

variable [Wording] {directory : Directory}

/-- `Ends directory command outcome`: the run of `command` ends with `outcome`. -/
inductive Ends (directory : Directory) : Command → Outcome → Prop
  | version : Ends directory .version ⟨0, "pickles 0.1.0\n", ""⟩
  | help {topic : Topic} : Ends directory (.help topic) ⟨0, Wording.help topic, ""⟩
  | refused {command : Command} {fault : RunFault} :
    command.fault? directory = some fault →
    Ends directory command ⟨1, "", fault.message⟩
  | mapped {input : Input} {feature : Feature} :
    featureToPrint directory input = .ok feature →
    Ends directory (.map input) ⟨0, printed feature.encode, ""⟩
  | withoutFailure {input : Input} {specRun cucumberJson : List String} {assessment : Assessment} :
    assessmentToPrint directory input specRun cucumberJson = .ok assessment →
    assessment.anyFailed = false →
    Ends directory (.results input specRun cucumberJson)
      ⟨0, printed assessment.encode, ""⟩
  | withFailure {input : Input} {specRun cucumberJson : List String} {assessment : Assessment} :
    assessmentToPrint directory input specRun cucumberJson = .ok assessment →
    assessment.anyFailed = true →
    Ends directory (.results input specRun cucumberJson)
      ⟨2, printed assessment.encode, ""⟩

theorem ends_of_command (directory : Directory) (command : Command) :
    Ends directory command (command.run directory) := by
  cases command with
  | version => exact .version
  | help topic => exact .help
  | map input =>
      dsimp only [Command.run]
      cases found : featureToPrint directory input with
      | error fault =>
          have refused : (Command.map input).fault? directory = some fault :=
            faultOf_eq_some_iff.mpr found
          exact .refused refused
      | ok feature => exact .mapped found
  | results input specRun cucumberJson =>
      dsimp only [Command.run]
      cases found : assessmentToPrint directory input specRun cucumberJson with
      | error fault =>
          have refused : (Command.results input specRun cucumberJson).fault? directory =
              some fault := faultOf_eq_some_iff.mpr found
          exact .refused refused
      | ok assessment =>
          dsimp only
          cases failed : assessment.anyFailed with
          | false => exact .withoutFailure found failed
          | true => exact .withFailure found failed

/-- The run of a command ends in no other way. -/
theorem Ends.eq_run {command : Command} {outcome : Outcome}
    (ends : Ends directory command outcome) : command.run directory = outcome := by
  cases ends with
  | version => rfl
  | help => rfl
  | refused refused =>
      cases command with
      | version => cases refused
      | help topic => cases refused
      | map input =>
          dsimp only [Command.run]
          rw [faultOf_eq_some_iff.mp refused]
          rfl
      | results input specRun cucumberJson =>
          dsimp only [Command.run]
          rw [faultOf_eq_some_iff.mp refused]
          rfl
  | mapped found =>
      dsimp only [Command.run]
      rw [found]
      rfl
  | withoutFailure found passed =>
      dsimp only [Command.run]
      rw [found]
      dsimp only
      rw [passed]
      rfl
  | withFailure found failed =>
      dsimp only [Command.run]
      rw [found]
      dsimp only
      rw [failed]
      rfl

end Commands

section Runs

variable [Wording] {arguments : List String} {directory : Directory}

theorem run_of_misuse (refused : Command.parse? arguments = none) :
    run arguments directory = ⟨2, "", Wording.usage arguments⟩ := by
  unfold run
  rw [refused]
  rfl

theorem run_of_command {command : Command} (parsed : Command.parse? arguments = some command) :
    run arguments directory = command.run directory := by
  unfold run
  rw [parsed]

/-- **Every run ends in one of these ways.** -/
theorem ends_run (arguments : List String) (directory : Directory) :
    (Command.parse? arguments = none ∧
      run arguments directory = ⟨2, "", Wording.usage arguments⟩) ∨
    ∃ command, Command.parse? arguments = some command ∧
      Ends directory command (run arguments directory) := by
  cases parsed : Command.parse? arguments with
  | none => exact .inl ⟨rfl, run_of_misuse parsed⟩
  | some command =>
      rw [run_of_command parsed]
      exact .inr ⟨command, rfl, ends_of_command directory command⟩

theorem run_of_fault {input : Input} {specRun cucumberJson : List String} {fault : RunFault}
    (parsed : Command.parse? arguments = some (.results input specRun cucumberJson))
    (h : assessmentToPrint directory input specRun cucumberJson = .error fault) :
    run arguments directory = failedRun fault := by
  have refused : (Command.results input specRun cucumberJson).fault? directory = some fault :=
    faultOf_eq_some_iff.mpr h
  exact (run_of_command parsed).trans (Ends.refused refused).eq_run

theorem run_of_assessment {input : Input} {specRun cucumberJson : List String}
    {assessment : Assessment}
    (parsed : Command.parse? arguments = some (.results input specRun cucumberJson))
    (h : assessmentToPrint directory input specRun cucumberJson = .ok assessment) :
    run arguments directory =
      ⟨if assessment.anyFailed then exitFailed else exitOk, printed assessment.encode, ""⟩ := by
  rw [run_of_command parsed]
  dsimp only [Command.run]
  rw [h]

theorem run_of_feature {input : Input} {feature : Feature}
    (parsed : Command.parse? arguments = some (.map input))
    (h : featureToPrint directory input = .ok feature) :
    run arguments directory = ⟨exitOk, printed feature.encode, ""⟩ :=
  (run_of_command parsed).trans (Ends.mapped h).eq_run

end Runs

end LivingDoc
