import LivingDoc.Proofs.CommandLine
import LivingDoc.Proofs.Loading
import LivingDoc.Proofs.Printout

/-!
A run for a feature and a run for verdicts on it say the same about the document.

Both take the same steps up to the reports, so a fault in front of the reports is the fault of both.
If there is none, the reports add verdicts and nothing else: the name of the feature and the kind,
name and tags of each of its elements are printed by both runs.
-/

namespace LivingDoc

/-! ## Printed features and assessments -/

/-- The value of a member of an object. -/
def Json.member? (value : Json) (key : String) : Option Json :=
  match value with
  | .object members => members.lookup (some key)
  | _ => none

/-- Two objects have a value for a key and it is the same. -/
def Json.Share (key : String) (value value' : Json) : Prop :=
  ∃ content, value.member? key = some content ∧ value'.member? key = some content

/-- A printed assessment is on a printed feature: it has the feature's name, and for each element of
the feature in its place a row with the element's kind, name and tags. -/
structure IsOn (assessment feature : Json) : Prop where
  name : ∃ name, assessment.member? "feature" = some (.text name) ∧
    feature.member? "name" = some (.text name)
  rows : ∃ rows elements, assessment.member? "elements" = some (.list rows) ∧
    feature.member? "feature_elements" = some (.list elements) ∧
    List.Forall₂ (fun row element => ∀ key ∈ ["kind", "name", "tags"], Json.Share key row element)
      rows elements

/-- The row of an element shows what the element shows. -/
theorem share_row (element : Element) (verdict : Verdict) :
    ∀ key ∈ ["kind", "name", "tags"],
      Json.Share key (ElementAssessment.mk element.kind element.name element.tags verdict).encode
        element.encode := by
  simp only [List.forall_mem_cons, List.not_mem_nil, false_implies, implies_true, and_true]
  cases element with
  | scenario scenario => exact ⟨⟨_, rfl, rfl⟩, ⟨_, rfl, rfl⟩, ⟨_, rfl, rfl⟩⟩
  | outline outline => exact ⟨⟨_, rfl, rfl⟩, ⟨_, rfl, rfl⟩, ⟨_, rfl, rfl⟩⟩

/-- What sources say about a feature is printed with what the feature shows. -/
theorem isOn_ofFeature (feature : Feature) (source : Source) :
    IsOn (Assessment.ofFeature feature source).encode feature.encode := by
  refine ⟨⟨_, rfl, rfl⟩, ⟨_, _, rfl, rfl, ?_⟩⟩
  rw [Assessment.ofFeature, List.map_map, List.forall₂_map_left_iff, List.forall₂_map_right_iff,
    List.forall₂_same]
  exact fun element _ => share_row element (source.element element)

/-! ## Two runs -/

/-- **Both kinds of runs say the same about a document.** Flags for reports are added to the
arguments of a run for a feature. If that run ends with a fault, the run for verdicts ends with the
same fault, whatever the reports are. If it prints a feature, then a report cannot be loaded, or the
run for verdicts prints an assessment on that very feature. -/
theorem map_and_results_agree [Wording] {arguments arguments' : List String}
    {reports : List ReportLocation} {input : Input} (directory : Directory)
    (mapped : Command.parse? ("map" :: arguments) = some (.map input))
    (flags : Command.WithFlags arguments reports arguments')
    (wellFormed : Command.parse? ("results" :: arguments') ≠ none) :
    let described := run ("map" :: arguments) directory
    let assessed := run ("results" :: arguments') directory
    (described.exitCode = 1 → assessed = ⟨1, "", described.stderr⟩) ∧
    (described.exitCode = 0 →
      (∃ config, Config.load directory input.config = .ok config ∧
        ∃ location ∈ reportLocations config (Command.pathsOf .specRun reports)
            (Command.pathsOf .cucumberJson reports),
          ∃ cause, Report.load directory location = .error cause ∧
            assessed = ⟨1, "", cause.message⟩) ∨
      ∃ feature assessment, IsPrintout described.stdout feature ∧
        IsPrintout assessed.stdout assessment ∧ IsOn assessment feature ∧
        assessed.exitCode ∈ [0, 2] ∧ assessed.stderr = "") := by
  intro described assessed
  have parsed := Command.parse?_withFlags mapped flags wellFormed
  generalize Command.pathsOf .specRun reports = specRun at parsed ⊢
  generalize Command.pathsOf .cucumberJson reports = cucumberJson at parsed ⊢
  cases found : featureToPrint directory input with
  | error fault =>
      have stopped : (Command.map input).fault? directory = some fault :=
        faultOf_eq_some_iff.mpr found
      have refused : described = ⟨1, "", fault.message⟩ :=
        (run_of_command mapped).trans (Ends.refused stopped).eq_run
      have refusedToo : assessed = ⟨1, "", fault.message⟩ :=
        run_of_fault parsed (assessmentToPrint_of_fault found)
      rw [refused, refusedToo]
      exact ⟨fun _ => rfl, nofun⟩
  | ok feature =>
      have shown : described = ⟨0, printed feature.encode, ""⟩ := run_of_feature mapped found
      obtain ⟨config, configured, describes⟩ := featureToPrint_eq_ok_iff.mp found
      rw [shown]
      refine ⟨nofun, fun _ => ?_⟩
      cases loaded : Report.loadEach directory (reportLocations config specRun cucumberJson) with
      | error cause =>
          have ended : assessed = _ := run_of_loadFault parsed configured describes loaded
          obtain ⟨_, location, _, split, _, failed⟩ := mapM_eq_error_iff.mp loaded
          have member : location ∈ reportLocations config specRun cucumberJson :=
            split ▸ List.mem_append_right _ List.mem_cons_self
          exact .inl ⟨config, configured, location, member, cause, failed, ended⟩
      | ok loadedReports =>
          have ended : assessed = _ := run_of_reports parsed configured describes loaded
          rw [ended]
          refine .inr ⟨_, _, isPrintout_printed feature.isSpelled_encode,
            isPrintout_printed (Assessment.isSpelled_encode _), isOn_ofFeature feature _, ?_, rfl⟩
          dsimp only
          split
          · exact List.mem_cons_of_mem _ List.mem_cons_self
          · exact List.mem_cons_self

/-- A document that is missing ends both runs alike, though there is no report either. A document
with a scenario and an outline is printed by both runs, once with a report that records nothing. -/
theorem map_and_results_agree_flag :
    let document :=
      "[[null,\"\",\"f\",null,[],[[\"Scenario\",\"\",\"s\"],[\"ScenarioOutline\",\"\",\"o\"]]]]"
    let directory := Directory.ofEntries [("d", .file document.toUTF8.toList),
      ("r", .file "[]".toUTF8.toList)]
    run ["results", "--spec-run=x", "e"] directory = ⟨1, "", (run ["map", "e"] directory).stderr⟩ ∧
      ∃ feature assessment, IsPrintout (run ["map", "d"] directory).stdout feature ∧
        IsPrintout (run ["results", "d", "--cucumber-json", "r"] directory).stdout assessment ∧
        IsOn assessment feature := by
  intro document directory
  have attached : Command.IsFlag ["--spec-run=x"] ⟨"x", .specRun⟩ := by
    have joined : "--spec-run=x" = "--" ++ Command.reportOption .specRun ++ "=" ++ "x" := by
      decide +kernel
    rw [joined]
    exact .attached ⟨"x", .specRun⟩
  have separate : Command.IsFlag ["--cucumber-json", "r"] ⟨"r", .cucumberJson⟩ := by
    have joined : "--cucumber-json" = "--" ++ Command.reportOption .cucumberJson := by
      decide +kernel
    have isPath : Command.isOption (ReportLocation.mk "r" .cucumberJson).path = false := by
      decide +kernel
    rw [joined]
    exact .separate isPath
  have inFront : Command.WithFlags ["e"] [⟨"x", .specRun⟩] ["--spec-run=x", "e"] :=
    .flag attached (.document (by decide +kernel) .nil)
  have behind : Command.WithFlags ["d"] [⟨"r", .cucumberJson⟩] ["d", "--cucumber-json", "r"] :=
    .document (by decide +kernel) (.flag separate .nil)
  have missing : Command.parse? ["map", "e"] = some (.map ⟨"e", "pickles.toml", none⟩) := by
    decide +kernel
  have present : Command.parse? ["map", "d"] = some (.map ⟨"d", "pickles.toml", none⟩) := by
    decide +kernel
  have standard : Config.load directory "pickles.toml" = .ok .standard := by decide +kernel
  have loaded : Report.load directory ⟨"r", .cucumberJson⟩ = .ok ⟨.cucumberJson, []⟩ := by
    decide +kernel
  obtain ⟨refused, _⟩ :=
    map_and_results_agree directory missing inFront (by decide +kernel)
  obtain ⟨_, shown⟩ :=
    map_and_results_agree directory present behind (by decide +kernel)
  refine ⟨refused (by decide +kernel), ?_⟩
  rcases shown (by decide +kernel) with ⟨config, configured, location, member, cause, failed, _⟩ |
    ⟨feature, assessment, printsFeature, printsAssessment, isOn, _⟩
  · cases standard.symm.trans configured
    cases List.mem_singleton.mp member
    cases loaded.symm.trans failed
  · exact ⟨feature, assessment, printsFeature, printsAssessment, isOn⟩

end LivingDoc
