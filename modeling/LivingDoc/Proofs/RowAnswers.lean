import LivingDoc.Proofs.Except
import LivingDoc.Proofs.SourceTree
import LivingDoc.Report

/-!
Which trees of sources tell the rows of examples apart, and what they say of a row.

A group promises answers about rows if it has parts and each of them does. So a tree promises them
exactly if all of its leaves do and none of its groups is empty. Here, unlike for verdicts on a
feature, it matters how sources are grouped: an empty group takes the promise of the whole tree
back. If the leaves keep their promises, no part of a group that promises answers refuses one, and
the answers of all leaves are merged.
-/

namespace LivingDoc

/-! ## Promises -/

namespace Source

/-- Whether a source answers questions about rows exactly if it promises to. -/
def KeepsPromise (source : Source) : Prop :=
  ∀ outline values,
    (∃ verdict, source.row outline values = .ok verdict) ↔ source.answersRows = true

theorem answersRows_merged_iff {sources : List Source} :
    (merged sources).answersRows = true ↔
      sources ≠ [] ∧ ∀ source ∈ sources, source.answersRows = true := by
  change (!sources.isEmpty && sources.all answersRows) = true ↔ _
  simp

/-- A group that promises nothing refuses. -/
theorem row_merged_eq_error {sources : List Source}
    (silent : (merged sources).answersRows = false) (outline : Outline) (values : List String) :
    (merged sources).row outline values = .error noRows := by
  change (if (merged sources).answersRows = true then _ else _) = _
  rw [silent]
  rfl

/-- A group that promises answers gives the merged answers of its parts, once all of them have
answered. -/
theorem row_merged_eq_ok {sources : List Source} {outline : Outline} {values : List String}
    {verdicts : List Verdict} (promised : (merged sources).answersRows = true)
    (answered : List.Forall₂ (fun source verdict => source.row outline values = .ok verdict)
      sources verdicts) :
    (merged sources).row outline values = .ok (.overall verdicts) := by
  change (if (merged sources).answersRows = true then _ else _) = _
  rw [if_pos promised, mapM_eq_ok_iff.mpr answered]
  rfl

end Source

/-- No report tells rows apart, and none says that it does. -/
theorem Report.keepsPromise (report : Report) : report.toSource.KeepsPromise := by
  intro outline values
  constructor
  · rintro ⟨verdict, answered⟩
    cases answered
  · intro promised
    cases promised

/-! ## Trees -/

namespace SourceTree

mutual

/-- The groups of a tree, each as the list of its parts. -/
def groups : SourceTree → List (List SourceTree)
  | leaf _ => []
  | group parts => parts :: groupsAmong parts

/-- The groups of several trees. -/
def groupsAmong : List SourceTree → List (List SourceTree)
  | [] => []
  | part :: parts => part.groups ++ groupsAmong parts

end

theorem toSources_eq_nil_iff {parts : List SourceTree} : toSources parts = [] ↔ parts = [] := by
  cases parts with
  | nil => exact iff_of_true rfl rfl
  | cons part parts => exact iff_of_false nofun nofun

mutual

/-- **A tree promises answers exactly if all leaves do and no group is empty.** -/
theorem answersRows_iff :
    (tree : SourceTree) → (tree.toSource.answersRows = true ↔
      [] ∉ tree.groups ∧ ∀ leaf ∈ tree.leaves, leaf.answersRows = true)
  | leaf source => by simp [toSource, groups, leaves]
  | group parts => by
      rw [toSource, Source.answersRows_merged_iff, answersRows_among_iff parts, groups, leaves,
        List.mem_cons, not_or, and_assoc, Ne, toSources_eq_nil_iff, eq_comm]

/-- The same for several trees at once. -/
theorem answersRows_among_iff :
    (parts : List SourceTree) → ((∀ source ∈ toSources parts, source.answersRows = true) ↔
      [] ∉ groupsAmong parts ∧ ∀ leaf ∈ leavesAmong parts, leaf.answersRows = true)
  | [] => by simp [toSources, groupsAmong, leavesAmong]
  | part :: parts => by
      rw [toSources, List.forall_mem_cons, answersRows_iff part, answersRows_among_iff parts,
        groupsAmong, leavesAmong, List.mem_append, not_or, List.forall_mem_append,
        and_and_and_comm]

end

/-- What sources answer about a row, one after the other. -/
def AnswerRow (outline : Outline) (values : List String) (sources : List Source)
    (verdicts : List Verdict) : Prop :=
  List.Forall₂ (fun source verdict => source.row outline values = .ok verdict) sources verdicts

variable {outline : Outline} {values : List String}

mutual

/-- **A tree that promises answers gives the merged answers of its leaves**, if these keep their
promises. -/
theorem exists_row_eq_ok :
    (tree : SourceTree) → (∀ leaf ∈ tree.leaves, leaf.KeepsPromise) →
      tree.toSource.answersRows = true →
      ∃ verdicts, AnswerRow outline values tree.leaves verdicts ∧
        tree.toSource.row outline values = .ok (.overall verdicts)
  | leaf source, kept, promised => by
      obtain ⟨verdict, answered⟩ :=
        (kept source List.mem_cons_self outline values).mpr promised
      refine ⟨[verdict], .cons answered .nil, ?_⟩
      rw [Verdict.overall_singleton]
      exact answered
  | group parts, kept, promised => by
      have each := (Source.answersRows_merged_iff.mp promised).2
      obtain ⟨verdicts, merged, ofLeaves, ofParts, same⟩ := exists_rows_eq_ok parts kept each
      refine ⟨verdicts, ofLeaves, ?_⟩
      rw [← same]
      exact Source.row_merged_eq_ok promised ofParts

/-- The same for several trees, whose answers together weigh as much as those of their leaves. -/
theorem exists_rows_eq_ok :
    (parts : List SourceTree) → (∀ leaf ∈ leavesAmong parts, leaf.KeepsPromise) →
      (∀ source ∈ toSources parts, source.answersRows = true) →
      ∃ verdicts merged, AnswerRow outline values (leavesAmong parts) verdicts ∧
        AnswerRow outline values (toSources parts) merged ∧
        Verdict.overall merged = .overall verdicts
  | [], _, _ => ⟨[], [], .nil, .nil, rfl⟩
  | part :: parts, kept, promised => by
      rw [leavesAmong, List.forall_mem_append] at kept
      rw [toSources, List.forall_mem_cons] at promised
      obtain ⟨verdicts, ofLeaves, answered⟩ := exists_row_eq_ok part kept.1 promised.1
      obtain ⟨verdicts', merged, ofLeaves', ofParts, same⟩ :=
        exists_rows_eq_ok parts kept.2 promised.2
      refine ⟨verdicts ++ verdicts', .overall verdicts :: merged,
        List.rel_append ofLeaves ofLeaves', .cons answered ofParts, ?_⟩
      rw [Verdict.overall_cons, same, Verdict.overall_append]

end

/-- A tree without an empty group has a leaf. -/
theorem leaves_ne_nil : (tree : SourceTree) → [] ∉ tree.groups → tree.leaves ≠ []
  | leaf source, _ => List.cons_ne_nil source []
  | group [], full => (full List.mem_cons_self).elim
  | group (part :: parts), full => by
      rw [groups, groupsAmong, List.mem_cons, List.mem_append, not_or, not_or] at full
      have ofPart := leaves_ne_nil part full.2.1
      exact List.append_ne_nil_of_left_ne_nil ofPart _

/-- A tree of reports promises nothing. Without a leaf it has an empty group. -/
theorem answersRows_of_reports {tree : SourceTree}
    (reports : ∀ leaf ∈ tree.leaves, ∃ report : Report, leaf = report.toSource) :
    tree.toSource.answersRows = false := by
  refine Bool.of_not_eq_true fun promised => ?_
  obtain ⟨full, ofLeaves⟩ := tree.answersRows_iff.mp promised
  obtain ⟨leaf, member⟩ := List.exists_mem_of_ne_nil _ (leaves_ne_nil tree full)
  obtain ⟨report, rfl⟩ := reports leaf member
  cases ofLeaves _ member

/-- **The promise of a tree is true at every nesting.** A tree with a group at its root promises
answers about the rows of examples exactly if no group in it is empty and all its leaves promise
them. If the leaves keep their promises, it answers in this case only, and with the merged answers
of all leaves. In every other case it refuses, and so does each tree of reports. -/
theorem row_answered_iff (parts : List SourceTree) (outline : Outline) (values : List String) :
    ((group parts).toSource.answersRows = true ↔
      [] ∉ (group parts).groups ∧ ∀ leaf ∈ (group parts).leaves, leaf.answersRows = true) ∧
    ((∀ leaf ∈ (group parts).leaves, leaf.KeepsPromise) →
      ((∃ verdict, (group parts).toSource.row outline values = .ok verdict) ↔
        (group parts).toSource.answersRows = true) ∧
      ∀ verdict, (group parts).toSource.row outline values = .ok verdict →
        ∃ verdicts, AnswerRow outline values (group parts).leaves verdicts ∧
          verdict = .overall verdicts) ∧
    ((group parts).toSource.answersRows = false →
      (group parts).toSource.row outline values = .error (.unsupported "example results")) ∧
    ((∀ leaf ∈ (group parts).leaves, ∃ report : Report, leaf = report.toSource) →
      (group parts).toSource.row outline values = .error (.unsupported "example results")) := by
  have refused : (group parts).toSource.answersRows = false →
      (group parts).toSource.row outline values = .error (.unsupported "example results") :=
    fun silent => Source.row_merged_eq_error silent outline values
  have promised : ∀ verdict, (group parts).toSource.row outline values = .ok verdict →
      (group parts).toSource.answersRows = true := by
    intro verdict answered
    refine Bool.of_not_eq_false fun silent => ?_
    rw [refused silent] at answered
    cases answered
  refine ⟨answersRows_iff _, fun kept => ⟨⟨?_, fun promise => ?_⟩, fun verdict answered => ?_⟩,
    refused, fun reports => refused (answersRows_of_reports reports)⟩
  · rintro ⟨verdict, answered⟩
    exact promised verdict answered
  · obtain ⟨verdicts, _, answered⟩ := exists_row_eq_ok (group parts) kept promise
    exact ⟨_, answered⟩
  · obtain ⟨verdicts, ofLeaves, whole⟩ :=
      exists_row_eq_ok (group parts) kept (promised verdict answered)
    rw [answered] at whole
    exact ⟨verdicts, ofLeaves, Except.ok.inj whole⟩

/-- Two sources that tell rows apart, one of them in a group of its own, answer together. With an
empty group next to them there is no answer, and reports give none. -/
theorem row_answered_iff_nested :
    let answering (verdict : Verdict) : Source := ⟨fun _ => verdict, fun _ => verdict,
      fun _ => verdict, fun _ _ => .ok verdict, true⟩
    let parts := [leaf (answering .passed), group [leaf (answering .failed)]]
    let outline : Outline := ⟨"o", "", [], [], [], "f"⟩
    (group parts).toSource.answersRows = true ∧
      (group parts).toSource.row outline ["1"] = .ok .failed ∧
      (group (group [] :: parts)).toSource.row outline ["1"] =
        .error (.unsupported "example results") ∧
      (group [group [leaf (Report.mk .specRun []).toSource]]).toSource.row outline ["1"] =
        .error (.unsupported "example results") := by
  intro answering parts outline
  have honest : ∀ verdict, (answering verdict).KeepsPromise :=
    fun verdict _ _ => iff_of_true ⟨verdict, rfl⟩ rfl
  have kept : ∀ leaf ∈ (group parts).leaves, leaf.KeepsPromise :=
    List.forall_mem_cons.mpr ⟨honest _, List.forall_mem_singleton.mpr (honest _)⟩
  obtain ⟨promised, answers, _, _⟩ := row_answered_iff parts outline ["1"]
  obtain ⟨answered, merged⟩ := answers kept
  have promise : (group parts).toSource.answersRows = true := by
    refine promised.mpr ⟨by simp [parts, groups, groupsAmong], ?_⟩
    exact List.forall_mem_cons.mpr ⟨rfl, List.forall_mem_singleton.mpr rfl⟩
  obtain ⟨verdict, found⟩ := answered.mpr promise
  obtain ⟨verdicts, ofLeaves, rfl⟩ := merged verdict found
  have both : verdicts = [.passed, .failed] := by
    cases ofLeaves with
    | cons first rest =>
        cases rest with
        | cons second none =>
            cases first
            cases second
            cases none
            rfl
  obtain ⟨_, _, refused, _⟩ := row_answered_iff (group [] :: parts) outline ["1"]
  obtain ⟨_, _, _, ofReports⟩ :=
    row_answered_iff [group [leaf (Report.mk .specRun []).toSource]] outline ["1"]
  refine ⟨promise, ?_, refused rfl, ofReports ?_⟩
  · rw [found, both]
    rfl
  · exact List.forall_mem_singleton.mpr ⟨_, rfl⟩

end SourceTree
end LivingDoc
