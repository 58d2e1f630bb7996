import LivingDoc.Assessment
import LivingDoc.Proofs.Verdict
import Mathlib.Logic.Basic

/-!
Sources of verdicts that are put together from other sources, to any depth.

A tree of sources answers each question about a verdict with the weightiest answer of its leaves, so
the way in which the leaves are grouped does not show. As an assessment asks such questions only,
the assessment by a tree is the pointwise merge of the assessments by its leaves.
-/

namespace LivingDoc

/-! ## Questions about verdicts -/

/-- What a source can be asked for a verdict on. -/
inductive Question where
  | feature (feature : Feature)
  | scenario (scenario : Scenario)
  | outline (outline : Outline)
  | element (element : Element)
  deriving DecidableEq, Repr

namespace Source

/-- The verdict that a source answers a question with. -/
def answer (source : Source) : Question → Verdict
  | .feature feature => source.feature feature
  | .scenario scenario => source.scenario scenario
  | .outline outline => source.outline outline
  | .element element => source.element element

/-- Several sources answer with the weightiest of their answers, whatever the question. -/
theorem answer_merged (sources : List Source) (question : Question) :
    (merged sources).answer question =
      .overall (sources.map fun source => source.answer question) := by
  cases question with
  | feature => rfl
  | scenario => rfl
  | outline => rfl
  | element element => cases element <;> rfl

theorem answer_merged_pair (source other : Source) (question : Question) :
    (merged [source, other]).answer question =
      (source.answer question).merge (other.answer question) := by
  rw [answer_merged, List.map_cons, Verdict.overall_cons, List.map_singleton,
    Verdict.overall_singleton]

end Source

/-! ## Trees of sources -/

/-- Sources grouped to any depth. A group may be empty. -/
inductive SourceTree where
  | leaf (source : Source)
  | group (parts : List SourceTree)

namespace SourceTree

mutual

/-- A tree as one source. -/
def toSource : SourceTree → Source
  | leaf source => source
  | group parts => .merged (toSources parts)

/-- Each of several trees as a source. -/
def toSources : List SourceTree → List Source
  | [] => []
  | part :: parts => part.toSource :: toSources parts

end

mutual

/-- The sources at the leaves of a tree. -/
def leaves : SourceTree → List Source
  | leaf source => [source]
  | group parts => leavesAmong parts

/-- The sources at the leaves of several trees. -/
def leavesAmong : List SourceTree → List Source
  | [] => []
  | part :: parts => part.leaves ++ leavesAmong parts

end

mutual

/-- **A tree answers what its leaves answer together.** -/
theorem answer_toSource (question : Question) :
    (tree : SourceTree) → tree.toSource.answer question =
      .overall (tree.leaves.map fun leaf => leaf.answer question)
  | leaf source => (Verdict.overall_singleton _).symm
  | group parts => by
      rw [toSource, Source.answer_merged, leaves]
      exact overall_toSources question parts

theorem overall_toSources (question : Question) :
    (parts : List SourceTree) →
      Verdict.overall ((toSources parts).map fun source => source.answer question) =
        .overall ((leavesAmong parts).map fun leaf => leaf.answer question)
  | [] => rfl
  | part :: parts => by
      rw [toSources, leavesAmong, List.map_cons, List.map_append, Verdict.overall_cons,
        Verdict.overall_append, answer_toSource question part, overall_toSources question parts]

end

/-- A tree with more leaves never answers with a lighter verdict. -/
theorem rank_answer_mono {tree other : SourceTree} (subset : tree.leaves ⊆ other.leaves)
    (question : Question) :
    (tree.toSource.answer question).rank ≤ (other.toSource.answer question).rank := by
  rw [answer_toSource, answer_toSource]
  exact Verdict.rank_overall_mono (List.map_subset _ subset)

/-! ## Other groupings -/

/-- `Regrouped tree other`: the two trees have the same sources, in another order, more or less
often, or in other groups. An empty group may be added or left out, as `flattened` with no inner
part shows. -/
inductive Regrouped : SourceTree → SourceTree → Prop
  | refl (tree : SourceTree) : Regrouped tree tree
  | symm {tree other : SourceTree} : Regrouped tree other → Regrouped other tree
  | trans {tree middle other : SourceTree} :
    Regrouped tree middle → Regrouped middle other → Regrouped tree other
  | reordered {parts parts' : List SourceTree} :
    parts.Perm parts' → Regrouped (group parts) (group parts')
  | repeated (part : SourceTree) (parts : List SourceTree) :
    Regrouped (group (part :: parts)) (group (part :: part :: parts))
  | flattened (inner parts : List SourceTree) :
    Regrouped (group (group inner :: parts)) (group (inner ++ parts))
  | alone (tree : SourceTree) : Regrouped (group [tree]) tree
  | inside {part part' : SourceTree} (parts : List SourceTree) :
    Regrouped part part' → Regrouped (group (part :: parts)) (group (part' :: parts))

theorem mem_leavesAmong {source : Source} {parts : List SourceTree} :
    source ∈ leavesAmong parts ↔ ∃ part ∈ parts, source ∈ part.leaves := by
  induction parts with
  | nil => simp [leavesAmong]
  | cons part parts ih => simp [leavesAmong, ih]

/-- The sources of a tree are the same in any other grouping. -/
theorem Regrouped.mem_leaves_iff {tree other : SourceTree} (regrouped : tree.Regrouped other)
    (source : Source) : source ∈ tree.leaves ↔ source ∈ other.leaves := by
  induction regrouped with
  | refl => exact Iff.rfl
  | symm _ ih => exact ih.symm
  | trans _ _ first second => exact first.trans second
  | reordered perm => simp only [leaves, mem_leavesAmong, perm.mem_iff]
  | repeated part parts => simp [leaves, mem_leavesAmong]
  | flattened inner parts => simp [leaves, mem_leavesAmong, or_and_right, exists_or]
  | alone tree => simp [leaves, mem_leavesAmong]
  | inside parts _ ih => simp [leaves, mem_leavesAmong, ih]

theorem Regrouped.answer_eq {tree other : SourceTree} (regrouped : tree.Regrouped other)
    (question : Question) : tree.toSource.answer question = other.toSource.answer question := by
  rw [answer_toSource, answer_toSource]
  refine Verdict.overall_congr fun verdict => ?_
  simp only [List.mem_map, regrouped.mem_leaves_iff]

end SourceTree

/-! ## Assessments by several sources -/

namespace Assessment

/-- Two assessments of one feature as one: the verdicts are merged pointwise. -/
def merge (assessment other : Assessment) : Assessment where
  feature := assessment.feature
  verdict := assessment.verdict.merge other.verdict
  elements := assessment.elements.zipWith
    (fun row row' => { row with verdict := row.verdict.merge row'.verdict }) other.elements

/-- Any number of assessments of a feature as one, starting with the one by no source at all. -/
def overall (feature : Feature) (assessments : List Assessment) : Assessment :=
  assessments.foldl merge (ofFeature feature (.merged []))

/-- An assessment depends on the answers of the source only. -/
theorem ofFeature_congr {source other : Source}
    (same : ∀ question, source.answer question = other.answer question) (feature : Feature) :
    ofFeature feature source = ofFeature feature other := by
  have whole : source.feature feature = other.feature feature := same (.feature feature)
  have rows : ∀ element, source.element element = other.element element :=
    fun element => same (.element element)
  unfold ofFeature
  simp only [whole, rows]

theorem merge_ofFeature (feature : Feature) (source other : Source) :
    (ofFeature feature source).merge (ofFeature feature other) =
      ofFeature feature (.merged [source, other]) := by
  have whole := Source.answer_merged_pair source other (.feature feature)
  have rows := fun element => Source.answer_merged_pair source other (.element element)
  dsimp only [Source.answer] at whole rows
  unfold merge ofFeature
  simp only [List.zipWith_map_left, List.zipWith_map_right, List.zipWith_self, whole, rows]

theorem foldl_merge_ofFeature (feature : Feature) (first : Source) (sources : List Source) :
    (sources.map (ofFeature feature)).foldl merge (ofFeature feature first) =
      ofFeature feature (.merged (first :: sources)) := by
  induction sources generalizing first with
  | nil =>
      refine ofFeature_congr (fun question => ?_) feature
      rw [Source.answer_merged, List.map_singleton, Verdict.overall_singleton]
  | cons source sources ih =>
      rw [List.map_cons, List.foldl_cons, merge_ofFeature, ih]
      refine ofFeature_congr (fun question => ?_) feature
      rw [Source.answer_merged, List.map_cons, Verdict.overall_cons, Source.answer_merged,
        ← Verdict.overall_append, Source.answer_merged]
      rfl

/-- The assessment by a tree of sources is that by its leaves, merged. -/
theorem ofFeature_toSource (feature : Feature) (tree : SourceTree) :
    ofFeature feature tree.toSource = overall feature (tree.leaves.map (ofFeature feature)) := by
  rw [overall, foldl_merge_ofFeature]
  refine ofFeature_congr (fun question => ?_) feature
  rw [tree.answer_toSource, Source.answer_merged, List.map_cons, Verdict.overall_cons,
    Source.answer_merged]
  exact (Verdict.inconclusive_merge _).symm

/-- The questions that an assessment of a feature is made of. -/
def questions (feature : Feature) : List Question :=
  .feature feature :: feature.elements.map .element

/-- A failure shows in an assessment exactly if it is the answer to one of its questions. -/
theorem anyFailed_ofFeature_iff {feature : Feature} {source : Source} :
    (ofFeature feature source).anyFailed = true ↔
      ∃ question ∈ questions feature, source.answer question = .failed := by
  simp only [questions, List.mem_cons, List.mem_map, exists_eq_or_imp, exists_exists_and_eq_and]
  simp [anyFailed, ofFeature, Source.answer]

/-- A tree of sources shows a failure exactly if one of its leaves does. -/
theorem anyFailed_toSource_iff {feature : Feature} {tree : SourceTree} :
    (ofFeature feature tree.toSource).anyFailed = true ↔
      ∃ leaf ∈ tree.leaves, (ofFeature feature leaf).anyFailed = true := by
  simp only [anyFailed_ofFeature_iff, tree.answer_toSource, Verdict.overall_eq_failed_iff,
    List.mem_map]
  constructor
  · intro h
    obtain ⟨question, asked, leaf, inTree, failed⟩ := h
    exact ⟨leaf, inTree, question, asked, failed⟩
  · intro h
    obtain ⟨leaf, inTree, question, asked, failed⟩ := h
    exact ⟨question, asked, leaf, inTree, failed⟩

end Assessment

namespace SourceTree

/-- **Putting sources together is a homomorphism, and blind to grouping.** A tree answers every
question with the merged answers of its leaves. So no other grouping of the same sources changes a
verdict, and more sources never lower one. An assessment by the tree is the pointwise merge of those
by its leaves, and shows a failure exactly if one of them does. -/
theorem merges_leaves (tree : SourceTree) :
    (∀ question, tree.toSource.answer question =
      .overall (tree.leaves.map fun leaf => leaf.answer question)) ∧
    (∀ other, tree.Regrouped other → ∀ question,
      tree.toSource.answer question = other.toSource.answer question) ∧
    (∀ other : SourceTree, tree.leaves ⊆ other.leaves → ∀ question,
      (tree.toSource.answer question).rank ≤ (other.toSource.answer question).rank) ∧
    ∀ feature,
      Assessment.ofFeature feature tree.toSource =
        .overall feature (tree.leaves.map (Assessment.ofFeature feature)) ∧
      ((Assessment.ofFeature feature tree.toSource).anyFailed = true ↔
        ∃ leaf ∈ tree.leaves, (Assessment.ofFeature feature leaf).anyFailed = true) :=
  ⟨fun question => tree.answer_toSource question, fun _ regrouped => regrouped.answer_eq,
    fun _ subset => rank_answer_mono subset, fun feature =>
      ⟨Assessment.ofFeature_toSource feature tree, Assessment.anyFailed_toSource_iff⟩⟩

/-- A source that knows of a failure, next to an empty group and to a group that repeats another
source: without the group and the repetition the answers are the same. -/
theorem merges_leaves_nested :
    let silent : Source := .merged []
    let failing : Source := ⟨fun _ => .passed, fun _ => .failed, fun _ => .passed,
      fun _ _ => .error Source.noRows, false⟩
    let tree := group [leaf failing, group [], group [leaf silent, leaf silent]]
    let flat := group [leaf failing, leaf silent]
    let scenario : Scenario := ⟨"s", "", [], [], "f"⟩
    let feature : Feature := ⟨"f", "", [], [.scenario scenario], none⟩
    tree.Regrouped flat ∧ flat.toSource.answer (.scenario scenario) = .failed ∧
      tree.toSource.answer (.scenario scenario) = flat.toSource.answer (.scenario scenario) ∧
      (Assessment.ofFeature feature tree.toSource).anyFailed = true := by
  intro silent failing tree flat scenario feature
  have noEmpty : Regrouped tree (group [leaf failing, group [leaf silent, leaf silent]]) :=
    (Regrouped.reordered (.swap _ _ _)).trans (.flattened [] _)
  have oneSilent : Regrouped (group [leaf failing, group [leaf silent, leaf silent]]) flat :=
    (Regrouped.reordered (.swap _ _ _)).trans
      ((Regrouped.inside _ ((Regrouped.repeated _ _).symm.trans (.alone _))).trans
        (.reordered (.swap _ _ _)))
  have regrouped := noEmpty.trans oneSilent
  obtain ⟨_, same, _, assessed⟩ := merges_leaves tree
  refine ⟨regrouped, rfl, same flat regrouped _, (assessed feature).2.mpr ⟨failing, ?_, rfl⟩⟩
  exact List.mem_cons_self

end SourceTree
end LivingDoc
