import LivingDoc.Proofs.Verdict
import Mathlib.Data.List.Forall2

/-!
Outcomes that are merged two by two, in any grouping.

The verdict on a tree of merges has the rank of the weightiest outcome at its leaves. So neither the
shape of the tree nor the order of its leaves shows in the verdict, nor how often an outcome occurs,
and what is inconclusive shows only where there is nothing else. Which outcomes are failures, and
which ones have passed, is told by their letters.
-/

namespace LivingDoc

/-! ## Words in letters of any case -/

namespace Text

/-- Whether a text is a word of small letters, with any of them as capitals. -/
def IsCasingOf (text word : String) : Prop :=
  List.Forall₂ (fun c letter => c = letter ∨ c = letter.toUpper) text.toList word.toList

theorem toNat_toLower (c : Char) :
    c.toLower.toNat = if 65 ≤ c.toNat ∧ c.toNat ≤ 90 then c.toNat + 32 else c.toNat := by
  have bounds : c.val ≥ 'A'.val ∧ c.val ≤ 'Z'.val ↔ 65 ≤ c.toNat ∧ c.toNat ≤ 90 := Iff.rfl
  unfold Char.toLower
  split
  · next capital =>
    rw [if_pos (bounds.mp capital)]
    have high : c.val.toNat ≤ 90 := (bounds.mp capital).2
    change (c.val + 32).toNat = c.val.toNat + 32
    rw [UInt32.toNat_add]
    change (c.val.toNat + 32) % 4294967296 = c.val.toNat + 32
    omega
  · next other => rw [if_neg fun capital => other (bounds.mpr capital)]

theorem toNat_toUpper {c : Char} (small : c.isLower = true) :
    97 ≤ c.toNat ∧ c.toNat ≤ 122 ∧ c.toUpper.toNat + 32 = c.toNat := by
  have bounds : c.isLower = true ↔ 97 ≤ c.toNat ∧ c.toNat ≤ 122 := by
    change (decide ('a'.val ≤ c.val) && decide (c.val ≤ 'z'.val)) = true ↔ _
    rw [Bool.and_eq_true, decide_eq_true_iff, decide_eq_true_iff]
    rfl
  obtain ⟨low, high⟩ := bounds.mp small
  refine ⟨low, high, ?_⟩
  unfold Char.toUpper
  rw [dif_pos ⟨low, high⟩]
  change 97 ≤ c.val.toNat at low
  change c.val.toNat ≤ 122 at high
  change (c.val + (65 - 97)).toNat + 32 = c.val.toNat
  -- The difference of the two alphabets is negative, so the sum wraps around.
  rw [UInt32.toNat_add]
  change (c.val.toNat + 4294967264) % 4294967296 + 32 = c.val.toNat
  omega

/-- A small letter is what the letter itself and its capital become, and nothing else. -/
theorem toLower_eq_iff {c letter : Char} (small : letter.isLower = true) :
    c.toLower = letter ↔ c = letter ∨ c = letter.toUpper := by
  have lower := toNat_toLower c
  obtain ⟨low, high, upper⟩ := toNat_toUpper small
  rw [← Char.toNat_inj, ← Char.toNat_inj, ← Char.toNat_inj]
  split at lower <;> omega

theorem map_toLower_eq_iff {text word : List Char} (small : ∀ c ∈ word, c.isLower = true) :
    text.map Char.toLower = word ↔
      List.Forall₂ (fun c letter => c = letter ∨ c = letter.toUpper) text word := by
  induction word generalizing text with
  | nil => rw [List.map_eq_nil_iff, List.forall₂_nil_right_iff]
  | cons letter word ih =>
      rw [List.forall_mem_cons] at small
      rw [List.map_eq_cons_iff, List.forall₂_cons_right_iff]
      refine exists_congr fun c => exists_congr fun rest => ?_
      rw [toLower_eq_iff small.1, ih small.2]
      tauto

/-- Two texts are compared letter by letter. -/
theorem sameIgnoringCase_iff {text word : String} (small : ∀ c ∈ word.toList, c.isLower = true) :
    sameIgnoringCase text word = true ↔ IsCasingOf text word := by
  have unchanged : foldCase word = word.toList :=
    (map_toLower_eq_iff small).mpr (List.forall₂_same.mpr fun _ _ => .inl rfl)
  unfold sameIgnoringCase
  rw [beq_iff_eq, unchanged]
  exact map_toLower_eq_iff small

end Text

/-! ## The verdict that outcomes call for -/

/-- Whether a word, in letters of any case, is among outcomes. -/
def Occurs (word : String) (outcomes : List (Option String)) : Prop :=
  ∃ text, some text ∈ outcomes ∧ Text.IsCasingOf text word

/-- A verdict says what outcomes amount to: there is a failure among them, or else a pass, or
neither of them. -/
structure Verdict.SumsUp (verdict : Verdict) (outcomes : List (Option String)) : Prop where
  failed : verdict = .failed ↔ Occurs "failed" outcomes
  passed : verdict = .passed ↔ ¬ Occurs "failed" outcomes ∧ Occurs "passed" outcomes
  inconclusive : verdict = .inconclusive ↔
    ¬ Occurs "failed" outcomes ∧ ¬ Occurs "passed" outcomes

namespace Verdict

/-- A verdict is among outcomes if the word that stands for it is. -/
theorem mem_map_ofOutcome_iff {verdict : Verdict} {word : String}
    {outcomes : List (Option String)} (small : ∀ c ∈ word.toList, c.isLower = true)
    (meant : ∀ outcome, ofOutcome outcome = verdict ↔
      ∃ text, outcome = some text ∧ Text.sameIgnoringCase text word = true) :
    verdict ∈ outcomes.map ofOutcome ↔ Occurs word outcomes := by
  simp only [List.mem_map, meant, Text.sameIgnoringCase_iff small]
  constructor
  · rintro ⟨_, member, text, rfl, casing⟩
    exact ⟨text, member, casing⟩
  · rintro ⟨text, member, casing⟩
    exact ⟨some text, member, text, rfl, casing⟩

theorem rank_le_zero_iff {verdict : Verdict} : verdict.rank ≤ 0 ↔ verdict = inconclusive := by
  cases verdict <;> decide

theorem eq_passed_iff {verdict : Verdict} :
    verdict = passed ↔ verdict ≠ failed ∧ verdict ≠ inconclusive := by
  cases verdict <;> decide

theorem overall_eq_inconclusive_iff {verdicts : List Verdict} :
    overall verdicts = inconclusive ↔ failed ∉ verdicts ∧ passed ∉ verdicts := by
  rw [← rank_le_zero_iff, rank_overall_le_iff]
  simp only [rank_le_zero_iff]
  constructor
  · intro light
    refine ⟨fun member => ?_, fun member => ?_⟩
    · cases light failed member
    · cases light passed member
  · rintro ⟨noFailure, noPass⟩ verdict member
    cases verdict with
    | failed => exact absurd member noFailure
    | passed => exact absurd member noPass
    | inconclusive => rfl

theorem sumsUp_ofOutcomes (outcomes : List (Option String)) :
    (ofOutcomes outcomes).SumsUp outcomes := by
  have failure : failed ∈ outcomes.map ofOutcome ↔ Occurs "failed" outcomes :=
    mem_map_ofOutcome_iff (List.all_eq_true.mp (by decide)) fun _ => ofOutcome_eq_failed_iff
  have pass : passed ∈ outcomes.map ofOutcome ↔ Occurs "passed" outcomes :=
    mem_map_ofOutcome_iff (List.all_eq_true.mp (by decide)) fun _ => ofOutcome_eq_passed_iff
  have ofFailure : ofOutcomes outcomes = failed ↔ Occurs "failed" outcomes :=
    overall_eq_failed_iff.trans failure
  have ofNothing : ofOutcomes outcomes = inconclusive ↔
      ¬ Occurs "failed" outcomes ∧ ¬ Occurs "passed" outcomes :=
    overall_eq_inconclusive_iff.trans (and_congr (not_congr failure) (not_congr pass))
  refine ⟨ofFailure, ?_, ofNothing⟩
  rw [eq_passed_iff, Ne, Ne, ofFailure, ofNothing, not_and, not_not]
  exact and_congr_right fun noFailure => forall_prop_of_true noFailure

end Verdict

/-! ## Trees -/

/-- A way to merge outcomes two by two. -/
inductive MergeTree where
  | leaf (outcome : Option String)
  | node (left right : MergeTree)
  deriving DecidableEq, Repr

namespace MergeTree

/-- The verdict at the root of a tree. -/
def verdict : MergeTree → Verdict
  | leaf outcome => .ofOutcome outcome
  | node left right => left.verdict.merge right.verdict

/-- The outcomes at the leaves of a tree, from left to right. -/
def leaves : MergeTree → List (Option String)
  | leaf outcome => [outcome]
  | node left right => left.leaves ++ right.leaves

/-- The shape of a tree does not show in its verdict. -/
theorem verdict_eq_ofOutcomes (tree : MergeTree) : tree.verdict = .ofOutcomes tree.leaves := by
  unfold Verdict.ofOutcomes
  induction tree with
  | leaf outcome => exact (Verdict.overall_singleton _).symm
  | node left right ihLeft ihRight =>
      rw [verdict, leaves, List.map_append, Verdict.overall_append, ihLeft, ihRight]

/-- **Any way of merging outcomes gives the same verdict.** A tree gives the verdict on its leaves in
any order. Two trees whose leaves stand for the same verdicts, up to what is inconclusive, give the
same one. And the verdict, of a tree as of a list that may be empty, is told by the words among the
outcomes. -/
theorem verdict_of_any_grouping :
    (∀ (tree : MergeTree) (outcomes : List (Option String)), outcomes.Perm tree.leaves →
      tree.verdict = .ofOutcomes outcomes) ∧
    (∀ tree other : MergeTree,
      (∀ verdict, verdict ≠ .inconclusive →
        (verdict ∈ tree.leaves.map Verdict.ofOutcome ↔
          verdict ∈ other.leaves.map Verdict.ofOutcome)) →
      tree.verdict = other.verdict) ∧
    (∀ tree : MergeTree, tree.verdict.SumsUp tree.leaves) ∧
    (∀ outcomes, (Verdict.ofOutcomes outcomes).SumsUp outcomes) ∧
    Verdict.ofOutcomes [] = .inconclusive := by
  refine ⟨fun tree outcomes perm => ?_, fun tree other same => ?_, fun tree => ?_,
    Verdict.sumsUp_ofOutcomes, rfl⟩
  · rw [tree.verdict_eq_ofOutcomes]
    exact Verdict.overall_perm (perm.map Verdict.ofOutcome).symm
  · rw [tree.verdict_eq_ofOutcomes, other.verdict_eq_ofOutcomes]
    exact Verdict.overall_congr_of_weighty same
  · rw [tree.verdict_eq_ofOutcomes]
    exact Verdict.sumsUp_ofOutcomes tree.leaves

/-- Two trees with a failure, a pass and something inconclusive in one of them, and the failure twice
in the other one. -/
theorem verdict_of_any_grouping_repeated :
    let tree := node (node (leaf (some "PASSED")) (leaf none)) (leaf (some "Failed"))
    let other := node (leaf (some "failed")) (node (leaf (some "passed")) (leaf (some "FAILED")))
    let outcomes := [some "Failed", none, some "PASSED"]
    outcomes.Perm tree.leaves ∧ tree.verdict = .ofOutcomes outcomes ∧
      (∀ verdict, verdict ≠ .inconclusive →
        (verdict ∈ tree.leaves.map Verdict.ofOutcome ↔
          verdict ∈ other.leaves.map Verdict.ofOutcome)) ∧
      tree.verdict = other.verdict ∧
      Occurs "failed" tree.leaves ∧ tree.verdict = .failed := by
  intro tree other outcomes
  obtain ⟨anyOrder, anyShape, summed, _⟩ := verdict_of_any_grouping
  have perm : outcomes.Perm tree.leaves := by decide
  have same : ∀ verdict, verdict ≠ .inconclusive →
      (verdict ∈ tree.leaves.map Verdict.ofOutcome ↔
        verdict ∈ other.leaves.map Verdict.ofOutcome) := by
    intro verdict heavy
    cases verdict with
    | failed => decide
    | passed => decide
    | inconclusive => exact absurd rfl heavy
  have casing : Text.IsCasingOf "Failed" "failed" :=
    (Text.sameIgnoringCase_iff (List.all_eq_true.mp (by decide))).mp (by decide)
  have occurs : Occurs "failed" tree.leaves := ⟨"Failed", by decide, casing⟩
  exact ⟨perm, anyOrder tree outcomes perm, same, anyShape tree other same, occurs,
    (summed tree).failed.mpr occurs⟩

end MergeTree
end LivingDoc
