import LivingDoc.Record

/-!
Merged verdicts by their rank.

The rank of several verdicts together is the least upper bound of their ranks, so it depends neither
on their order nor on how often each of them occurs, and it grows with every verdict that is added.
-/

namespace LivingDoc.Verdict

theorem rank_foldl_merge_le_iff {verdicts : List Verdict} {first : Verdict} {bound : Nat} :
    (verdicts.foldl merge first).rank ≤ bound ↔
      first.rank ≤ bound ∧ ∀ verdict ∈ verdicts, verdict.rank ≤ bound := by
  induction verdicts generalizing first with
  | nil => simp
  | cons verdict verdicts ih =>
      rw [List.foldl_cons, ih, rank_merge, Nat.max_le, List.forall_mem_cons, and_assoc]

/-- The rank of several verdicts together is their least upper bound. -/
theorem rank_overall_le_iff {verdicts : List Verdict} {bound : Nat} :
    (overall verdicts).rank ≤ bound ↔ ∀ verdict ∈ verdicts, verdict.rank ≤ bound := by
  unfold overall
  rw [rank_foldl_merge_le_iff]
  exact and_iff_right (Nat.zero_le bound)

theorem rank_le_rank_overall {verdict : Verdict} {verdicts : List Verdict}
    (member : verdict ∈ verdicts) : verdict.rank ≤ (overall verdicts).rank :=
  rank_overall_le_iff.mp (Nat.le_refl _) verdict member

/-- More verdicts weigh at least as much. -/
theorem rank_overall_mono {fewer more : List Verdict} (subset : fewer ⊆ more) :
    (overall fewer).rank ≤ (overall more).rank :=
  rank_overall_le_iff.mpr fun _ member => rank_le_rank_overall (subset member)

/-- The verdicts of two parts are merged to that of the whole. -/
theorem overall_append (verdicts verdicts' : List Verdict) :
    overall (verdicts ++ verdicts') = (overall verdicts).merge (overall verdicts') := by
  refine rank_inj.mp (Nat.le_antisymm ?_ ?_)
  · rw [rank_overall_le_iff, rank_merge]
    intro verdict member
    rcases List.mem_append.mp member with member | member
    · exact Nat.le_trans (rank_le_rank_overall member) (Nat.le_max_left _ _)
    · exact Nat.le_trans (rank_le_rank_overall member) (Nat.le_max_right _ _)
  · rw [rank_merge, Nat.max_le]
    exact ⟨rank_overall_mono (List.subset_append_left _ _),
      rank_overall_mono (List.subset_append_right _ _)⟩

/-- What is inconclusive adds nothing to another verdict. -/
theorem inconclusive_merge (verdict : Verdict) : inconclusive.merge verdict = verdict := by
  cases verdict <;> rfl

theorem merge_inconclusive (verdict : Verdict) : verdict.merge inconclusive = verdict := by
  cases verdict <;> rfl

theorem overall_singleton (verdict : Verdict) : overall [verdict] = verdict := by
  cases verdict <;> rfl

theorem overall_cons (verdict : Verdict) (verdicts : List Verdict) :
    overall (verdict :: verdicts) = verdict.merge (overall verdicts) := by
  rw [← List.singleton_append, overall_append, overall_singleton]

/-- What is inconclusive has no part in what several verdicts amount to. -/
theorem rank_overall_le_of_weighty {verdicts verdicts' : List Verdict}
    (weighty : ∀ verdict ∈ verdicts, verdict ≠ inconclusive → verdict ∈ verdicts') :
    (overall verdicts).rank ≤ (overall verdicts').rank := by
  refine rank_overall_le_iff.mpr fun verdict member => ?_
  by_cases light : verdict = inconclusive
  · rw [light]
    exact Nat.zero_le _
  · exact rank_le_rank_overall (weighty verdict member light)

theorem overall_congr_of_weighty {verdicts verdicts' : List Verdict}
    (same : ∀ verdict, verdict ≠ inconclusive → (verdict ∈ verdicts ↔ verdict ∈ verdicts')) :
    overall verdicts = overall verdicts' := by
  have forth := rank_overall_le_of_weighty fun verdict member weighty =>
    (same verdict weighty).mp member
  have back := rank_overall_le_of_weighty fun verdict member weighty =>
    (same verdict weighty).mpr member
  exact rank_inj.mp (Nat.le_antisymm forth back)

/-- Neither the order of verdicts nor how often each occurs matters when they are merged. -/
theorem overall_congr {verdicts verdicts' : List Verdict}
    (same : ∀ verdict, verdict ∈ verdicts ↔ verdict ∈ verdicts') :
    overall verdicts = overall verdicts' :=
  overall_congr_of_weighty fun verdict _ => same verdict

theorem overall_perm {verdicts verdicts' : List Verdict} (perm : verdicts.Perm verdicts') :
    overall verdicts = overall verdicts' :=
  overall_congr fun _ => perm.mem_iff

theorem one_lt_rank_iff {verdict : Verdict} : 1 < verdict.rank ↔ verdict = failed := by
  cases verdict <;> decide

/-- Several verdicts fail together if and only if one of them is a failure. -/
theorem overall_eq_failed_iff {verdicts : List Verdict} :
    overall verdicts = failed ↔ failed ∈ verdicts := by
  rw [← one_lt_rank_iff, ← Nat.not_le, rank_overall_le_iff, Classical.not_forall]
  constructor
  · intro h
    obtain ⟨verdict, h⟩ := h
    rcases Classical.not_imp.mp h with ⟨member, heavy⟩
    rw [Nat.not_le, one_lt_rank_iff] at heavy
    exact heavy ▸ member
  · intro member
    exact ⟨failed, fun light => absurd (light member) (by decide)⟩

/-- The name of a verdict, taken for the outcome in a report, stands for the verdict. -/
theorem ofOutcome_name (verdict : Verdict) : ofOutcome (some verdict.name) = verdict := by
  cases verdict <;> decide

theorem ofOutcome_eq_passed_iff {outcome : Option String} :
    ofOutcome outcome = passed ↔
      ∃ word, outcome = some word ∧ Text.sameIgnoringCase word "passed" = true := by
  cases outcome with
  | none => exact ⟨nofun, nofun⟩
  | some word =>
      unfold ofOutcome
      dsimp only
      split
      · next same => exact ⟨fun _ => ⟨word, rfl, same⟩, fun _ => rfl⟩
      · next other =>
        refine ⟨fun h => ?_, ?_⟩
        · split at h <;> cases h
        · rintro ⟨_, ⟨⟩, same⟩
          exact absurd same other

theorem ofOutcome_eq_failed_iff {outcome : Option String} :
    ofOutcome outcome = failed ↔
      ∃ word, outcome = some word ∧ Text.sameIgnoringCase word "failed" = true := by
  cases outcome with
  | none => exact ⟨nofun, nofun⟩
  | some word =>
      unfold ofOutcome
      dsimp only
      split
      · next passes =>
        refine ⟨nofun, ?_⟩
        rintro ⟨_, ⟨⟩, fails⟩
        have same : Text.foldCase "passed" = Text.foldCase "failed" :=
          (beq_iff_eq.mp passes).symm.trans (beq_iff_eq.mp fails)
        exact absurd same (by decide)
      · split
        · next same => exact ⟨fun _ => ⟨word, rfl, same⟩, fun _ => rfl⟩
        · next other =>
          refine ⟨nofun, ?_⟩
          rintro ⟨_, ⟨⟩, same⟩
          exact absurd same other

end LivingDoc.Verdict
