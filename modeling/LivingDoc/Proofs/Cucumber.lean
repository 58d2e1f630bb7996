import LivingDoc.Cucumber
import LivingDoc.Proofs.Verdict

/-!
The verdict on an element of a Cucumber report, from the verdicts on its steps.

The outcome of an element is a word of its own, which is read again wherever the element is found.
It is no merge of the steps: an element passes only if all of its steps do.
-/

namespace LivingDoc.Cucumber.Element

/-- The verdict that the recorded outcome of an element stands for. -/
def verdict (element : Element) : Verdict :=
  .ofOutcome element.outcome

variable {element : Element}

/-- An element fails exactly if one of its steps does. -/
theorem verdict_eq_failed_iff :
    element.verdict = .failed ↔ ∃ step ∈ element.steps, step.verdict = .failed := by
  have failure : (element.steps.map Step.verdict).contains .failed = true ↔
      ∃ step ∈ element.steps, step.verdict = .failed := by
    rw [List.contains_iff_mem, List.mem_map]
  unfold verdict outcome
  dsimp only
  split
  · next found => exact ⟨fun _ => failure.mp found, fun _ => Verdict.ofOutcome_name .failed⟩
  · next absent =>
    refine ⟨fun h => ?_, fun found => absurd (failure.mpr found) absent⟩
    split at h
    · rw [Verdict.ofOutcome_name] at h
      cases h
    · cases h

/-- An element passes exactly if it has steps and all of them pass. -/
theorem verdict_eq_passed_iff :
    element.verdict = .passed ↔
      element.steps ≠ [] ∧ ∀ step ∈ element.steps, step.verdict = .passed := by
  have success : (element.steps.map Step.verdict ≠ [] &&
        (element.steps.map Step.verdict).all (· == .passed)) = true ↔
      element.steps ≠ [] ∧ ∀ step ∈ element.steps, step.verdict = .passed := by
    simp
  unfold verdict outcome
  dsimp only
  split
  · next found =>
    rw [List.contains_iff_mem, List.mem_map] at found
    obtain ⟨step, member, failed⟩ := found
    refine ⟨fun h => ?_, fun h => ?_⟩
    · rw [Verdict.ofOutcome_name] at h
      cases h
    · have passed := h.2 step member
      rw [failed] at passed
      cases passed
  · split
    · next all => exact ⟨fun _ => success.mp all, fun _ => Verdict.ofOutcome_name .passed⟩
    · next absent => exact ⟨fun h => (by cases h), fun h => absurd (success.mpr h) absent⟩

end LivingDoc.Cucumber.Element
