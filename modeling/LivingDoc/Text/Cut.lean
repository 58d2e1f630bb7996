/-!
Cutting a text at the first place where a marker stands in it, and the lengths of what is left of a
text. Readers that go on with what is left end because of these.
-/

namespace LivingDoc.Text

/-- A text is no longer without the characters of a class in front. -/
theorem length_dropWhile_le (p : Char → Bool) (text : List Char) :
    (text.dropWhile p).length ≤ text.length :=
  (List.dropWhile_sublist p).length_le

/-- What stands before and after the first occurrence of a marker, if it occurs. -/
def cut? (marker : List Char) : List Char → Option (List Char × List Char)
  | [] => if marker.isEmpty then some ([], []) else none
  | c :: rest =>
    if marker.isPrefixOf (c :: rest) then some ([], (c :: rest).drop marker.length)
    else (cut? marker rest).map fun parts => (c :: parts.1, parts.2)

/-- What stands after a marker is no longer than the whole. -/
theorem cut?_length {marker text before after : List Char}
    (h : cut? marker text = some (before, after)) : after.length ≤ text.length := by
  induction text generalizing before with
  | nil =>
    unfold cut? at h
    split at h <;> simp_all
  | cons c rest ih =>
    unfold cut? at h
    split at h
    · simp only [Option.some.injEq, Prod.mk.injEq] at h
      rw [← h.2, List.length_drop]
      omega
    · simp only [Option.map_eq_some_iff, Prod.mk.injEq, Prod.exists] at h
      obtain ⟨_, _, found, _, rfl⟩ := h
      have := ih found
      simp only [List.length_cons]
      omega

end LivingDoc.Text
