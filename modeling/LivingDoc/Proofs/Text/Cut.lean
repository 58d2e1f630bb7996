import LivingDoc.Text.Cut

/-!
Where a text is cut: at the first place at which the marker stands, and at no other. A run of
characters of one class is cut off where the class ends.

Where two places of a marker cannot overlap, the first one is told without a search: the marker does
not stand in what comes before. This is so if the last character of the marker, or its first one,
occurs in it only once.
-/

namespace LivingDoc.Text

/-- A run of characters of a class ends where a character outside the class follows, or nothing. -/
theorem run_append {p : Char → Bool} {run rest : List Char} (ofClass : ∀ c ∈ run, p c = true)
    (stops : ∀ c ∈ rest.head?, p c = false) :
    (run ++ rest).takeWhile p = run ∧ (run ++ rest).dropWhile p = rest := by
  rw [List.takeWhile_append_of_pos ofClass, List.dropWhile_append_of_pos ofClass]
  cases rest with
  | nil => exact ⟨List.append_nil run, rfl⟩
  | cons c rest =>
      have outside : ¬ p c = true := by simp [stops c rfl]
      rw [List.takeWhile_cons_of_neg outside, List.dropWhile_cons_of_neg outside]
      exact ⟨List.append_nil run, rfl⟩

theorem cut?_eq_some_iff {marker text before after : List Char} (some_ : marker ≠ []) :
    cut? marker text = some (before, after) ↔
      text = before ++ (marker ++ after) ∧ ∀ n < before.length, ¬ marker <+: text.drop n := by
  induction text generalizing before with
  | nil =>
      unfold cut?
      rw [if_neg (by simpa using some_)]
      refine ⟨fun h => (by cases h), fun h => ?_⟩
      have empty := (List.append_eq_nil_iff.mp h.1.symm).2
      exact (some_ (List.append_eq_nil_iff.mp empty).1).elim
  | cons c rest ih =>
      unfold cut?
      by_cases here : marker <+: c :: rest
      · rw [if_pos (List.isPrefixOf_iff_prefix.mpr here)]
        obtain ⟨tail, split⟩ := here
        rw [← split, List.drop_left, Option.some.injEq, Prod.mk.injEq]
        constructor
        · intro h
          rcases h with ⟨rfl, rfl⟩
          exact ⟨rfl, fun n h => (Nat.not_lt_zero n h).elim⟩
        · intro h
          rcases h with ⟨whole, first⟩
          cases before with
          | nil => exact ⟨rfl, List.append_cancel_left whole⟩
          | cons d before => exact (first 0 (Nat.succ_pos _) ⟨tail, rfl⟩).elim
      · rw [if_neg (mt List.isPrefixOf_iff_prefix.mp here), Option.map_eq_some_iff]
        constructor
        · intro h
          rcases h with ⟨⟨before', after'⟩, found, same⟩
          cases same
          rcases ih.mp found with ⟨split, first⟩
          refine ⟨by rw [split]; rfl, fun n h => ?_⟩
          cases n with
          | zero => exact here
          | succ n => exact first n (Nat.lt_of_succ_lt_succ h)
        · intro h
          rcases h with ⟨whole, first⟩
          cases before with
          | nil => exact (here ⟨after, whole.symm⟩).elim
          | cons d before =>
              obtain ⟨rfl, split⟩ := List.cons.inj whole
              refine ⟨(before, after), ih.mpr ⟨split, fun n h => ?_⟩, rfl⟩
              exact first (n + 1) (Nat.succ_lt_succ h)

/-- A text is cut at every marker that stands in it, and at no other. -/
theorem cut?_eq_none_iff {marker text : List Char} (some_ : marker ≠ []) :
    cut? marker text = none ↔ ¬ marker <:+: text := by
  induction text with
  | nil =>
      rw [cut?, if_neg (by simpa using some_), List.infix_nil]
      exact ⟨fun _ => some_, fun _ => rfl⟩
  | cons c text ih =>
      rw [cut?, List.infix_cons_iff, not_or, ← ih]
      split
      · next here =>
        exact ⟨fun h => (by cases h),
          fun h => absurd (List.isPrefixOf_iff_prefix.mp here) h.1⟩
      · next notHere =>
        rw [Option.map_eq_none_iff]
        exact ⟨fun h => ⟨mt List.isPrefixOf_iff_prefix.mpr notHere, h⟩, fun h => h.2⟩

/-- A marker whose last character occurs in it only once cannot overlap with itself. A text is cut
at such a marker if it does not stand in what comes before, and only then. -/
theorem cut?_snoc_eq_some_iff {marker text before after : List Char} {last : Char}
    (inMarker : last ∉ marker) :
    cut? (marker ++ [last]) text = some (before, after) ↔
      text = before ++ (marker ++ last :: after) ∧ ¬ marker ++ [last] <:+: before := by
  rw [cut?_eq_some_iff (by simp), List.append_assoc, List.singleton_append]
  refine and_congr_right fun whole => ⟨fun first inFront => ?_, fun inFront n h found => ?_⟩
  · obtain ⟨front, back, split⟩ := inFront
    have early : front.length < before.length := by
      rw [← split]
      simp only [List.length_append, List.length_singleton]
      omega
    refine first front.length early ?_
    rw [whole, ← split, List.append_assoc, List.append_assoc, List.drop_left]
    exact List.prefix_append _ _
  · rw [whole, List.drop_append_of_le_length (Nat.le_of_lt h)] at found
    have some_ : 0 < (before.drop n).length := by
      rw [List.length_drop]
      omega
    rcases Nat.lt_or_ge marker.length (before.drop n).length with fits | overlaps
    · have shorter : (marker ++ [last]).length ≤ (before.drop n).length := by
        rw [List.length_append, List.length_singleton]
        exact fits
      have within := List.prefix_of_prefix_length_le found (List.prefix_append _ _) shorter
      exact inFront (within.isInfix.trans (List.drop_suffix n before).isInfix)
    · -- The marker would end before the only character it can end with.
      obtain ⟨tail, split⟩ := found
      have early := congrArg (fun text => text[marker.length]?) split
      have inside : marker.length - (before.drop n).length < marker.length := by omega
      simp only [List.append_assoc, List.getElem?_append_right (Nat.le_refl _), Nat.sub_self,
        List.getElem?_append_right overlaps, List.getElem?_append_left inside] at early
      exact inMarker (List.mem_of_getElem? early.symm)

/-- A marker whose first character occurs in it only once, and which does not stand in what comes
before, is found where it begins. -/
theorem cut?_of_first {marker before : List Char} {first : Char} (inMarker : first ∉ marker)
    (inFront : ¬ first :: marker <:+: before) (after : List Char) :
    cut? (first :: marker) (before ++ (first :: (marker ++ after))) = some (before, after) := by
  rw [cut?_eq_some_iff (by simp)]
  refine ⟨by simp, fun n h => ?_⟩
  rw [List.drop_append_of_le_length (Nat.le_of_lt h)]
  rintro found
  rcases Nat.lt_or_ge (before.drop n).length (first :: marker).length with overlaps | fits
  · -- The two places overlap, so the marker's first character is one of its others as well.
    obtain ⟨tail, split⟩ := found
    have later := congrArg (fun text => text[(before.drop n).length]?) split
    have positive : (before.drop n).length ≠ 0 := by
      rw [List.length_drop]
      omega
    obtain ⟨k, hk⟩ := Nat.exists_eq_succ_of_ne_zero positive
    rw [hk] at overlaps
    have within : k < marker.length := Nat.lt_of_succ_lt_succ overlaps
    simp only [List.getElem?_append_right, Nat.le_refl, Nat.sub_self, List.getElem?_cons_zero]
      at later
    rw [hk, List.cons_append, List.getElem?_cons_succ, List.getElem?_append_left within] at later
    exact inMarker (List.mem_of_getElem? later)
  · have whole := List.prefix_of_prefix_length_le found (List.prefix_append _ _) fits
    exact inFront (whole.isInfix.trans (List.drop_suffix n before).isInfix)

/-! ## Places of a marker -/

variable {marker text : List Char}

/-- `StandsAt marker text n`: a marker stands in a text, behind its first `n` characters. -/
def StandsAt (marker text : List Char) (n : Nat) : Prop :=
  marker <+: text.drop n

theorem standsAt_iff {n : Nat} (some_ : marker ≠ []) :
    StandsAt marker text n ↔
      ∃ before after, before.length = n ∧ text = before ++ (marker ++ after) := by
  constructor
  · rintro ⟨after, whole⟩
    have early : n ≤ text.length := by
      refine Nat.le_of_not_lt fun late => some_ ?_
      rw [List.drop_eq_nil_of_le (Nat.le_of_lt late)] at whole
      exact (List.append_eq_nil_iff.mp whole).1
    refine ⟨text.take n, after, List.length_take_of_le early, ?_⟩
    rw [whole, List.take_append_drop]
  · rintro ⟨before, after, rfl, rfl⟩
    rw [StandsAt, List.drop_left]
    exact List.prefix_append marker after

/-- A text in front moves the places of a marker by its length. -/
theorem standsAt_append {n : Nat} (front : List Char) :
    StandsAt marker (front ++ text) (front.length + n) ↔ StandsAt marker text n := by
  rw [StandsAt, ← List.drop_drop, List.drop_left, StandsAt]

theorem infix_iff_exists_standsAt (some_ : marker ≠ []) :
    marker <:+: text ↔ ∃ n, StandsAt marker text n := by
  constructor
  · rintro ⟨before, after, whole⟩
    exact ⟨before.length, (standsAt_iff some_).mpr
      ⟨before, after, rfl, by rw [← whole, List.append_assoc]⟩⟩
  · rintro ⟨n, inFront⟩
    exact inFront.isInfix.trans (List.drop_suffix n text).isInfix

end LivingDoc.Text
