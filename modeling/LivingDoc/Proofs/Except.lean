import Mathlib.Data.List.Forall2

/-!
Computations that may end with a fault. Where one has a result, so have all its steps, and where it
has none, the fault is that of the first step without a result.
-/

namespace LivingDoc

variable {ε α β : Type}

/-- Two steps in a row have a result exactly if the first one has and the second one has with it. -/
theorem bind_eq_ok_iff {x : Except ε α} {f : α → Except ε β} {b : β} :
    (x >>= f) = .ok b ↔ ∃ a, x = .ok a ∧ f a = .ok b := by
  cases x with
  | error fault => exact ⟨fun h => (by cases h), fun ⟨a, h, _⟩ => (by cases h)⟩
  | ok a => exact ⟨fun h => ⟨a, rfl, h⟩, fun ⟨_, h, found⟩ => (by cases h; exact found)⟩

/-- Two steps in a row fail with the fault of the first one that fails. -/
theorem bind_eq_error_iff {x : Except ε α} {f : α → Except ε β} {fault : ε} :
    (x >>= f) = .error fault ↔ x = .error fault ∨ ∃ a, x = .ok a ∧ f a = .error fault := by
  cases x with
  | error cause =>
      refine ⟨fun h => .inl (congrArg Except.error (Except.error.inj h)), fun h => ?_⟩
      rcases h with h | ⟨_, h, _⟩
      · exact congrArg Except.error (Except.error.inj h)
      · cases h
  | ok a =>
      refine ⟨fun h => .inr ⟨a, rfl, h⟩, fun h => ?_⟩
      rcases h with h | ⟨_, h, failed⟩
      · cases h
      · cases h
        exact failed

theorem map_eq_ok_iff {x : Except ε α} {f : α → β} {b : β} :
    x.map f = .ok b ↔ ∃ a, x = .ok a ∧ f a = b := by
  cases x with
  | error fault => simp [Except.map]
  | ok a => simp [Except.map]

theorem map_eq_error_iff {x : Except ε α} {f : α → β} {fault : ε} :
    x.map f = .error fault ↔ x = .error fault := by
  cases x with
  | error => simp [Except.map]
  | ok => exact ⟨nofun, nofun⟩

/-- Each item of a list has its partner in a list that is related to it item by item. -/
theorem exists_partner {R : α → β → Prop} {items : List α} {results : List β}
    (related : List.Forall₂ R items results) {item : α} (member : item ∈ items) :
    ∃ result ∈ results, R item result := by
  induction related with
  | nil => cases member
  | @cons first result items results here _ ih =>
      rcases List.mem_cons.mp member with rfl | member
      · exact ⟨result, List.mem_cons_self, here⟩
      · obtain ⟨partner, found, there⟩ := ih member
        exact ⟨partner, List.mem_cons_of_mem _ found, there⟩

/-- Checking each item of a list finds no fault exactly if no check does. -/
theorem forM_eq_ok_iff {f : α → Except ε Unit} {items : List α} :
    items.forM f = .ok () ↔ ∀ item ∈ items, f item = .ok () := by
  induction items with
  | nil => exact ⟨fun _ _ member => (by cases member), fun _ => rfl⟩
  | cons item items ih =>
      change (f item >>= fun _ => items.forM f) = .ok () ↔ _
      rw [bind_eq_ok_iff, List.forall_mem_cons, ← ih]
      exact ⟨fun ⟨_, first, rest⟩ => ⟨first, rest⟩, fun ⟨first, rest⟩ => ⟨(), first, rest⟩⟩

/-- A check of all items of a list fails with the fault of one of them. -/
theorem exists_of_forM_eq_error {f : α → Except ε Unit} {items : List α} {fault : ε}
    (h : items.forM f = .error fault) : ∃ item ∈ items, f item = .error fault := by
  induction items with
  | nil => cases h
  | cons item items ih =>
      have both : (f item >>= fun _ => items.forM f) = .error fault := h
      rcases bind_eq_error_iff.mp both with failed | ⟨_, _, failed⟩
      · exact ⟨item, List.mem_cons_self, failed⟩
      · obtain ⟨other, member, failed⟩ := ih failed
        exact ⟨other, List.mem_cons_of_mem _ member, failed⟩

/-- A run over a list that fails does so at an item, and has come to it without a fault. -/
theorem exists_of_foldlM_eq_error {f : β → α → Except ε β} {items : List α} {start : β} {fault : ε}
    (h : items.foldlM f start = .error fault) :
    ∃ before failing after reached, items = before ++ failing :: after ∧
      before.foldlM f start = .ok reached ∧ f reached failing = .error fault := by
  induction items generalizing start with
  | nil => cases h
  | cons item items ih =>
      rw [List.foldlM_cons] at h
      rcases bind_eq_error_iff.mp h with failed | ⟨next, stepped, failed⟩
      · exact ⟨[], item, items, start, rfl, rfl, failed⟩
      · obtain ⟨before, failing, after, reached, rfl, ran, failed⟩ := ih failed
        refine ⟨item :: before, failing, after, reached, rfl, ?_, failed⟩
        rw [List.foldlM_cons]
        exact bind_eq_ok_iff.mpr ⟨next, stepped, ran⟩

/-- A list is mapped to the list of the results of its items. -/
theorem mapM_eq_ok_iff {f : α → Except ε β} {items : List α} {results : List β} :
    items.mapM f = .ok results ↔ List.Forall₂ (fun item result => f item = .ok result) items results
    := by
  induction items generalizing results with
  | nil =>
      rw [List.mapM_nil, List.forall₂_nil_left_iff]
      exact ⟨fun h => (Except.ok.inj h).symm, fun h => congrArg Except.ok h.symm⟩
  | cons item items ih =>
      rw [List.mapM_cons, List.forall₂_cons_left_iff, bind_eq_ok_iff]
      constructor
      · intro h
        rcases h with ⟨result, found, h⟩
        rcases bind_eq_ok_iff.mp h with ⟨rest, foundRest, h⟩
        exact ⟨result, rest, found, ih.mp foundRest, (Except.ok.inj h).symm⟩
      · intro h
        rcases h with ⟨result, rest, found, foundRest, rfl⟩
        exact ⟨result, found, bind_eq_ok_iff.mpr ⟨rest, ih.mpr foundRest, rfl⟩⟩

/-- The results of a list are those of its items. -/
theorem mem_mapM_iff {f : α → Except ε β} {items : List α} {results : List β}
    (h : items.mapM f = .ok results) {result : β} :
    result ∈ results ↔ ∃ item ∈ items, f item = .ok result := by
  have pairs := mapM_eq_ok_iff.mp h
  constructor
  · intro member
    have flipped : List.Forall₂ (fun result item => f item = .ok result) results items :=
      List.Forall₂.flip pairs
    exact exists_partner flipped member
  · rintro ⟨item, member, found⟩
    obtain ⟨partner, inResults, foundToo⟩ := exists_partner pairs member
    rw [found] at foundToo
    exact Except.ok.inj foundToo ▸ inResults

/-- What holds of every possible result of an item holds of all results of a list. -/
theorem forall_of_mapM {f : α → Except ε β} {P : β → Prop}
    (each : ∀ item result, f item = .ok result → P result) {items : List α} {results : List β}
    (h : items.mapM f = .ok results) : ∀ result ∈ results, P result := by
  intro result member
  obtain ⟨item, _, found⟩ := (mem_mapM_iff h).mp member
  exact each item result found

theorem mapM_congr {f g : α → Except ε β} {items : List α}
    (same : ∀ item ∈ items, f item = g item) : items.mapM f = items.mapM g := by
  induction items with
  | nil => rfl
  | cons item items ih =>
      rw [List.forall_mem_cons] at same
      rw [List.mapM_cons, List.mapM_cons, same.1, ih same.2]

/-! ## The first fault -/

/-- The fault of a step that has no result. -/
def faultOf {ε α : Type} : Except ε α → Option ε
  | .ok _ => none
  | .error fault => some fault

theorem faultOf_eq_some_iff {ε α : Type} {x : Except ε α} {fault : ε} :
    faultOf x = some fault ↔ x = .error fault := by
  cases x with
  | ok => exact ⟨fun h => (by cases h), fun h => (by cases h)⟩
  | error => exact ⟨fun h => congrArg Except.error (Option.some.inj h), fun h => congrArg faultOf h⟩

theorem faultOf_eq_none_iff {x : Except ε α} : faultOf x = none ↔ ∃ a, x = .ok a := by
  cases x with
  | ok a => exact ⟨fun _ => ⟨a, rfl⟩, fun _ => rfl⟩
  | error => exact ⟨fun h => (by cases h), fun ⟨_, h⟩ => (by cases h)⟩

/-- Of two steps in a row the first one is asked for its fault first. -/
theorem faultOf_bind {x : Except ε α} {f : α → Except ε β} {later : Option ε}
    (same : ∀ a, faultOf (f a) = later) : faultOf (x >>= f) = (faultOf x).or later := by
  cases x with
  | error fault => rfl
  | ok a => exact same a

/-- What is made of a result adds no fault. -/
theorem faultOf_bind_ok {x : Except ε α} {f : α → β} :
    faultOf (x >>= fun a => .ok (f a)) = faultOf x := by
  cases x <;> rfl

/-- A list fails with the first fault of its items. -/
theorem faultOf_mapM {f : α → Except ε β} {items : List α} :
    faultOf (items.mapM f) = items.findSome? fun item => faultOf (f item) := by
  induction items with
  | nil => rfl
  | cons item items ih =>
      rw [List.mapM_cons, List.findSome?_cons]
      cases found : f item with
      | error fault => rfl
      | ok result =>
          rw [← ih]
          exact faultOf_bind_ok

/-- A list has results if each of its items has one. -/
theorem exists_mapM_iff {ε α β : Type} {f : α → Except ε β} {items : List α} :
    (∃ results, items.mapM f = .ok results) ↔ ∀ item ∈ items, ∃ result, f item = .ok result := by
  rw [← faultOf_eq_none_iff, faultOf_mapM, List.findSome?_eq_none_iff]
  simp only [faultOf_eq_none_iff]

/-- A list fails at the first item that has no result. -/
theorem mapM_eq_error_iff {ε α β : Type} {f : α → Except ε β} {items : List α} {fault : ε} :
    items.mapM f = .error fault ↔
      ∃ before failing after, items = before ++ failing :: after ∧
        (∀ item ∈ before, ∃ result, f item = .ok result) ∧ f failing = .error fault := by
  rw [← faultOf_eq_some_iff, faultOf_mapM, List.findSome?_eq_some_iff]
  simp only [faultOf_eq_some_iff, faultOf_eq_none_iff, and_comm]

end LivingDoc
