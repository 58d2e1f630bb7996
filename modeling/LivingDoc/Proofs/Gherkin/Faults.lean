import LivingDoc.Proofs.Gherkin.Interpretation

/-!
Where the meaning of a behaviour description fails.

A description has only two kinds of places where it can be at fault: tables, which must not be
empty, and the keywords of steps, which the language must know. All of them are looked at, those of
a background that does not count as well, in the order in which they are written, and the first one
at fault decides.
-/

namespace LivingDoc

/-- Whether a text spells some keyword of a language. -/
def Language.Knows (language : Language) (text : String) : Prop :=
  ∃ keyword, Text.trim text ∈ language.spellings keyword

theorem Keyword.mem_all (keyword : Keyword) : keyword ∈ all := by
  cases keyword <;> decide

theorem Language.keyword?_eq_none_iff {language : Language} {text : String} :
    language.keyword? text = none ↔ ¬ language.Knows text := by
  unfold keyword? Knows
  rw [List.find?_eq_none]
  constructor
  · rintro unknown ⟨keyword, spelled⟩
    exact unknown keyword keyword.mem_all (List.contains_iff_mem.mpr spelled)
  · intro unknown keyword _ spelled
    exact unknown ⟨keyword, List.contains_iff_mem.mp spelled⟩

namespace Gherkin

/-! ## Places -/

/-- A place of a description that can be at fault. -/
inductive Place where
  /-- A table of a step or of a block of examples, with all of its rows. -/
  | table (rows : List Row)
  /-- The keyword of a step, as it is written. -/
  | keyword (text : String)
  deriving DecidableEq, Repr

namespace Place

/-- Whether a place is at fault: a table without any row, or an unknown keyword. -/
def Offends (language : Language) : Place → Prop
  | table rows => rows = []
  | keyword text => ¬ language.Knows text

/-- The fault that a place at fault leads to. -/
def fault (language : Language) : Place → MappingFault
  | table _ => .emptyTable
  | keyword text => .unknownKeyword text language.tag

/-- The fault at a place, if it is at fault. -/
def fault? (language : Language) : Place → Option MappingFault
  | table rows => faultOf (interpretRows rows)
  | keyword text => faultOf (language.keyword text)

theorem fault?_eq_some_iff {language : Language} {place : Place} {fault : MappingFault} :
    place.fault? language = some fault ↔
      place.Offends language ∧ place.fault language = fault := by
  cases place with
  | table rows =>
      cases rows with
      | nil => exact ⟨fun h => ⟨rfl, Option.some.inj h⟩, fun h => congrArg some h.2⟩
      | cons row rows => exact ⟨fun h => (by cases h), fun h => (by cases h.1)⟩
  | keyword text =>
      change faultOf (language.keyword text) = _ ↔ ¬ language.Knows text ∧ _
      rw [← Language.keyword?_eq_none_iff, Language.keyword]
      cases language.keyword? text with
      | none => exact ⟨fun h => ⟨rfl, Option.some.inj h⟩, fun h => congrArg some h.2⟩
      | some keyword => exact ⟨fun h => (by cases h), fun h => (by cases h.1)⟩

theorem fault?_eq_none_iff {language : Language} {place : Place} :
    place.fault? language = none ↔ ¬ place.Offends language := by
  rw [Option.eq_none_iff_forall_ne_some]
  constructor
  · intro none offends
    exact none _ (fault?_eq_some_iff.mpr ⟨offends, rfl⟩)
  · intro sound fault found
    exact sound (fault?_eq_some_iff.mp found).1

end Place

/-- The places of an argument: the table, if it is one. -/
def Argument.places : Argument → List Place
  | docString _ => []
  | dataTable table => [.table table.rows]

/-- The places of a step: those of its argument, and then its keyword. -/
def Step.places (step : Step) : List Place :=
  step.argument.toList.flatMap Argument.places ++ [.keyword step.keyword]

/-- The places of a block of examples: the table of all of its rows. -/
def Examples.places (block : Examples) : List Place :=
  [.table block.rows]

/-- The steps of a child of a feature. -/
def Definition.steps : Definition → List Step
  | background child => child.steps
  | scenario child => child.steps
  | outline child => child.steps

/-- The blocks of examples of a child of a feature. Only outlines have some. -/
def Definition.examples : Definition → List Examples
  | outline child => child.examples
  | _ => []

/-- The places of a child of a feature: those of its steps, and then those of its examples. -/
def Definition.places (child : Definition) : List Place :=
  child.steps.flatMap Step.places ++ child.examples.flatMap Examples.places

/-- The places of a feature in the order of its children. -/
def Feature.places (feature : Feature) : List Place :=
  feature.children.flatMap Definition.places

/-! ## The first fault -/

/-- The first fault among places. -/
def firstFault? (language : Language) (places : List Place) : Option MappingFault :=
  places.findSome? (Place.fault? language)

variable {language : Language}

theorem firstFault?_append (places places' : List Place) :
    firstFault? language (places ++ places') =
      (firstFault? language places).or (firstFault? language places') := by
  unfold firstFault?
  exact List.findSome?_append

theorem firstFault?_singleton (place : Place) :
    firstFault? language [place] = place.fault? language := by
  unfold firstFault?
  exact List.findSome?_singleton

/-- The first fault in the parts of a whole is the first one that a part has. -/
theorem firstFault?_flatMap {α : Type} (places : α → List Place) (parts : List α) :
    firstFault? language (parts.flatMap places) =
      parts.findSome? fun part => firstFault? language (places part) := by
  induction parts with
  | nil => rfl
  | cons part parts ih =>
      rw [List.flatMap_cons, firstFault?_append, ih, List.findSome?_cons]
      cases firstFault? language (places part) <;> rfl

/-- A list of parts that each fail with the first fault of their places does so as a whole. -/
theorem faultOf_mapM_places {α β : Type} {interpret : α → Except MappingFault β}
    {places : α → List Place} (parts : List α)
    (each : ∀ part, faultOf (interpret part) = firstFault? language (places part)) :
    faultOf (parts.mapM interpret) = firstFault? language (parts.flatMap places) := by
  rw [faultOf_mapM, firstFault?_flatMap]
  simp only [each]

theorem Step.faultOf_given (step : Step) :
    faultOf step.given = firstFault? language (step.argument.toList.flatMap Argument.places) := by
  unfold given
  cases step.argument with
  | none => rfl
  | some argument =>
      rw [Option.toList_some, List.flatMap_singleton]
      cases argument with
      | docString text => rfl
      | dataTable table =>
          rw [Argument.places, firstFault?_singleton]
          exact faultOf_bind_ok

/-- The argument of a step is looked at before its keyword. -/
theorem Step.faultOf_interpret (step : Step) :
    faultOf (step.interpret language) = firstFault? language step.places := by
  have keyword : firstFault? language [.keyword step.keyword] =
      faultOf (language.keyword step.keyword) := firstFault?_singleton _
  rw [places, firstFault?_append, ← step.faultOf_given, keyword, step.interpret_eq]
  exact faultOf_bind fun given => faultOf_bind_ok

theorem Examples.faultOf_interpret (block : Examples) :
    faultOf block.interpret = firstFault? language block.places := by
  rw [Examples.places, firstFault?_singleton]
  exact faultOf_bind_ok

/-- The steps of a child are looked at before its examples. -/
theorem Definition.faultOf_part (featureName : String) (child : Definition) :
    faultOf (child.part language featureName) = firstFault? language child.places := by
  rw [places, firstFault?_append, ← faultOf_mapM_places child.steps Step.faultOf_interpret,
    ← faultOf_mapM_places child.examples Examples.faultOf_interpret]
  cases child with
  | background child =>
      have content : faultOf (child.interpret language featureName) =
          faultOf (child.steps.mapM (Step.interpret language)) := faultOf_bind_ok
      exact faultOf_bind_ok.trans (content.trans Option.or_none.symm)
  | scenario child =>
      have content : faultOf (child.interpret language featureName) =
          faultOf (child.steps.mapM (Step.interpret language)) := faultOf_bind_ok
      exact faultOf_bind_ok.trans (faultOf_bind_ok.trans (content.trans Option.or_none.symm))
  | outline child =>
      have content : faultOf (child.interpret language featureName) =
          (faultOf (child.steps.mapM (Step.interpret language))).or
            (faultOf (child.examples.mapM Examples.interpret)) :=
        faultOf_bind fun steps => faultOf_bind_ok
      exact faultOf_bind_ok.trans (faultOf_bind_ok.trans content)

theorem Feature.faultOf_interpret (feature : Feature) :
    faultOf (feature.interpret language) = firstFault? language feature.places := by
  have ofChild : ∀ child : Definition,
      faultOf (child.part language feature.name) = firstFault? language child.places :=
    Definition.faultOf_part feature.name
  have parts := faultOf_mapM_places feature.children ofChild
  exact faultOf_bind_ok.trans parts

/-! ## Whole descriptions -/

/-- Whether nothing in a feature is at fault, whichever of its children it stands in. -/
structure Feature.IsSound (language : Language) (feature : Feature) : Prop where
  /-- The language knows the keyword of every step. -/
  keywords : ∀ child ∈ feature.children, ∀ step ∈ child.steps, language.Knows step.keyword
  /-- The table of every step has a row. -/
  tables : ∀ child ∈ feature.children, ∀ step ∈ child.steps, ∀ table,
    step.argument = some (.dataTable table) → table.rows ≠ []
  /-- Every block of examples has a header or a row in its body. -/
  examples : ∀ child ∈ feature.children, ∀ block ∈ child.examples,
    block.header ≠ none ∨ block.body ≠ []

theorem Step.sound_iff {step : Step} :
    (∀ place ∈ step.places, ¬ place.Offends language) ↔
      (∀ table, step.argument = some (.dataTable table) → table.rows ≠ []) ∧
        language.Knows step.keyword := by
  unfold places
  rw [List.forall_mem_append, List.forall_mem_singleton]
  refine and_congr ?_ Classical.not_not
  cases step.argument with
  | none => simp
  | some argument => cases argument <;> simp [Argument.places, Place.Offends]

theorem Examples.sound_iff {block : Examples} :
    (∀ place ∈ block.places, ¬ place.Offends language) ↔
      block.header ≠ none ∨ block.body ≠ [] := by
  unfold places
  rw [List.forall_mem_singleton]
  change ¬ block.header.toList ++ block.body = [] ↔ _
  rw [List.append_eq_nil_iff, Option.toList_eq_nil_iff, not_and_or]

theorem Feature.isSound_iff {feature : Feature} :
    feature.IsSound language ↔ ∀ place ∈ feature.places, ¬ place.Offends language := by
  constructor
  · intro sound place member
    rcases List.mem_flatMap.mp member with ⟨child, inChildren, member⟩
    rcases List.mem_append.mp member with member | member
    · rcases List.mem_flatMap.mp member with ⟨step, inSteps, member⟩
      have tables := sound.tables child inChildren step inSteps
      have keyword := sound.keywords child inChildren step inSteps
      exact Step.sound_iff.mpr ⟨tables, keyword⟩ place member
    · rcases List.mem_flatMap.mp member with ⟨block, inExamples, member⟩
      exact Examples.sound_iff.mpr (sound.examples child inChildren block inExamples) place member
  · intro sound
    have steps : ∀ child ∈ feature.children, ∀ step ∈ child.steps,
        ∀ place ∈ step.places, ¬ place.Offends language := by
      intro child inChildren step inSteps place member
      have inChild : place ∈ child.places :=
        List.mem_append_left _ (List.mem_flatMap.mpr ⟨step, inSteps, member⟩)
      exact sound place (List.mem_flatMap.mpr ⟨child, inChildren, inChild⟩)
    have examples : ∀ child ∈ feature.children, ∀ block ∈ child.examples,
        ∀ place ∈ block.places, ¬ place.Offends language := by
      intro child inChildren block inExamples place member
      have inChild : place ∈ child.places :=
        List.mem_append_right _ (List.mem_flatMap.mpr ⟨block, inExamples, member⟩)
      exact sound place (List.mem_flatMap.mpr ⟨child, inChildren, inChild⟩)
    exact ⟨fun child inChildren step inSteps =>
        (Step.sound_iff.mp (steps child inChildren step inSteps)).2,
      fun child inChildren step inSteps =>
        (Step.sound_iff.mp (steps child inChildren step inSteps)).1,
      fun child inChildren block inExamples =>
        Examples.sound_iff.mp (examples child inChildren block inExamples)⟩

theorem Feature.exists_interpret_iff {feature : Feature} :
    (∃ described, feature.interpret language = .ok described) ↔ feature.IsSound language := by
  rw [← faultOf_eq_none_iff, faultOf_interpret, isSound_iff, firstFault?,
    List.findSome?_eq_none_iff]
  simp only [Place.fault?_eq_none_iff]

/-- A feature fails with the fault of its first place at fault. -/
theorem Feature.interpret_eq_error_iff {feature : Feature} {fault : MappingFault} :
    feature.interpret language = .error fault ↔
      ∃ before place after, feature.places = before ++ place :: after ∧
        (∀ earlier ∈ before, ¬ earlier.Offends language) ∧
        place.Offends language ∧ place.fault language = fault := by
  rw [← faultOf_eq_some_iff, faultOf_interpret, firstFault?, List.findSome?_eq_some_iff]
  simp only [Place.fault?_eq_some_iff, Place.fault?_eq_none_iff]
  refine exists_congr fun before => exists_congr fun place => exists_congr fun after => ?_
  exact and_congr_right fun _ => and_comm

/-- A keyword that is reported as unknown is so, and in the language of the description. -/
theorem Feature.keyword_of_error {feature : Feature} {text spoken : String}
    (h : feature.interpret language = .error (.unknownKeyword text spoken)) :
    language.keyword text = .error (.unknownKeyword text spoken) := by
  obtain ⟨_, place, _, _, _, offends, same⟩ := interpret_eq_error_iff.mp h
  cases place with
  | table rows => cases same
  | keyword written =>
      cases same
      rw [Language.keyword, Language.keyword?_eq_none_iff.mpr offends]

/-- **When a description has no meaning, and why.** It has one exactly if there is a feature and
nothing in it is at fault. Otherwise there is no feature, or the fault is that of the first place at
fault. No other fault arises. -/
theorem Document.interpret_iffs (language : Language) (document : Document) :
    ((∃ described, document.interpret language = .ok described) ↔
      ∃ feature, document.feature = some feature ∧ feature.IsSound language) ∧
    (∀ fault, document.interpret language = .error fault ↔
      (document.feature = none ∧ fault = .noFeature) ∨
      ∃ feature, document.feature = some feature ∧
        ∃ before place after, feature.places = before ++ place :: after ∧
          (∀ earlier ∈ before, ¬ earlier.Offends language) ∧
          place.Offends language ∧ place.fault language = fault) ∧
    (∀ kind, document.interpret language ≠ .error (.unsupportedNode kind)) ∧
    ∀ tag, document.interpret language ≠ .error (.unsupportedLanguage tag) := by
  have faults : ∀ fault, document.interpret language = .error fault ↔
      (document.feature = none ∧ fault = .noFeature) ∨
      ∃ feature, document.feature = some feature ∧
        ∃ before place after, feature.places = before ++ place :: after ∧
          (∀ earlier ∈ before, ¬ earlier.Offends language) ∧
          place.Offends language ∧ place.fault language = fault := by
    intro fault
    unfold interpret
    cases document.feature with
    | none =>
        refine ⟨fun h => .inl ⟨rfl, (Except.error.inj h).symm⟩, fun h => ?_⟩
        rcases h with ⟨_, rfl⟩ | ⟨_, absent, _⟩
        · rfl
        · cases absent
    | some feature =>
        refine ⟨fun h => .inr ⟨feature, rfl, Feature.interpret_eq_error_iff.mp h⟩, fun h => ?_⟩
        rcases h with ⟨absent, _⟩ | ⟨_, same, first⟩
        · cases absent
        · cases same
          exact Feature.interpret_eq_error_iff.mpr first
  refine ⟨?_, faults, fun kind h => ?_, fun tag h => ?_⟩
  · unfold interpret
    cases document.feature with
    | none => simp
    | some feature =>
        change (∃ described, feature.interpret language = .ok described) ↔ _
        rw [Feature.exists_interpret_iff]
        refine ⟨fun sound => ⟨feature, rfl, sound⟩, fun h => ?_⟩
        obtain ⟨_, same, sound⟩ := h
        cases same
        exact sound
  · rcases (faults _).mp h with ⟨_, absent⟩ | ⟨_, _, _, place, _, _, _, _, same⟩
    · cases absent
    · cases place <;> cases same
  · rcases (faults _).mp h with ⟨_, absent⟩ | ⟨_, _, _, place, _, _, _, _, same⟩
    · cases absent
    · cases place <;> cases same

/-- The empty table of a background that another one replaces comes before its own keyword, and
before all that follows. -/
example :
    let steps (argument : Option Argument) : List Step := [⟨"Und ", "", argument⟩]
    (Document.mk (some ⟨none, "", "", none, [], [
      .background ⟨"", "", none, steps (some (.dataTable ⟨[]⟩))⟩,
      .scenario ⟨"", "", none, [], steps none⟩,
      .background ⟨"", "", none, []⟩]⟩)).interpret .english = .error .emptyTable :=
  rfl

end Gherkin
end LivingDoc
