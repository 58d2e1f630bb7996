import LivingDoc.Proofs.Gherkin.Interpretation

/-!
The way back from a feature to a description of it.

A feature holds all that counts in its description: written down again, it is that description in
normal form, and it means the same. The normal form fixes what has no influence, gives every absent
description as an empty one and every block of examples a header, and keeps of several backgrounds
the last one, in front of all other children.
-/

namespace LivingDoc

/-! ## Parts of a feature -/

/-- The name of the feature that an element belongs to. -/
def Element.featureName : Element → String
  | scenario element => element.featureName
  | outline element => element.featureName

/-- The steps of an element. -/
def Element.steps : Element → List Step
  | scenario element => element.steps
  | outline element => element.steps

/-- All steps of a feature, those of its background first. -/
def Feature.steps (feature : Feature) : List Step :=
  feature.background.toList.flatMap Scenario.steps ++ feature.elements.flatMap Element.steps

/-! ## Writing a feature down -/

/-- The rows of a table, the header first. -/
def Table.reify (table : Table) : List Gherkin.Row :=
  ⟨table.header⟩ :: table.rows.map Gherkin.Row.mk

/-- The argument that gives a text or a table to a step. -/
def reifyArgument : Option String → Option Table → Option Gherkin.Argument
  | some text, _ => some (.docString ⟨none, text⟩)
  | none, some table => some (.dataTable ⟨table.reify⟩)
  | none, none => none

/-- A step as it is written, with the keyword of its author. -/
def Step.reify (step : Step) : Gherkin.Step :=
  ⟨step.nativeKeyword, step.name, reifyArgument step.docString step.table⟩

/-- A block of examples as it is written. -/
def Example.reify (block : Example) : Gherkin.Examples :=
  ⟨"", block.name, some block.description, block.tags, some ⟨block.table.header⟩,
    block.table.rows.map Gherkin.Row.mk⟩

/-- A background as it is written. -/
def Scenario.reifyBackground (background : Scenario) : Gherkin.Background :=
  ⟨"", background.name, some background.description, background.steps.map Step.reify⟩

/-- A scenario as it is written. -/
def Scenario.reify (scenario : Scenario) : Gherkin.Scenario :=
  ⟨"", scenario.name, some scenario.description, scenario.tags, scenario.steps.map Step.reify⟩

/-- An outline as it is written. -/
def Outline.reify (outline : Outline) : Gherkin.Outline :=
  ⟨"", outline.name, some outline.description, outline.tags, outline.steps.map Step.reify,
    outline.examples.map Example.reify⟩

/-- An element as it is written. -/
def Element.reify : Element → Gherkin.Definition
  | scenario element => .scenario element.reify
  | outline element => .outline element.reify

/-- A feature as it is written, its background first. -/
def Feature.reify (feature : Feature) : Gherkin.Feature :=
  ⟨none, "", feature.name, some feature.description, feature.tags,
    feature.background.toList.map (fun background => .background background.reifyBackground)
      ++ feature.elements.map Element.reify⟩

namespace Gherkin

/-! ## Normal forms -/

/-- An argument without the type of its content. -/
def Argument.normal : Argument → Argument
  | docString text => .docString ⟨none, text.content⟩
  | dataTable table => .dataTable table

/-- A step with its argument in normal form. -/
def Step.normal (step : Step) : Step :=
  { step with argument := step.argument.map Argument.normal }

/-- A block of examples with a description, and with the first row of its body for a header if it
has none. -/
def Examples.normal (block : Examples) : Examples :=
  { block with
    keyword := ""
    description := some (block.description.getD "")
    header := block.header.or block.body.head?
    body := if block.header.isSome then block.body else block.body.tail }

/-- A background with a description and with its steps in normal form. -/
def Background.normal (background : Background) : Background :=
  { background with
    keyword := ""
    description := some (background.description.getD "")
    steps := background.steps.map Step.normal }

/-- A scenario with a description and with its steps in normal form. -/
def Scenario.normal (scenario : Scenario) : Scenario :=
  { scenario with
    keyword := ""
    description := some (scenario.description.getD "")
    steps := scenario.steps.map Step.normal }

/-- An outline with a description and with its steps and examples in normal form. -/
def Outline.normal (outline : Outline) : Outline :=
  { outline with
    keyword := ""
    description := some (outline.description.getD "")
    steps := outline.steps.map Step.normal
    examples := outline.examples.map Examples.normal }

/-- A child of a feature in normal form. -/
def Definition.normal : Definition → Definition
  | background child => .background child.normal
  | scenario child => .scenario child.normal
  | outline child => .outline child.normal

/-- Whether a child is a background. -/
def Definition.isBackground : Definition → Bool
  | background _ => true
  | _ => false

/-- The last member of a class, if there is one, and then all items outside the class. -/
def lastFirst {α : Type} (inClass : α → Bool) (items : List α) : List α :=
  (items.filter inClass).getLast?.toList ++ items.filter fun item => !inClass item

/-- A feature with a description, whose children are its last background, if it has one, and then
all others in their order, in normal form. -/
def Feature.normal (feature : Feature) : Feature :=
  { feature with
    language := none
    keyword := ""
    description := some (feature.description.getD "")
    children := lastFirst Definition.isBackground (feature.children.map Definition.normal) }

/-! ## Steps and examples -/

/-- `Restores interpret reify normal`: whatever has a meaning is, up to its normal form, what
`reify` makes of the meaning, and that means the same. -/
def Restores {α β : Type} (interpret : α → Except MappingFault β) (reify : β → α)
    (normal : α → α) : Prop :=
  ∀ item result, interpret item = .ok result →
    reify result = normal item ∧ interpret (reify result) = .ok result

theorem Restores.mapM {α β : Type} {interpret : α → Except MappingFault β} {reify : β → α}
    {normal : α → α} (restores : Restores interpret reify normal) :
    Restores (List.mapM interpret) (List.map reify) (List.map normal) := by
  intro items results interpreted
  rw [mapM_eq_ok_iff] at interpreted ⊢
  induction interpreted with
  | nil => exact ⟨rfl, .nil⟩
  | cons here _ ih =>
      obtain ⟨same, again⟩ := restores _ _ here
      refine ⟨?_, .cons again ih.2⟩
      rw [List.map_cons, List.map_cons, same, ih.1]

theorem map_mk_map_cells (rows : List Row) : (rows.map Row.cells).map Row.mk = rows := by
  rw [List.map_map]
  exact List.map_id rows

theorem restores_rows : Restores interpretRows Table.reify id := by
  intro rows table interpreted
  cases rows with
  | nil => cases interpreted
  | cons header rows =>
      cases interpreted
      have same : Table.reify ⟨header.cells, rows.map Row.cells⟩ = header :: rows :=
        congrArg (header :: ·) (map_mk_map_cells rows)
      rw [same]
      exact ⟨rfl, rfl⟩

variable {language : Language}

/-- What a step is given is a text or a table but not both, and its argument says no more. -/
theorem Step.given_eq_ok {step : Step} {given : Option String × Option Table}
    (h : step.given = .ok given) :
    (given.1 = none ∨ given.2 = none) ∧
      reifyArgument given.1 given.2 = step.argument.map Argument.normal ∧
      ∀ again : Step, again.argument = reifyArgument given.1 given.2 → again.given = .ok given := by
  unfold Step.given at h
  cases known : step.argument with
  | none =>
      rw [known] at h
      cases h
      refine ⟨.inl rfl, rfl, fun again same => ?_⟩
      rw [Step.given, same]
      rfl
  | some argument =>
      rw [known] at h
      cases argument with
      | docString text =>
          cases h
          refine ⟨.inr rfl, rfl, fun again same => ?_⟩
          rw [Step.given, same]
          rfl
      | dataTable rows =>
          obtain ⟨table, interpreted, h⟩ := bind_eq_ok_iff.mp h
          cases h
          obtain ⟨same, again⟩ := restores_rows _ _ interpreted
          have argument : reifyArgument none (some table) = some (.dataTable rows) :=
            congrArg (fun rows => some (Argument.dataTable ⟨rows⟩)) same
          refine ⟨.inl rfl, argument, fun other written => ?_⟩
          rw [Step.given, written]
          exact bind_eq_ok_iff.mpr ⟨table, again, rfl⟩

theorem Step.interpret_eq_ok_iff {step : Step} {described : LivingDoc.Step} :
    step.interpret language = .ok described ↔
      ∃ given keyword, step.given = .ok given ∧ language.keyword step.keyword = .ok keyword ∧
        ⟨step.keyword, keyword, step.text, given.1, given.2⟩ = described := by
  rw [step.interpret_eq]
  simp only [bind_eq_ok_iff, Except.ok.injEq]
  exact exists_congr fun given => ⟨fun ⟨found, keyword, rest⟩ => ⟨keyword, found, rest⟩,
    fun ⟨keyword, found, rest⟩ => ⟨found, keyword, rest⟩⟩

theorem Step.restores : Restores (Step.interpret language) LivingDoc.Step.reify normal := by
  intro step described interpreted
  obtain ⟨given, keyword, found, spelled, rfl⟩ := interpret_eq_ok_iff.mp interpreted
  obtain ⟨_, argument, again⟩ := given_eq_ok found
  refine ⟨congrArg (Step.mk step.keyword step.text) argument, ?_⟩
  exact interpret_eq_ok_iff.mpr ⟨given, keyword, again _ rfl, spelled, rfl⟩

/-- A block without a header is written with the first row of its body for one. -/
theorem Examples.restores : Restores interpret Example.reify normal := by
  intro block described interpreted
  obtain ⟨table, found, h⟩ := bind_eq_ok_iff.mp interpreted
  cases h
  obtain ⟨same, again⟩ := restores_rows _ _ found
  refine ⟨?_, bind_eq_ok_iff.mpr ⟨table, again, rfl⟩⟩
  unfold Example.reify normal
  unfold rows at same
  cases known : block.header with
  | some header =>
      rw [known] at same
      obtain ⟨rfl, body⟩ := List.cons.inj same
      rw [body]
      rfl
  | none =>
      rw [known] at same
      have body : ⟨table.header⟩ :: table.rows.map Row.mk = block.body := same
      rw [← body]
      rfl

/-! ## Children -/

theorem Background.restores {featureName : String} :
    Restores (Background.interpret language featureName) LivingDoc.Scenario.reifyBackground
      normal := by
  intro background described interpreted
  obtain ⟨steps, found, h⟩ := bind_eq_ok_iff.mp interpreted
  cases h
  obtain ⟨same, again⟩ := Step.restores.mapM _ _ found
  refine ⟨?_, bind_eq_ok_iff.mpr ⟨steps, again, rfl⟩⟩
  exact congrArg (Background.mk "" background.name (some (background.description.getD ""))) same

theorem Scenario.restores {featureName : String} :
    Restores (Scenario.interpret language featureName) LivingDoc.Scenario.reify normal := by
  intro scenario described interpreted
  obtain ⟨steps, found, h⟩ := bind_eq_ok_iff.mp interpreted
  cases h
  obtain ⟨same, again⟩ := Step.restores.mapM _ _ found
  refine ⟨?_, bind_eq_ok_iff.mpr ⟨steps, again, rfl⟩⟩
  exact congrArg
    (Scenario.mk "" scenario.name (some (scenario.description.getD "")) scenario.tags) same

theorem Outline.restores {featureName : String} :
    Restores (Outline.interpret language featureName) LivingDoc.Outline.reify normal := by
  intro outline described interpreted
  obtain ⟨steps, found, h⟩ := bind_eq_ok_iff.mp interpreted
  obtain ⟨examples, foundExamples, h⟩ := bind_eq_ok_iff.mp h
  cases h
  obtain ⟨same, again⟩ := Step.restores.mapM _ _ found
  obtain ⟨sameExamples, againExamples⟩ := Examples.restores.mapM _ _ foundExamples
  refine ⟨?_, bind_eq_ok_iff.mpr ⟨steps, again, bind_eq_ok_iff.mpr ⟨examples, againExamples, rfl⟩⟩⟩
  exact congrArg₂
    (Outline.mk "" outline.name (some (outline.description.getD "")) outline.tags) same sameExamples

theorem Definition.restores {featureName : String} :
    Restores (Definition.interpret language featureName) Element.reify normal := by
  intro child element interpreted
  cases child with
  | background child => cases interpreted
  | scenario child =>
      obtain ⟨scenario, found, h⟩ := bind_eq_ok_iff.mp interpreted
      cases h
      obtain ⟨same, again⟩ := Scenario.restores _ _ found
      exact ⟨congrArg Definition.scenario same, bind_eq_ok_iff.mpr ⟨scenario, again, rfl⟩⟩
  | outline child =>
      obtain ⟨outline, found, h⟩ := bind_eq_ok_iff.mp interpreted
      cases h
      obtain ⟨same, again⟩ := Outline.restores _ _ found
      exact ⟨congrArg Definition.outline same, bind_eq_ok_iff.mpr ⟨outline, again, rfl⟩⟩

/-- A background or an element as it is written. -/
def reifyPart : Part → Definition
  | .inl background => .background background.reifyBackground
  | .inr element => element.reify

theorem restores_part {featureName : String} :
    Restores (Definition.part language featureName) reifyPart Definition.normal := by
  have ofElement : ∀ (child : Definition) (element : Element),
      child.interpret language featureName = .ok element →
      element.reify = child.normal ∧
        element.reify.part language featureName = .ok (.inr element) := by
    intro child element interpreted
    obtain ⟨same, again⟩ := Definition.restores _ _ interpreted
    refine ⟨same, ?_⟩
    cases element <;> exact bind_eq_ok_iff.mpr ⟨_, again, rfl⟩
  intro child part interpreted
  cases child with
  | background child =>
      obtain ⟨background, found, h⟩ := bind_eq_ok_iff.mp interpreted
      cases h
      obtain ⟨same, again⟩ := Background.restores _ _ found
      exact ⟨congrArg Definition.background same, bind_eq_ok_iff.mpr ⟨background, again, rfl⟩⟩
  | scenario child =>
      obtain ⟨element, found, h⟩ := bind_eq_ok_iff.mp interpreted
      cases h
      exact ofElement _ element found
  | outline child =>
      obtain ⟨element, found, h⟩ := bind_eq_ok_iff.mp interpreted
      cases h
      exact ofElement _ element found

/-! ## The order of children -/

theorem mem_of_mem_lastFirst {α : Type} {inClass : α → Bool} {items : List α} {item : α}
    (member : item ∈ lastFirst inClass items) : item ∈ items := by
  rcases List.mem_append.mp member with last | other
  · rw [Option.mem_toList] at last
    exact List.mem_of_mem_filter (List.mem_of_getLast? last)
  · exact List.mem_of_mem_filter other

/-- A function that keeps the class of each item keeps what comes first. -/
theorem lastFirst_map {α β : Type} {inClass : α → Bool} {inClass' : β → Bool} {f : α → β}
    (same : ∀ item, inClass' (f item) = inClass item) (items : List α) :
    lastFirst inClass' (items.map f) = (lastFirst inClass items).map f := by
  unfold lastFirst
  rw [List.filter_map, List.filter_map, List.getLast?_map, List.map_append, Option.toList_map]
  simp only [Function.comp_def, same]

theorem isBackground_reifyPart (part : Part) : (reifyPart part).isBackground = part.isLeft := by
  rcases part with background | element
  · rfl
  · cases element <;> rfl

theorem filter_isLeft (parts : List Part) :
    parts.filter Sum.isLeft = (parts.filterMap Sum.getLeft?).map Sum.inl := by
  induction parts with
  | nil => rfl
  | cons part parts ih =>
      cases part with
      | inl background =>
          rw [List.filter_cons_of_pos rfl]
          exact congrArg (Sum.inl background :: ·) ih
      | inr element =>
          rw [List.filter_cons_of_neg Bool.false_ne_true, List.filterMap_cons_none rfl, ih]

theorem filter_not_isLeft (parts : List Part) :
    (parts.filter fun part => !part.isLeft) = (parts.filterMap Sum.getRight?).map Sum.inr := by
  induction parts with
  | nil => rfl
  | cons part parts ih =>
      cases part with
      | inl background =>
          rw [List.filter_cons_of_neg Bool.false_ne_true, List.filterMap_cons_none rfl, ih]
      | inr element =>
          rw [List.filter_cons_of_pos rfl]
          exact congrArg (Sum.inr element :: ·) ih

/-- The parts of a feature in the order in which they are written. -/
def partsOf (feature : LivingDoc.Feature) : List Part :=
  feature.background.toList.map Sum.inl ++ feature.elements.map Sum.inr

theorem children_reify (feature : LivingDoc.Feature) :
    feature.reify.children = (partsOf feature).map reifyPart := by
  unfold LivingDoc.Feature.reify partsOf
  rw [List.map_append, List.map_map, List.map_map]
  rfl

/-- The name of the feature that a part belongs to. -/
def featureNameOf : Part → String
  | .inl background => background.featureName
  | .inr element => element.featureName

/-- The steps of a part. -/
def stepsOf : Part → List LivingDoc.Step
  | .inl background => background.steps
  | .inr element => element.steps

/-- Every part names its feature, and each step of it is the meaning of a step as it is written. -/
theorem written_of_part {featureName : String} {child : Definition} {part : Part}
    (h : child.part language featureName = .ok part) :
    featureNameOf part = featureName ∧
      ∀ step ∈ stepsOf part, ∃ written : Step, written.interpret language = .ok step := by
  have ofSteps : ∀ (steps : List Step) (described : List LivingDoc.Step),
      steps.mapM (Step.interpret language) = .ok described →
      ∀ step ∈ described, ∃ written : Step, written.interpret language = .ok step :=
    fun steps described => forall_of_mapM fun written step interpreted => ⟨written, interpreted⟩
  cases child with
  | background child =>
      obtain ⟨background, found, same⟩ := bind_eq_ok_iff.mp h
      cases same
      obtain ⟨steps, foundSteps, same⟩ := bind_eq_ok_iff.mp found
      cases same
      exact ⟨rfl, ofSteps _ steps foundSteps⟩
  | scenario child =>
      obtain ⟨element, foundElement, same⟩ := bind_eq_ok_iff.mp h
      cases same
      obtain ⟨scenario, found, same⟩ := bind_eq_ok_iff.mp foundElement
      cases same
      obtain ⟨steps, foundSteps, same⟩ := bind_eq_ok_iff.mp found
      cases same
      exact ⟨rfl, ofSteps _ steps foundSteps⟩
  | outline child =>
      obtain ⟨element, foundElement, same⟩ := bind_eq_ok_iff.mp h
      cases same
      obtain ⟨outline, found, same⟩ := bind_eq_ok_iff.mp foundElement
      cases same
      obtain ⟨steps, foundSteps, rest⟩ := bind_eq_ok_iff.mp found
      obtain ⟨examples, _, same⟩ := bind_eq_ok_iff.mp rest
      cases same
      exact ⟨rfl, ofSteps _ steps foundSteps⟩

/-- Every part names its feature, and no step of it has both a text and a table. -/
theorem of_part_eq_ok {featureName : String} {child : Definition} {part : Part}
    (h : child.part language featureName = .ok part) :
    featureNameOf part = featureName ∧
      ∀ step ∈ stepsOf part, step.docString = none ∨ step.table = none := by
  obtain ⟨named, written⟩ := written_of_part h
  refine ⟨named, fun step member => ?_⟩
  obtain ⟨_, interpreted⟩ := written step member
  obtain ⟨given, _, known, _, rfl⟩ := Step.interpret_eq_ok_iff.mp interpreted
  exact (Step.given_eq_ok known).1

theorem elements_partsOf (feature : LivingDoc.Feature) :
    (partsOf feature).filterMap Sum.getRight? = feature.elements := by
  simp [partsOf, List.filterMap_map, Function.comp_def]

theorem background_partsOf (feature : LivingDoc.Feature) :
    ((partsOf feature).filterMap Sum.getLeft?).getLast? = feature.background := by
  have backgrounds : (partsOf feature).filterMap Sum.getLeft? = feature.background.toList := by
    simp [partsOf, List.filterMap_map, Function.comp_def]
  rw [backgrounds]
  cases feature.background <;> rfl

/-! ## Features -/

namespace Feature

variable {raw : Feature} {feature : LivingDoc.Feature}

/-- The parts of a feature are what its children describe, the last background first. -/
theorem exists_parts (h : raw.interpret language = .ok feature) :
    ∃ parts, raw.children.mapM (Definition.part language raw.name) = .ok parts ∧
      partsOf feature = lastFirst Sum.isLeft parts := by
  obtain ⟨parts, interpreted, h⟩ := bind_eq_ok_iff.mp h
  cases h
  refine ⟨parts, interpreted, ?_⟩
  unfold partsOf lastFirst
  rw [filter_isLeft, filter_not_isLeft, List.getLast?_map, Option.toList_map]

theorem reify_of_interpret (h : raw.interpret language = .ok feature) :
    feature.reify = raw.normal := by
  obtain ⟨parts, interpreted, order⟩ := exists_parts h
  obtain ⟨same, _⟩ := restores_part.mapM _ _ interpreted
  have children : feature.reify.children = raw.normal.children := by
    rw [children_reify, order, ← lastFirst_map isBackground_reifyPart, same]
    rfl
  obtain ⟨_, _, h⟩ := bind_eq_ok_iff.mp h
  cases h
  exact congrArg
    (Feature.mk none "" raw.name (some (raw.description.getD "")) raw.tags) children

/-- Each part of a feature is the meaning of what it is written as. -/
theorem part_reifyPart (h : raw.interpret language = .ok feature) {part : Part}
    (member : part ∈ partsOf feature) :
    (reifyPart part).part language raw.name = .ok part := by
  obtain ⟨parts, interpreted, order⟩ := exists_parts h
  obtain ⟨_, again⟩ := restores_part.mapM _ _ interpreted
  rw [mapM_eq_ok_iff, List.forall₂_map_left_iff, List.forall₂_same] at again
  rw [order] at member
  exact again part (mem_of_mem_lastFirst member)

theorem interpret_reify (h : raw.interpret language = .ok feature) :
    feature.reify.interpret language = .ok feature := by
  have children : feature.reify.children.mapM (Definition.part language raw.name) =
      .ok (partsOf feature) := by
    rw [children_reify, mapM_eq_ok_iff, List.forall₂_map_left_iff, List.forall₂_same]
    exact fun part member => part_reifyPart h member
  rw [← (interpret_eq_ok h).1] at children
  refine bind_eq_ok_iff.mpr ⟨partsOf feature, children, ?_⟩
  rw [elements_partsOf, background_partsOf]
  rfl

theorem steps_eq (feature : LivingDoc.Feature) :
    feature.steps = (partsOf feature).flatMap stepsOf := by
  unfold LivingDoc.Feature.steps partsOf
  rw [List.flatMap_append, List.flatMap_map, List.flatMap_map]
  rfl

/-- The keyword of each step is the one that its author's keyword spells. -/
theorem keyword_of_mem_steps (h : raw.interpret language = .ok feature) {step : LivingDoc.Step}
    (member : step ∈ feature.steps) : language.keyword step.nativeKeyword = .ok step.keyword := by
  rw [steps_eq] at member
  obtain ⟨part, inParts, member⟩ := List.mem_flatMap.mp member
  obtain ⟨written, interpreted⟩ := (written_of_part (part_reifyPart h inParts)).2 step member
  obtain ⟨_, _, _, spelled, rfl⟩ := Step.interpret_eq_ok_iff.mp interpreted
  exact spelled

/-- **A feature is its description, in normal form.** Written down again it is what was described,
and it means the same. Its background and elements name it, and no step has both a text and a
table. -/
theorem interpret_faithful (h : raw.interpret language = .ok feature) :
    feature.reify = raw.normal ∧
      feature.reify.interpret language = .ok feature ∧
      (∀ element ∈ feature.elements, element.featureName = raw.name) ∧
      (∀ background, feature.background = some background →
        background.featureName = raw.name) ∧
      ∀ step ∈ feature.steps, step.docString = none ∨ step.table = none := by
  refine ⟨reify_of_interpret h, interpret_reify h, fun element member => ?_,
    fun background known => ?_, fun step member => ?_⟩
  · have inParts : Sum.inr element ∈ partsOf feature :=
      List.mem_append_right _ (List.mem_map_of_mem member)
    exact (of_part_eq_ok (part_reifyPart h inParts)).1
  · have inParts : Sum.inl background ∈ partsOf feature :=
      List.mem_append_left _ (List.mem_map_of_mem (Option.mem_toList.mpr known))
    exact (of_part_eq_ok (part_reifyPart h inParts)).1
  · rw [steps_eq] at member
    rcases List.mem_flatMap.mp member with ⟨part, inParts, member⟩
    exact (of_part_eq_ok (part_reifyPart h inParts)).2 step member

/-- Of two backgrounds the second is kept, in front of the outline. The type of a text is lost and
the examples get a header; a star as keyword stays a star. -/
theorem interpret_faithful_backgrounds :
    let steps (keyword : String) (argument : Option Argument) : List Step :=
      [⟨keyword, "s", argument⟩]
    let raw : Feature := ⟨some "de", "Feature", "f", none, ["@a"], [
      .background ⟨"Background", "first", none, steps "Given " none⟩,
      .outline ⟨"Outline", "o", none, [], steps "* " (some (.docString ⟨some "xml", "t"⟩)),
        [⟨"Examples", "", none, [], none, [⟨["x"]⟩, ⟨["1"]⟩]⟩]⟩,
      .background ⟨"Background", "second", some "d",
        steps "When " (some (.dataTable ⟨[⟨["c"]⟩]⟩))⟩]⟩
    let feature : LivingDoc.Feature := ⟨"f", "", ["@a"],
      [.outline ⟨"o", "", [⟨"* ", .given, "s", some "t", none⟩], [],
        [⟨"", "", [], ⟨["x"], [["1"]]⟩⟩], "f"⟩],
      some ⟨"second", "d", [⟨"When ", .when, "s", none, some ⟨["c"], []⟩⟩], [], "f"⟩⟩
    raw.interpret .english = .ok feature ∧ feature.reify = raw.normal ∧
      feature.reify.interpret .english = .ok feature ∧
      feature.reify.children = [
        .background ⟨"", "second", some "d", steps "When " (some (.dataTable ⟨[⟨["c"]⟩]⟩))⟩,
        .outline ⟨"", "o", some "", [], steps "* " (some (.docString ⟨none, "t"⟩)),
          [⟨"", "", some "", [], some ⟨["x"]⟩, [⟨["1"]⟩]⟩]⟩] := by
  intro steps raw feature
  have interpreted : raw.interpret .english = .ok feature := by decide
  obtain ⟨same, again, _⟩ := interpret_faithful interpreted
  exact ⟨interpreted, same, again, rfl⟩

end Feature
end Gherkin
end LivingDoc
