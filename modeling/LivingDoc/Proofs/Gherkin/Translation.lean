import LivingDoc.Proofs.Gherkin.Reification

/-!
Descriptions of one feature in two languages.

The language of a description shows in its keywords only, and a keyword counts by what it stands for.
So two descriptions that differ in words of the same meaning fail together, for want of a row in a
table, or describe features that differ in the native keywords of steps and in nothing else.
-/

namespace LivingDoc

/-! ## Features without native keywords -/

/-- A step without the keyword of its author. -/
def Step.withoutNative (step : Step) : Step :=
  { step with nativeKeyword := "" }

/-- A scenario without the native keywords of its steps. -/
def Scenario.withoutNative (scenario : Scenario) : Scenario :=
  { scenario with steps := scenario.steps.map Step.withoutNative }

/-- An outline without the native keywords of its steps. -/
def Outline.withoutNative (outline : Outline) : Outline :=
  { outline with steps := outline.steps.map Step.withoutNative }

/-- An element without the native keywords of its steps. -/
def Element.withoutNative : Element → Element
  | scenario element => .scenario element.withoutNative
  | outline element => .outline element.withoutNative

/-- A feature without the native keywords of its steps. -/
def Feature.withoutNative (feature : Feature) : Feature :=
  { feature with
    elements := feature.elements.map Element.withoutNative
    background := feature.background.map Scenario.withoutNative }

namespace Gherkin

/-! ## Descriptions that translate each other -/

section Translates

variable (language language' : Language)

/-- Whether the keywords of two steps stand for the same in their languages, and the steps agree in
all else. -/
structure Step.Translates (step step' : Step) : Prop where
  keyword : ∃ keyword, language.keyword step.keyword = .ok keyword ∧
    language'.keyword step'.keyword = .ok keyword
  text : step.text = step'.text
  argument : step.argument = step'.argument

/-- Whether two backgrounds agree in all but keywords, and their steps translate each other. -/
structure Background.Translates (background background' : Background) : Prop where
  name : background.name = background'.name
  description : background.description = background'.description
  steps : List.Forall₂ (Step.Translates language language') background.steps background'.steps

/-- Whether two scenarios agree in all but keywords, and their steps translate each other. -/
structure Scenario.Translates (scenario scenario' : Scenario) : Prop where
  name : scenario.name = scenario'.name
  description : scenario.description = scenario'.description
  tags : scenario.tags = scenario'.tags
  steps : List.Forall₂ (Step.Translates language language') scenario.steps scenario'.steps

/-- Whether two blocks of examples agree in all but their keyword. -/
structure Examples.Translates (block block' : Examples) : Prop where
  name : block.name = block'.name
  description : block.description = block'.description
  tags : block.tags = block'.tags
  header : block.header = block'.header
  body : block.body = block'.body

/-- Whether two outlines agree in all but keywords, and their steps translate each other. -/
structure Outline.Translates (outline outline' : Outline) : Prop where
  name : outline.name = outline'.name
  description : outline.description = outline'.description
  tags : outline.tags = outline'.tags
  steps : List.Forall₂ (Step.Translates language language') outline.steps outline'.steps
  examples : List.Forall₂ Examples.Translates outline.examples outline'.examples

/-- Whether two children of a feature are of one kind and translate each other. -/
inductive Definition.Translates : Definition → Definition → Prop
  | background {child child' : Background} :
    child.Translates language language' child' →
    Definition.Translates (.background child) (.background child')
  | scenario {child child' : Scenario} :
    child.Translates language language' child' →
    Definition.Translates (.scenario child) (.scenario child')
  | outline {child child' : Outline} :
    child.Translates language language' child' →
    Definition.Translates (.outline child) (.outline child')

/-- Whether two features agree in all but keywords and the languages they name, and their children
translate each other. -/
structure Feature.Translates (feature feature' : Feature) : Prop where
  name : feature.name = feature'.name
  description : feature.description = feature'.description
  tags : feature.tags = feature'.tags
  children : List.Forall₂ (Definition.Translates language language') feature.children
    feature'.children

end Translates

/-! ## Meanings that look alike -/

/-- `Alike view x y`: there is a table without a row on both sides, or there are results on both
sides that look the same in a view. -/
inductive Alike {α β : Type} (view : α → β) :
    Except MappingFault α → Except MappingFault α → Prop
  | emptyTable : Alike view (.error .emptyTable) (.error .emptyTable)
  | described {a b : α} : view a = view b → Alike view (.ok a) (.ok b)

namespace Alike

variable {α β γ δ : Type} {view : α → γ} {view' : β → δ}

theorem bind {x y : Except MappingFault α} {f g : α → Except MappingFault β}
    (first : Alike view x y) (next : ∀ a b, view a = view b → Alike view' (f a) (g b)) :
    Alike view' (x >>= f) (y >>= g) := by
  cases first with
  | emptyTable => exact .emptyTable
  | described same => exact next _ _ same

/-- Items that correspond and have meanings that look alike make lists with such meanings. -/
theorem mapM {R : α → α → Prop} {f g : α → Except MappingFault β} {items items' : List α}
    (related : List.Forall₂ R items items')
    (each : ∀ item item', R item item' → Alike view' (f item) (g item')) :
    Alike (List.map view') (items.mapM f) (items'.mapM g) := by
  induction related with
  | nil => exact .described rfl
  | cons here _ ih =>
      rw [List.mapM_cons, List.mapM_cons]
      refine (each _ _ here).bind fun result result' same => ?_
      refine ih.bind fun results results' others => .described ?_
      rw [List.map_cons, List.map_cons, same, others]

end Alike

/-! ## Nodes -/

variable {language language' : Language}

theorem alike_rows (rows : List Row) : Alike id (interpretRows rows) (interpretRows rows) := by
  cases rows with
  | nil => exact .emptyTable
  | cons header rows => exact .described rfl

/-- What a step is given does not depend on any language. -/
theorem Step.alike_given (step : Step) : Alike id step.given step.given := by
  unfold Step.given
  cases step.argument with
  | none => exact .described rfl
  | some argument =>
      cases argument with
      | docString text => exact .described rfl
      | dataTable table =>
          exact (alike_rows table.rows).bind fun rows rows' same =>
            .described (congrArg (none, some ·) same)

theorem Step.Translates.alike {step step' : Step}
    (translates : step.Translates language language' step') :
    Alike LivingDoc.Step.withoutNative (step.interpret language) (step'.interpret language') := by
  obtain ⟨keyword, known, known'⟩ := translates.keyword
  have given : step'.given = step.given := by
    unfold Step.given
    rw [translates.argument]
  rw [step.interpret_eq, step'.interpret_eq, known, known', given, translates.text]
  refine step.alike_given.bind fun given given' same => .described ?_
  rw [id, id] at same
  subst same
  rfl

theorem Background.Translates.alike {background background' : Background}
    (translates : background.Translates language language' background') (featureName : String) :
    Alike LivingDoc.Scenario.withoutNative (background.interpret language featureName)
      (background'.interpret language' featureName) := by
  refine (Alike.mapM translates.steps fun _ _ step => step.alike).bind fun steps steps' same => ?_
  refine .described ?_
  unfold LivingDoc.Scenario.withoutNative
  rw [same, translates.name, translates.description]

theorem Scenario.Translates.alike {scenario scenario' : Scenario}
    (translates : scenario.Translates language language' scenario') (featureName : String) :
    Alike LivingDoc.Scenario.withoutNative (scenario.interpret language featureName)
      (scenario'.interpret language' featureName) := by
  refine (Alike.mapM translates.steps fun _ _ step => step.alike).bind fun steps steps' same => ?_
  refine .described ?_
  unfold LivingDoc.Scenario.withoutNative
  rw [same, translates.name, translates.description, translates.tags]

theorem Examples.Translates.alike {block block' : Examples} (translates : block.Translates block') :
    Alike id block.interpret block'.interpret := by
  have rows : block'.rows = block.rows := by
    unfold Examples.rows
    rw [translates.header, translates.body]
  unfold Examples.interpret
  rw [rows, translates.name, translates.description, translates.tags]
  refine (alike_rows block.rows).bind fun table table' same => .described ?_
  exact congrArg (LivingDoc.Example.mk block'.name (block'.description.getD "") block'.tags) same

theorem Outline.Translates.alike {outline outline' : Outline}
    (translates : outline.Translates language language' outline') (featureName : String) :
    Alike LivingDoc.Outline.withoutNative (outline.interpret language featureName)
      (outline'.interpret language' featureName) := by
  refine (Alike.mapM translates.steps fun _ _ step => step.alike).bind fun steps steps' same => ?_
  refine (Alike.mapM translates.examples fun _ _ block => block.alike).bind
    fun blocks blocks' sameBlocks => .described ?_
  rw [List.map_id, List.map_id] at sameBlocks
  unfold LivingDoc.Outline.withoutNative
  rw [same, sameBlocks, translates.name, translates.description, translates.tags]

/-- A part of a feature without the native keywords of its steps. -/
def partWithoutNative : Part → Part :=
  Sum.map LivingDoc.Scenario.withoutNative Element.withoutNative

theorem Definition.Translates.alike {child child' : Definition}
    (translates : child.Translates language language' child') (featureName : String) :
    Alike partWithoutNative (child.part language featureName)
      (child'.part language' featureName) := by
  cases translates with
  | background content =>
      exact (content.alike featureName).bind fun _ _ same => .described (congrArg Sum.inl same)
  | @scenario child child' content =>
      have element : Alike Element.withoutNative
          (Definition.interpret language featureName (.scenario child))
          (Definition.interpret language' featureName (.scenario child')) :=
        (content.alike featureName).bind fun scenario scenario' same =>
          .described (congrArg Element.scenario same)
      exact element.bind fun _ _ same => .described (congrArg Sum.inr same)
  | @outline child child' content =>
      have element : Alike Element.withoutNative
          (Definition.interpret language featureName (.outline child))
          (Definition.interpret language' featureName (.outline child')) :=
        (content.alike featureName).bind fun outline outline' same =>
          .described (congrArg Element.outline same)
      exact element.bind fun _ _ same => .described (congrArg Sum.inr same)

/-! ## Features -/

/-- The elements among parts, without native keywords. -/
theorem map_withoutNative_elements (parts : List Part) :
    (parts.filterMap Sum.getRight?).map Element.withoutNative =
      (parts.map partWithoutNative).filterMap Sum.getRight? := by
  rw [List.map_filterMap, List.filterMap_map]
  refine List.filterMap_congr fun part _ => ?_
  exact (Sum.getRight?_map _ _ part).symm

/-- The last background among parts, without native keywords. -/
theorem map_withoutNative_background (parts : List Part) :
    (parts.filterMap Sum.getLeft?).getLast?.map LivingDoc.Scenario.withoutNative =
      ((parts.map partWithoutNative).filterMap Sum.getLeft?).getLast? := by
  rw [← List.getLast?_map, List.map_filterMap, List.filterMap_map]
  refine congrArg List.getLast? (List.filterMap_congr fun part _ => ?_)
  exact (Sum.getLeft?_map _ _ part).symm

theorem Feature.Translates.alike {feature feature' : Feature}
    (translates : feature.Translates language language' feature') :
    Alike LivingDoc.Feature.withoutNative (feature.interpret language)
      (feature'.interpret language') := by
  unfold Feature.interpret
  rw [← translates.name, ← translates.description, ← translates.tags]
  refine (Alike.mapM translates.children fun _ _ child => child.alike feature.name).bind
    fun parts parts' same => .described ?_
  unfold LivingDoc.Feature.withoutNative
  simp only [map_withoutNative_elements, map_withoutNative_background, same]

/-- **Translating a description does not change what it describes.** Two descriptions whose keywords
stand for the same both lack the row of a table, or they describe features that are the same without
native keywords. -/
theorem Feature.interpret_translates {feature feature' : Feature}
    (translates : feature.Translates language language' feature') :
    (feature.interpret language = .error .emptyTable ∧
      feature'.interpret language' = .error .emptyTable) ∨
    ∃ described described', feature.interpret language = .ok described ∧
      feature'.interpret language' = .ok described' ∧
      described.withoutNative = described'.withoutNative := by
  have alike := translates.alike
  generalize feature.interpret language = x, feature'.interpret language' = y at alike ⊢
  cases alike with
  | emptyTable => exact .inl ⟨rfl, rfl⟩
  | described same => exact .inr ⟨_, _, rfl, rfl, same⟩

/-- An English description and its French translation, in which the star becomes a word. If the
table in the background has no row, both fail. -/
theorem Feature.interpret_translates_french :
    let raw (tag : Option String) (feature background outline examples given star : String)
        (rows : List Row) : Feature :=
      ⟨tag, feature, "f", none, ["@t"], [
        .background ⟨background, "", none, [⟨given, "a", some (.dataTable ⟨rows⟩)⟩]⟩,
        .outline ⟨outline, "o", none, [], [⟨star, "b", none⟩],
          [⟨examples, "", none, [], none, [⟨["x"]⟩]⟩]⟩]⟩
    let english := raw (some "en") "Feature" "Background" "Scenario Outline" "Examples" "Given " "* "
    let french := raw none "Fonctionnalité" "Contexte" "Plan du scénario" "Exemples" "Soit "
      "Etant donné "
    (∀ rows, (english rows).Translates .english .french (french rows)) ∧
      (english []).interpret .english = .error .emptyTable ∧
      (french []).interpret .french = .error .emptyTable ∧
      ∃ described described', (english [⟨["c"]⟩]).interpret .english = .ok described ∧
        (french [⟨["c"]⟩]).interpret .french = .ok described' ∧
        described.withoutNative = described'.withoutNative := by
  intro raw english french
  have given : ∃ keyword, Language.keyword .english "Given " = .ok keyword ∧
      Language.keyword .french "Soit " = .ok keyword :=
    ⟨.given, by decide, by decide⟩
  have star : ∃ keyword, Language.keyword .english "* " = .ok keyword ∧
      Language.keyword .french "Etant donné " = .ok keyword :=
    ⟨.given, by decide, by decide⟩
  have translates : ∀ rows, (english rows).Translates .english .french (french rows) := by
    intro rows
    have inBackground : List.Forall₂ (Step.Translates .english .french)
        [⟨"Given ", "a", some (.dataTable ⟨rows⟩)⟩] [⟨"Soit ", "a", some (.dataTable ⟨rows⟩)⟩] :=
      .cons ⟨given, rfl, rfl⟩ .nil
    have inOutline : List.Forall₂ (Step.Translates .english .french)
        [⟨"* ", "b", none⟩] [⟨"Etant donné ", "b", none⟩] :=
      .cons ⟨star, rfl, rfl⟩ .nil
    have examples : List.Forall₂ Examples.Translates [⟨"Examples", "", none, [], none, [⟨["x"]⟩]⟩]
        [⟨"Exemples", "", none, [], none, [⟨["x"]⟩]⟩] :=
      .cons ⟨rfl, rfl, rfl, rfl, rfl⟩ .nil
    exact ⟨rfl, rfl, rfl, .cons (.background ⟨rfl, rfl, inBackground⟩)
      (.cons (.outline ⟨rfl, rfl, rfl, inOutline, examples⟩) .nil)⟩
  have failed : (english []).interpret .english = .error .emptyTable := by decide
  have sound : (english [⟨["c"]⟩]).interpret .english ≠ .error .emptyTable := by decide
  refine ⟨translates, failed, ?_, ?_⟩
  · rcases interpret_translates (translates []) with ⟨_, failed'⟩ | ⟨_, _, described, _⟩
    · exact failed'
    · rw [failed] at described
      cases described
  · rcases interpret_translates (translates [⟨["c"]⟩]) with ⟨unsound, _⟩ | described
    · exact absurd unsound sound
    · exact described

end Gherkin
end LivingDoc
