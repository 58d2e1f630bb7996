import LivingDoc.Feature
import LivingDoc.Gherkin.Basic
import LivingDoc.Language

/-!
The meaning of a behaviour description in a language: which feature it describes.

Steps get their canonical keyword, tables their header, and every scenario and outline the name of
its feature. Children keep their order. A background is no element; where several are given, the
last one counts, but all of them have to be sound.
-/

namespace LivingDoc

/-- Why a behaviour description has no meaning. -/
inductive MappingFault where
  /-- A child that is neither a scenario nor an outline stands in the place of one. -/
  | unsupportedNode (kind : String)
  /-- A keyword, as written, is no spelling of the language with the given tag. -/
  | unknownKeyword (keyword : String) (language : String)
  /-- A table has not even a header. -/
  | emptyTable
  /-- There is no table of keywords for a language tag. -/
  | unsupportedLanguage (tag : String)
  /-- The file holds no feature. -/
  | noFeature
  deriving DecidableEq, Repr

/-- The message that states a fault. -/
def MappingFault.message : MappingFault → String
  | unsupportedNode kind =>
    "unsupported node kind '" ++ kind ++ "': only Scenario and ScenarioOutline are supported"
  | unknownKeyword keyword language =>
    "keyword '" ++ keyword ++ "' is not recognized for language '" ++ language ++ "'"
  | emptyTable => "table must have at least one row (the header)"
  | unsupportedLanguage tag => "language '" ++ tag ++ "' has no keyword table"
  | noFeature => "document has no feature"

/-- The language that a tag asks for. -/
def Language.ofTag (tag : String) : Except MappingFault Language :=
  match Language.ofTag? tag with
  | some language => .ok language
  | none => .error (.unsupportedLanguage tag)

/-- The keyword that a text spells in a language. -/
def Language.keyword (language : Language) (text : String) : Except MappingFault Keyword :=
  match language.keyword? text with
  | some keyword => .ok keyword
  | none => .error (.unknownKeyword text language.tag)

/-- The keyword that a text spells in the language that a tag asks for. -/
def Keyword.ofText (tag text : String) : Except MappingFault Keyword := do
  (← Language.ofTag tag).keyword text

namespace Gherkin

/-- The table that rows form: the first one is the header. -/
def interpretRows : List Row → Except MappingFault Table
  | [] => .error .emptyTable
  | header :: rows => .ok ⟨header.cells, rows.map Row.cells⟩

/-- The text and the table that an argument gives to a step; one of them is absent. -/
def Argument.interpret : Argument → Except MappingFault (Option String × Option Table)
  | docString text => .ok (some text.content, none)
  | dataTable table => return (none, some (← interpretRows table.rows))

/-- The meaning of a step. Its argument is looked at before its keyword. -/
def Step.interpret (language : Language) (step : Step) : Except MappingFault LivingDoc.Step := do
  let (docString, table) ←
    match step.argument with
    | none => pure (none, none)
    | some argument => argument.interpret
  let keyword ← language.keyword step.keyword
  return ⟨step.keyword, keyword, step.text, docString, table⟩

/-- The meaning of a scenario of the named feature. -/
def Scenario.interpret (language : Language) (featureName : String) (scenario : Scenario) :
    Except MappingFault LivingDoc.Scenario := do
  let steps ← scenario.steps.mapM (Step.interpret language)
  return ⟨scenario.name, scenario.description.getD "", steps, scenario.tags, featureName⟩

/-- The meaning of a background of the named feature: a scenario without tags. -/
def Background.interpret (language : Language) (featureName : String) (background : Background) :
    Except MappingFault LivingDoc.Scenario := do
  let steps ← background.steps.mapM (Step.interpret language)
  return ⟨background.name, background.description.getD "", steps, [], featureName⟩

/-- The meaning of a block of examples. -/
def Examples.interpret (examples : Examples) : Except MappingFault LivingDoc.Example := do
  let table ← interpretRows examples.rows
  return ⟨examples.name, examples.description.getD "", examples.tags, table⟩

/-- The meaning of an outline of the named feature. -/
def Outline.interpret (language : Language) (featureName : String) (outline : Outline) :
    Except MappingFault LivingDoc.Outline := do
  let steps ← outline.steps.mapM (Step.interpret language)
  let examples ← outline.examples.mapM Examples.interpret
  return ⟨outline.name, outline.description.getD "", steps, outline.tags, examples, featureName⟩

/-- The element that a child of the named feature describes. A background describes none. -/
def Definition.interpret (language : Language) (featureName : String) (definition : Definition) :
    Except MappingFault Element :=
  match definition with
  | scenario child => return .scenario (← child.interpret language featureName)
  | outline child => return .outline (← child.interpret language featureName)
  | background _ => .error (.unsupportedNode definition.kind)

/-- A background or an element of a feature. -/
abbrev Part := LivingDoc.Scenario ⊕ Element

/-- What a child of the named feature describes, a background on the left. -/
def Definition.part (language : Language) (featureName : String) :
    Definition → Except MappingFault Part
  | background child => return .inl (← child.interpret language featureName)
  | definition => return .inr (← definition.interpret language featureName)

/-- The feature that a parsed feature describes. -/
def Feature.interpret (language : Language) (feature : Feature) :
    Except MappingFault LivingDoc.Feature := do
  let parts ← feature.children.mapM (Definition.part language feature.name)
  return ⟨feature.name, feature.description.getD "", feature.tags,
    parts.filterMap Sum.getRight?, (parts.filterMap Sum.getLeft?).getLast?⟩

/-- The feature that a file describes. -/
def Document.interpret (language : Language) (document : Document) :
    Except MappingFault LivingDoc.Feature :=
  match document.feature with
  | none => .error .noFeature
  | some feature => feature.interpret language

end Gherkin
end LivingDoc
