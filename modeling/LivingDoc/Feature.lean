import LivingDoc.Json.Basic
import LivingDoc.Keyword

/-!
Features as readers of the documentation see them, independent of the language they are written in,
and their form as JSON values.

Each scenario and outline names the feature it belongs to; this is all that a report needs to find
the runs recorded for it.
-/

namespace LivingDoc

/-- A table: one row of headings and any number of rows below it. -/
structure Table where
  header : List String
  rows : List (List String)
  deriving DecidableEq, Repr

/-- A step. -/
structure Step where
  /-- The keyword as the author wrote it. -/
  nativeKeyword : String
  keyword : Keyword
  name : String
  docString : Option String
  table : Option Table
  deriving DecidableEq, Repr

/-- A scenario, or the background of a feature. -/
structure Scenario where
  name : String
  /-- The description, empty if the author gave none. -/
  description : String
  steps : List Step
  tags : List String
  featureName : String
  deriving DecidableEq, Repr

/-- A block of examples of an outline. -/
structure Example where
  name : String
  description : String
  tags : List String
  table : Table
  deriving DecidableEq, Repr

/-- A scenario with placeholders, run once for each row of its examples. -/
structure Outline where
  name : String
  description : String
  steps : List Step
  tags : List String
  examples : List Example
  featureName : String
  deriving DecidableEq, Repr

/-- A part of a feature that is run on its own. -/
inductive Element where
  | scenario (scenario : Scenario)
  | outline (outline : Outline)
  deriving DecidableEq, Repr

namespace Element

/-- The name of the kind of an element. -/
def kind : Element → String
  | scenario _ => "scenario"
  | outline _ => "scenario_outline"

/-- The name of an element. -/
def name : Element → String
  | scenario element => element.name
  | outline element => element.name

/-- The tags of an element. -/
def tags : Element → List String
  | scenario element => element.tags
  | outline element => element.tags

end Element

/-- A feature with its elements in the order of its file. -/
structure Feature where
  name : String
  description : String
  tags : List String
  elements : List Element
  background : Option Scenario
  deriving DecidableEq, Repr

/-! ## Features as JSON values -/

/-- A list of texts. -/
def encodeTexts (texts : List String) : Json :=
  .list (texts.map Json.text)

/-- A table. -/
def Table.encode (table : Table) : Json :=
  .record [("header_row", encodeTexts table.header),
    ("data_rows", .list (table.rows.map encodeTexts))]

/-- A step. -/
def Step.encode (step : Step) : Json :=
  .record [("native_keyword", .text step.nativeKeyword), ("keyword", .text step.keyword.name),
    ("name", .text step.name),
    ("doc_string_argument", step.docString.elim .null Json.text),
    ("table_argument", step.table.elim .null Table.encode)]

/-- The members of a scenario. -/
def Scenario.members (scenario : Scenario) : List (String × Json) :=
  [("name", .text scenario.name), ("description", .text scenario.description),
    ("steps", .list (scenario.steps.map Step.encode)), ("tags", encodeTexts scenario.tags),
    ("feature_name", .text scenario.featureName)]

/-- A block of examples. -/
def Example.encode (block : Example) : Json :=
  .record [("name", .text block.name), ("description", .text block.description),
    ("tags", encodeTexts block.tags), ("table", block.table.encode)]

/-- The members of an outline. -/
def Outline.members (outline : Outline) : List (String × Json) :=
  [("name", .text outline.name), ("description", .text outline.description),
    ("steps", .list (outline.steps.map Step.encode)), ("tags", encodeTexts outline.tags),
    ("examples", .list (outline.examples.map Example.encode)),
    ("feature_name", .text outline.featureName)]

/-- An element with its kind in front. -/
def Element.encode (element : Element) : Json :=
  .record (("kind", .text element.kind) ::
    match element with
    | .scenario content => content.members
    | .outline content => content.members)

/-- A feature. -/
def Feature.encode (feature : Feature) : Json :=
  .record [("name", .text feature.name), ("description", .text feature.description),
    ("tags", encodeTexts feature.tags),
    ("feature_elements", .list (feature.elements.map Element.encode)),
    ("background", feature.background.elim .null fun scenario => .record scenario.members)]

end LivingDoc
