import LivingDoc.Gherkin.Basic
import LivingDoc.Json.Basic

/-!
Behaviour descriptions as JSON values. Every field is written, an absent one as null. Children of
a feature and arguments of a step carry their kind as a tag.
-/

namespace LivingDoc.Gherkin

/-- A text that may be absent. -/
def encodeOptional {α : Type} (encode : α → Json) : Option α → Json
  | none => .null
  | some value => encode value

/-- A tag. -/
def encodeTag (name : String) : Json :=
  .record [("name", .text name)]

/-- A list of tags. -/
def encodeTags (names : List String) : Json :=
  .list (names.map encodeTag)

/-- A cell of a table. -/
def encodeCell (value : String) : Json :=
  .record [("value", .text value)]

/-- The members of a row. -/
def Row.encode (row : Row) : Json :=
  .record [("cells", .list (row.cells.map encodeCell))]

/-- The members of a text given to a step. -/
def DocString.members (text : DocString) : List (String × Json) :=
  [("contentType", encodeOptional .text text.contentType), ("content", .text text.content)]

/-- The members of a table given to a step. -/
def DataTable.members (table : DataTable) : List (String × Json) :=
  [("rows", .list (table.rows.map Row.encode))]

/-- An argument with its kind. -/
def Argument.encode : Argument → Json
  | docString text => .record (("type", .text "DocString") :: text.members)
  | dataTable table => .record (("type", .text "DataTable") :: table.members)

/-- A step. -/
def Step.encode (step : Step) : Json :=
  .record [("keyword", .text step.keyword), ("text", .text step.text),
    ("argument", encodeOptional Argument.encode step.argument)]

/-- The members of a background. -/
def Background.members (background : Background) : List (String × Json) :=
  [("keyword", .text background.keyword), ("name", .text background.name),
    ("description", encodeOptional .text background.description),
    ("steps", .list (background.steps.map Step.encode))]

/-- The members of a scenario. -/
def Scenario.members (scenario : Scenario) : List (String × Json) :=
  [("keyword", .text scenario.keyword), ("name", .text scenario.name),
    ("description", encodeOptional .text scenario.description),
    ("tags", encodeTags scenario.tags),
    ("steps", .list (scenario.steps.map Step.encode))]

/-- A block of examples. -/
def Examples.encode (examples : Examples) : Json :=
  .record [("keyword", .text examples.keyword), ("name", .text examples.name),
    ("description", encodeOptional .text examples.description),
    ("tags", encodeTags examples.tags),
    ("tableHeader", encodeOptional Row.encode examples.header),
    ("tableBody", .list (examples.body.map Row.encode))]

/-- The members of an outline. -/
def Outline.members (outline : Outline) : List (String × Json) :=
  [("keyword", .text outline.keyword), ("name", .text outline.name),
    ("description", encodeOptional .text outline.description),
    ("tags", encodeTags outline.tags),
    ("steps", .list (outline.steps.map Step.encode)),
    ("examples", .list (outline.examples.map Examples.encode))]

/-- A child of a feature with its kind. -/
def Definition.encode (definition : Definition) : Json :=
  .record (("type", .text definition.kind) ::
    match definition with
    | background child => child.members
    | scenario child => child.members
    | outline child => child.members)

/-- A feature. -/
def Feature.encode (feature : Feature) : Json :=
  .record [("language", encodeOptional .text feature.language),
    ("keyword", .text feature.keyword), ("name", .text feature.name),
    ("description", encodeOptional .text feature.description),
    ("tags", encodeTags feature.tags),
    ("children", .list (feature.children.map Definition.encode))]

/-- A whole file. -/
def Document.encode (document : Document) : Json :=
  .record [("feature", encodeOptional Feature.encode document.feature)]

end LivingDoc.Gherkin
