/-!
Behaviour descriptions as a parser of feature files hands them over.

The nodes keep what is written, keywords included, in the words of the language of the file. A tag
is its name and a cell of a table its text.
-/

namespace LivingDoc.Gherkin

/-- A row of a table. -/
structure Row where
  cells : List String
  deriving DecidableEq, Repr

/-- A text of several lines given to a step. -/
structure DocString where
  contentType : Option String
  content : String
  deriving DecidableEq, Repr

/-- A table given to a step. -/
structure DataTable where
  rows : List Row
  deriving DecidableEq, Repr

/-- What a step is given besides its text. -/
inductive Argument where
  | docString (text : DocString)
  | dataTable (table : DataTable)
  deriving DecidableEq, Repr

/-- A step with its keyword as written. -/
structure Step where
  keyword : String
  text : String
  argument : Option Argument
  deriving DecidableEq, Repr

/-- The steps in front of every scenario of a feature. -/
structure Background where
  keyword : String
  name : String
  description : Option String
  steps : List Step
  deriving DecidableEq, Repr

/-- A scenario. -/
structure Scenario where
  keyword : String
  name : String
  description : Option String
  tags : List String
  steps : List Step
  deriving DecidableEq, Repr

/-- A block of examples for an outline: a row of placeholders and rows of values. -/
structure Examples where
  keyword : String
  name : String
  description : Option String
  tags : List String
  header : Option Row
  body : List Row
  deriving DecidableEq, Repr

/-- All rows of a block of examples, the header first if there is one. -/
def Examples.rows (examples : Examples) : List Row :=
  examples.header.toList ++ examples.body

/-- A scenario with placeholders and blocks of examples for them. -/
structure Outline where
  keyword : String
  name : String
  description : Option String
  tags : List String
  steps : List Step
  examples : List Examples
  deriving DecidableEq, Repr

/-- A child of a feature. -/
inductive Definition where
  | background (background : Background)
  | scenario (scenario : Scenario)
  | outline (outline : Outline)
  deriving DecidableEq, Repr

/-- The name of the kind of a child. -/
def Definition.kind : Definition → String
  | background _ => "Background"
  | scenario _ => "Scenario"
  | outline _ => "ScenarioOutline"

/-- A feature. -/
structure Feature where
  /-- The language of the keywords, if the file says it. -/
  language : Option String
  keyword : String
  name : String
  description : Option String
  tags : List String
  children : List Definition
  deriving DecidableEq, Repr

/-- A whole file, with or without a feature. -/
structure Document where
  feature : Option Feature
  deriving DecidableEq, Repr

end LivingDoc.Gherkin
