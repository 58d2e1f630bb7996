import LivingDoc.Gherkin.Basic
import LivingDoc.Json.Decoder

/-!
Behaviour descriptions from JSON values. Fields that may be absent, lists, and the names of
backgrounds and of blocks of examples need not be given.
-/

namespace LivingDoc.Gherkin

open Json (Decoder Fields fields?)

/-- Decodes a tag. -/
def decodeTag : Decoder String := fun place value => do
  let fields ← fields? ["name"] place value
  fields.required "name" .string

/-- Decodes a cell of a table. -/
def decodeCell : Decoder String := fun place value => do
  let fields ← fields? ["value"] place value
  fields.required "value" .string

/-- Decodes a row of a table. -/
def Row.decode : Decoder Row := fun place value => do
  let fields ← fields? ["cells"] place value
  return ⟨← fields.required "cells" (.list decodeCell)⟩

/-- Decodes a text given to a step. -/
def DocString.decode : Decoder DocString := fun place value => do
  let fields ← fields? ["contentType", "content"] place value
  return ⟨← fields.optional "contentType" .string, ← fields.required "content" .string⟩

/-- Decodes a table given to a step. -/
def DataTable.decode : Decoder DataTable := fun place value => do
  let fields ← fields? ["rows"] place value
  return ⟨← fields.required "rows" (.list Row.decode)⟩

/-- Decodes an argument by its kind. -/
def Argument.decode : Decoder Argument :=
  .tagged [("DocString", fun place value => (DocString.decode place value).map .docString),
    ("DataTable", fun place value => (DataTable.decode place value).map .dataTable)]

/-- Decodes a step. -/
def Step.decode : Decoder Step := fun place value => do
  let fields ← fields? ["keyword", "text", "argument"] place value
  return ⟨← fields.required "keyword" .string, ← fields.required "text" .string,
    ← fields.optional "argument" Argument.decode⟩

/-- Decodes a background. -/
def Background.decode : Decoder Background := fun place value => do
  let fields ← fields? ["keyword", "name", "description", "steps"] place value
  return ⟨← fields.required "keyword" .string, ← fields.orElse "name" .string "",
    ← fields.optional "description" .string, ← fields.items "steps" Step.decode⟩

/-- Decodes a scenario. -/
def Scenario.decode : Decoder Scenario := fun place value => do
  let fields ← fields? ["keyword", "name", "description", "tags", "steps"] place value
  return ⟨← fields.required "keyword" .string, ← fields.required "name" .string,
    ← fields.optional "description" .string, ← fields.items "tags" decodeTag,
    ← fields.items "steps" Step.decode⟩

/-- Decodes a block of examples. -/
def Examples.decode : Decoder Examples := fun place value => do
  let fields ←
    fields? ["keyword", "name", "description", "tags", "tableHeader", "tableBody"] place value
  return ⟨← fields.required "keyword" .string, ← fields.orElse "name" .string "",
    ← fields.optional "description" .string, ← fields.items "tags" decodeTag,
    ← fields.optional "tableHeader" Row.decode, ← fields.items "tableBody" Row.decode⟩

/-- Decodes an outline. -/
def Outline.decode : Decoder Outline := fun place value => do
  let fields ← fields? ["keyword", "name", "description", "tags", "steps", "examples"] place value
  return ⟨← fields.required "keyword" .string, ← fields.required "name" .string,
    ← fields.optional "description" .string, ← fields.items "tags" decodeTag,
    ← fields.items "steps" Step.decode, ← fields.items "examples" Examples.decode⟩

/-- Decodes a child of a feature by its kind. -/
def Definition.decode : Decoder Definition :=
  .tagged [("Background", fun place value => (Background.decode place value).map .background),
    ("Scenario", fun place value => (Scenario.decode place value).map .scenario),
    ("ScenarioOutline", fun place value => (Outline.decode place value).map .outline)]

/-- Decodes a feature. -/
def Feature.decode : Decoder Feature := fun place value => do
  let fields ←
    fields? ["language", "keyword", "name", "description", "tags", "children"] place value
  return ⟨← fields.optional "language" .string, ← fields.required "keyword" .string,
    ← fields.required "name" .string, ← fields.optional "description" .string,
    ← fields.items "tags" decodeTag, ← fields.items "children" Definition.decode⟩

/-- Decodes a whole file. -/
def Document.decode : Decoder Document := fun place value => do
  let fields ← fields? ["feature"] place value
  return ⟨← fields.optional "feature" Feature.decode⟩

end LivingDoc.Gherkin
