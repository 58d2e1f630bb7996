import LivingDoc.Wording
import LivingDoc.Xml.Reference
import LivingDoc.Xml.Token

/-!
The ways in which a report can be malformed.
-/

namespace LivingDoc.Report

/-- Why a text is not the report it should be. Elements are given by their names. -/
inductive Malformed where
  /-- The page does not hold a marker that encloses the results. -/
  | missingMarker (marker : List Char)
  | markup (fault : Xml.MarkupFault)
  | attributes (element : List Char) (fault : Xml.AttributeFault)
  | attributeValue (element : List Char) (fault : Xml.ReferenceFault)
  /-- An attribute that is looked for cannot be read. -/
  | soughtAttribute (key : List Char) (fault : Xml.AttributeFault)
  /-- The value of an attribute that is looked for cannot be resolved. -/
  | soughtValue (key : List Char) (fault : Xml.ReferenceFault)
  | missingAttribute (element key : List Char)
  | text (fault : Xml.ReferenceFault)
  | textOutsideRoot
  | unmatchedClosing
  | severalRoots
  | unclosedElement
  | noRoot
  /-- The text does not hold the JSON value it should hold. -/
  | notCucumberJson (content : String)
  deriving DecidableEq, Repr

/-- What is wrong. -/
def Malformed.detail [Wording] : Malformed → String
  | missingMarker marker => "missing marker '" ++ String.ofList marker ++ "'"
  | markup fault => fault.message
  | attributes element fault =>
    "<" ++ String.ofList element ++ "> has an invalid attribute: " ++ fault.message
  | attributeValue element fault =>
    "<" ++ String.ofList element ++ "> has an invalid attribute value: " ++ fault.message
  | soughtAttribute key fault =>
    "invalid attribute '" ++ String.ofList key ++ "': " ++ fault.message
  | soughtValue key fault => "invalid attribute '" ++ String.ofList key ++ "': " ++ fault.message
  | missingAttribute element key =>
    "<" ++ String.ofList element ++ "> missing attribute '" ++ String.ofList key ++ "'"
  | text fault => "invalid text: " ++ fault.message
  | textOutsideRoot => "text outside the root element"
  | unmatchedClosing => "unmatched end tag"
  | severalRoots => "more than one root element"
  | unclosedElement => "unclosed element"
  | noRoot => "no root element"
  | notCucumberJson content => "invalid cucumber json: " ++ Wording.cucumber content

/-- The message that states what is wrong. -/
def Malformed.message [Wording] (malformed : Malformed) : String :=
  "malformed report: " ++ malformed.detail

end LivingDoc.Report
