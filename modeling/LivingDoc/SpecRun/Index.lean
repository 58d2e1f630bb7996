import LivingDoc.Record
import LivingDoc.Report.Malformed

/-!
The records in the XML of a SpecRun report.

Every `feature` element, at any depth, is a recorded feature, and every `scenario` element belongs
to the innermost feature element around it, or to none. The index follows the tokens one by one
with a stack of the feature elements that are open. All other elements are only checked: their
attributes and all references have to be sound, and there is exactly one root element with nothing
but markup outside it.
-/

namespace LivingDoc.SpecRun

open Report (Malformed)
open Xml (Tag Token)

/-! ## Attributes of an element -/

/-- Checks that the value of an attribute of an element can be resolved. -/
def requireResolvable (tag : Tag) (item : Xml.Attribute) : Except Malformed Unit :=
  match Xml.unescape item.value with
  | .ok _ => .ok ()
  | .error fault => .error (.attributeValue tag.name fault)

/-- Checks the attributes of an element up to the first one that is unsound. -/
def requireSoundAttributes (tag : Tag) : Except Malformed Unit := do
  tag.attributes.items.forM (requireResolvable tag)
  match tag.attributes.fault with
  | none => return ()
  | some fault => throw (.attributes tag.name fault)

/-- The resolved value of the attribute with a key, if an element has one. -/
def seekAttribute (tag : Tag) (key : List Char) : Except Malformed (Option String) :=
  match tag.attribute? key with
  | .error fault => .error (.soughtAttribute key fault)
  | .ok none => .ok none
  | .ok (some item) =>
    match Xml.unescape item.value with
    | .error fault => .error (.soughtValue key fault)
    | .ok value => .ok (some (String.ofList value))

/-- The key of titles. -/
def titleKey : List Char := "title".toList

/-- The key of outcomes. -/
def resultKey : List Char := "result".toList

/-- The title of an element that must have one. -/
def title (tag : Tag) : Except Malformed String := do
  match ← seekAttribute tag titleKey with
  | some title => return title
  | none => throw (.missingAttribute tag.name titleKey)

/-! ## The index -/

/-- The name of the elements that record features. -/
def featureName : List Char := "feature".toList

/-- The name of the elements that record scenarios. -/
def scenarioName : List Char := "scenario".toList

/-- What has been gathered from the tokens so far. -/
structure Index where
  /-- How many elements are open. -/
  depth : Nat
  /-- How many elements have begun outside all others. -/
  roots : Nat
  /-- For each open feature element, innermost first, the number of elements around it and its
  position among the features. -/
  enclosing : List (Nat × Nat)
  features : List RecordedFeature
  deriving DecidableEq, Repr

namespace Index

/-- Nothing has been gathered. -/
def initial : Index := ⟨0, 0, [], []⟩

/-- Counts an element that begins outside all others. -/
def countRoot (index : Index) : Index :=
  if index.depth = 0 then { index with roots := index.roots + 1 } else index

/-- Adds the feature that an element records, and returns its position. -/
def addFeature (index : Index) (tag : Tag) : Except Malformed (Index × Nat) := do
  let title ← title tag
  return ({ index with features := index.features ++ [⟨title, []⟩] }, index.features.length)

/-- Adds the scenario that an element records to the innermost open feature, if it is a scenario
and a feature is open. -/
def addScenario (index : Index) (tag : Tag) : Except Malformed Index :=
  if tag.name = scenarioName then
    match index.enclosing with
    | [] => .ok index
    | (_, position) :: _ => do
      let title ← title tag
      let outcome ← seekAttribute tag resultKey
      return { index with
        features := index.features.modify position fun feature =>
          { feature with scenarios := feature.scenarios ++ [⟨title, outcome⟩] } }
  else .ok index

/-- Follows the beginning of an element, which stays open if `stays` holds. -/
def openElement (index : Index) (tag : Tag) (stays : Bool) : Except Malformed Index := do
  let index := index.countRoot
  requireSoundAttributes tag
  let index ←
    if tag.name = featureName then do
      let (index, position) ← index.addFeature tag
      if stays then
        pure { index with enclosing := (index.depth, position) :: index.enclosing }
      else pure index
    else index.addScenario tag
  return if stays then { index with depth := index.depth + 1 } else index

/-- Follows the end of an element. -/
def closeElement (index : Index) : Except Malformed Index :=
  match index.depth with
  | 0 => .error .unmatchedClosing
  | depth + 1 =>
    let enclosing :=
      match index.enclosing with
      | (around, position) :: outer =>
        if around = depth then outer else (around, position) :: outer
      | [] => []
    .ok { index with depth := depth, enclosing := enclosing }

/-- Follows one token, without regard to the number of roots. -/
def follow (index : Index) : Token → Except Malformed Index
  | .start tag => index.openElement tag true
  | .empty tag => index.openElement tag false
  | .close _ => index.closeElement
  | .text content =>
    if index.depth = 0 then .error .textOutsideRoot
    else
      match Xml.unescape content with
      | .ok _ => .ok index
      | .error fault => .error (.text fault)
  | .cdata _ => if index.depth = 0 then .error .textOutsideRoot else .ok index
  | .comment _ => .ok index
  | .doctype _ => .ok index
  | .instruction _ => .ok index

/-- Follows one token. There may be only one root. -/
def step (index : Index) (token : Token) : Except Malformed Index := do
  let index ← index.follow token
  if 1 < index.roots then throw .severalRoots
  return index

/-- The features of a text that ends here. -/
def finish (index : Index) : Except Malformed (List RecordedFeature) :=
  if index.depth ≠ 0 then .error .unclosedElement
  else if index.roots = 0 then .error .noRoot
  else .ok index.features

end Index

/-- The features recorded in an XML text. Of several faults the one that comes first counts. -/
def features (xml : List Char) : Except Malformed (List RecordedFeature) := do
  let tokens := Xml.read xml
  let index ← tokens.items.foldlM Index.step .initial
  match tokens.fault with
  | some fault => throw (.markup fault)
  | none => index.finish

end LivingDoc.SpecRun
