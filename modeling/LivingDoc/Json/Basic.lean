import LivingDoc.Json.Token

/-!
JSON values as trees, and the passage between trees and tokens.

A tree keeps all that a text says and that some reader may ask for: the order of the members of an
object, repeated keys, the spelling of numbers, and whether a string denotes characters at all.
Reading follows the tokens with a stack of the lists and objects that are still open, so it is one
fold over the tokens however deeply a value is nested.
-/

namespace LivingDoc

/-- A JSON value. -/
inductive Json where
  | null
  | bool (b : Bool)
  | num (n : Json.Numeral)
  /-- A string, or `none` for one that denotes no characters. -/
  | str (s : Option String)
  | list (items : List Json)
  | object (members : List (Option String × Json))

namespace Json

/-- A string that denotes characters. -/
def text (s : String) : Json := .str (some s)

/-- The number of a natural number. -/
def nat (n : Nat) : Json := .num (.ofNat n)

/-- An object with the given members. -/
def record (members : List (String × Json)) : Json :=
  .object (members.map fun (key, value) => (some key, value))

/-! ## From trees to tokens -/

mutual

/-- The tokens of a value. -/
def tokens : Json → List Token
  | .null => [.null]
  | .bool b => [.bool b]
  | .num n => [.num n]
  | .str s => [.str s]
  | .list [] => [.openList, .closeList]
  | .list (item :: items) => .openList :: (tokens item ++ itemTokens items)
  | .object [] => [.openObject, .closeObject]
  | .object ((key, value) :: members) =>
    .openObject :: .str key :: .colon :: (tokens value ++ memberTokens members)

/-- The tokens of the items after the first one, up to the end of the list. -/
def itemTokens : List Json → List Token
  | [] => [.closeList]
  | item :: items => .comma :: (tokens item ++ itemTokens items)

/-- The tokens of the members after the first one, up to the end of the object. -/
def memberTokens : List (Option String × Json) → List Token
  | [] => [.closeObject]
  | (key, value) :: members =>
    .comma :: .str key :: .colon :: (tokens value ++ memberTokens members)

end

/-! ## From tokens to trees -/

/-- A list or object that is still open, with what it holds so far, the last first. -/
inductive Frame where
  | list (items : List Json)
  /-- An object whose last key has been read and whose value is not complete. -/
  | object (members : List (Option String × Json)) (key : Option String)

/-- How far a value has been read, inside the open lists and objects around it, innermost first. -/
inductive Reading where
  /-- A value must follow. -/
  | value (around : List Frame)
  /-- A list has been opened: a value or the end of the list must follow. -/
  | firstItem (around : List Frame)
  /-- An object has been opened: a key or the end of the object must follow. -/
  | firstKey (around : List Frame)
  /-- A comma in an object has been read: a key must follow. -/
  | nextKey (members : List (Option String × Json)) (around : List Frame)
  /-- A key has been read: a colon must follow. -/
  | colon (members : List (Option String × Json)) (key : Option String) (around : List Frame)
  /-- A value is complete. -/
  | complete (value : Json) (around : List Frame)

namespace Reading

/-- Reads the first token of a value. -/
def begin? (around : List Frame) : Token → Option Reading
  | .null => some (.complete .null around)
  | .bool b => some (.complete (.bool b) around)
  | .num n => some (.complete (.num n) around)
  | .str s => some (.complete (.str s) around)
  | .openList => some (.firstItem around)
  | .openObject => some (.firstKey around)
  | _ => none

/-- Reads one token. -/
def step? : Reading → Token → Option Reading
  | .value around, token => begin? around token
  | .firstItem around, .closeList => some (.complete (.list []) around)
  | .firstItem around, token => begin? (.list [] :: around) token
  | .firstKey around, .closeObject => some (.complete (.object []) around)
  | .firstKey around, .str key => some (.colon [] key around)
  | .nextKey members around, .str key => some (.colon members key around)
  | .colon members key around, .colon => some (.value (.object members key :: around))
  | .complete last (.list items :: around), .comma =>
    some (.value (.list (last :: items) :: around))
  | .complete last (.list items :: around), .closeList =>
    some (.complete (.list (last :: items).reverse) around)
  | .complete last (.object members key :: around), .comma =>
    some (.nextKey ((key, last) :: members) around)
  | .complete last (.object members key :: around), .closeObject =>
    some (.complete (.object ((key, last) :: members).reverse) around)
  | _, _ => none

/-- The value that has been read, if it is complete and nothing is open around it. -/
def result? : Reading → Option Json
  | .complete whole [] => some whole
  | _ => none

end Reading

/-- The value that tokens form. -/
def ofTokens? (tokens : List Token) : Option Json := do
  (← tokens.foldlM Reading.step? (.value [])).result?

/-- The value that a text holds. -/
def parse? (text : String) : Option Json := do
  ofTokens? (← Token.scan? text.toList)

end Json
end LivingDoc
