import LivingDoc.Json.Basic

/-!
Decoding JSON values into typed ones.

A structure decodes from an object by the names of its fields or from a list by their order. Other
members of an object are ignored, as long as their keys denote characters and no field is given
twice.

A value with a tag, which says by a name which of several types it is, is examined in full before
the type is known. What such a value holds must therefore be sound even where it is ignored: its
numbers fit a double, its strings denote characters, and it does not lie too deep. Inside an
examined value the tag of another one may also be the number of the type.
-/

namespace LivingDoc.Json

/-- Where a value stands in a text. -/
structure Place where
  /-- How many lists and objects are open around the value. -/
  opened : Nat
  /-- Whether the value belongs to one that has been examined in full. -/
  examined : Bool
  deriving DecidableEq, Repr

/-- The place of the value that a whole text holds. -/
def Place.whole : Place := ⟨0, false⟩

/-- The place of an item or member of the value at a place. -/
def Place.within (place : Place) : Place :=
  { place with opened := place.opened + 1 }

/-- Decodes the value at a place, if it has the form of the wanted type. -/
abbrev Decoder (α : Type) := Place → Json → Option α

/-! ## Simple values -/

/-- Decodes a string. -/
def Decoder.string : Decoder String
  | _, .str s => s
  | _, _ => none

/-- Decodes a value that may be null. -/
def Decoder.optional {α : Type} (decoder : Decoder α) : Decoder (Option α)
  | _, .null => some none
  | place, value => (decoder place value).map some

/-- Decodes a list. -/
def Decoder.list {α : Type} (decoder : Decoder α) : Decoder (List α)
  | place, .list items => items.mapM (decoder place.within)
  | _, _ => none

/-! ## Structures -/

/-- The values given for the fields of a structure, and the place they stand at. -/
structure Fields where
  place : Place
  given : List (String × Json)

/-- The members of an object that are fields, if all keys denote characters and no field is given
twice. -/
def fieldMembers? (names : List String) (members : List (Option String × Json)) :
    Option (List (String × Json)) := do
  let members ← members.mapM fun (key, value) => key.map (·, value)
  let given := members.filter fun (key, _) => names.contains key
  if (given.map Prod.fst).Nodup then some given else none

/-- The fields that a value gives for a structure with the given field names. -/
def fields? (names : List String) (place : Place) : Json → Option Fields
  | .list items =>
    if items.length ≤ names.length then some ⟨place.within, names.zip items⟩ else none
  | .object members => (fieldMembers? names members).map fun given => ⟨place.within, given⟩
  | _ => none

namespace Fields

/-- Decodes a field that must be given. -/
def required {α : Type} (fields : Fields) (name : String) (decoder : Decoder α) : Option α :=
  (fields.given.lookup name).bind (decoder fields.place)

/-- Decodes a field that stands for a certain value if it is not given. -/
def orElse {α : Type} (fields : Fields) (name : String) (decoder : Decoder α) (absent : α) :
    Option α :=
  match fields.given.lookup name with
  | none => some absent
  | some value => decoder fields.place value

/-- Decodes a field that may be missing or null. -/
def optional {α : Type} (fields : Fields) (name : String) (decoder : Decoder α) :
    Option (Option α) :=
  fields.orElse name decoder.optional none

/-- Decodes a list that is empty if it is missing. -/
def items {α : Type} (fields : Fields) (name : String) (decoder : Decoder α) :
    Option (List α) :=
  fields.orElse name decoder.list []

end Fields

/-! ## Tagged values -/

/-- How many lists and objects may be open at once in a value that is examined in full. -/
def depthLimit : Nat := 127

mutual

/-- Whether a value is sound: its numbers fit a double, its strings denote characters, and it
opens at most `room` lists and objects at once. -/
def isSound (room : Nat) : Json → Bool
  | .null => true
  | .bool _ => true
  | .num n => n.fitsDouble
  | .str s => s.isSome
  | .list items =>
    match room with
    | 0 => false
    | room + 1 => areSound room items
  | .object members =>
    match room with
    | 0 => false
    | room + 1 => areSoundMembers room members

/-- Whether all items of a list are sound. -/
def areSound (room : Nat) : List Json → Bool
  | [] => true
  | item :: items => isSound room item && areSound room items

/-- Whether all members of an object are sound. -/
def areSoundMembers (room : Nat) : List (Option String × Json) → Bool
  | [] => true
  | (key, value) :: members => key.isSome && isSound room value && areSoundMembers room members

end

/-- The key of the member that holds a tag. -/
def tagKey : String := "type"

/-- Splits a tagged value into its tag and what is tagged: an object has exactly one member for the
tag, and a list has the tag in front. -/
def untag? : Json → Option (Json × Json)
  | .list (tag :: items) => some (tag, .list items)
  | .object members =>
    match members.partition fun member => member.1 == some tagKey with
    | ([(_, tag)], rest) => some (tag, .object rest)
    | _ => none
  | _ => none

/-- The type that a tag chooses among named ones. Its number does as well in an examined value. -/
def chosen? {α : Type} (variants : List (String × α)) (place : Place) : Json → Option α
  | .str (some name) => variants.lookup name
  | .num n => if place.examined then n.natural?.bind fun i => variants[i]?.map Prod.snd else none
  | _ => none

/-- Decodes a value whose tag chooses one of several named decoders. -/
def Decoder.tagged {α : Type} (variants : List (String × Decoder α)) : Decoder α
  | place, value => do
    if place.examined || value.isSound (depthLimit - place.opened) then
      let (tag, content) ← value.untag?
      let decoder ← chosen? variants place tag
      decoder { place with examined := true } content
    else none

/-! ## Texts -/

/-- Decodes the value that a whole text holds. -/
def decode? {α : Type} (decoder : Decoder α) (text : String) : Option α := do
  decoder .whole (← parse? text)

end LivingDoc.Json
