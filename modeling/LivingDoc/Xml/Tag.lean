import LivingDoc.Text.Cut
import LivingDoc.Xml.Basic

/-!
Tags: the name of an element and its attributes.

Attributes need no blank between them. A key is any run of characters that are neither blank nor
the equals sign, and may begin with the latter; a value stands in quotes of either kind. Keys are
compared before the value is looked at, so a repeated key is reported first.
-/

namespace LivingDoc.Xml

open Text (length_dropWhile_le)

/-- An attribute as written, with the position of its key in the tag. -/
structure Attribute where
  key : List Char
  position : Nat
  value : List Char
  deriving DecidableEq, Repr

/-- Why the attributes of a tag cannot be read. Positions are relative to the content of the
tag. -/
inductive AttributeFault where
  | noEquals (position : Nat)
  | noValue (position : Nat)
  | unquoted (position : Nat)
  | unclosedQuote (position : Nat) (quote : Char)
  | repeated (position previous : Nat)
  deriving DecidableEq, Repr

/-- The words that state a fault. -/
def AttributeFault.message : AttributeFault → String
  | noEquals position =>
    "position " ++ toString position
      ++ ": attribute key must be directly followed by `=` or space"
  | noValue position =>
    "position " ++ toString position ++ ": `=` must be followed by an attribute value"
  | unquoted position =>
    "position " ++ toString position ++ ": attribute value must be enclosed in `\"` or `'`"
  | unclosedQuote position quote =>
    "position " ++ toString position ++ ": missing closing quote `" ++ quote.toString
      ++ "` in attribute value"
  | repeated position previous =>
    "position " ++ toString position
      ++ ": duplicated attribute, previous declaration at position " ++ toString previous

/-- The inside of a tag that opens an element: all between the angle brackets, without the slash
that ends an empty element. -/
structure Tag where
  content : List Char
  deriving DecidableEq, Repr

namespace Attribute

/-- Reads the value that follows the equals sign of a key. -/
def takeValue (total : Nat) (key : List Char) (position : Nat) (text : List Char) :
    Except AttributeFault (Attribute × List Char) :=
  match text.dropWhile isBlank with
  | [] => .error (.noValue total)
  | quote :: inside =>
    if quote = '"' || quote = '\'' then
      match inside.dropWhile (· != quote) with
      | [] => .error (.unclosedQuote total quote)
      | _ :: rest => .ok (⟨key, position, inside.takeWhile (· != quote)⟩, rest)
    else .error (.unquoted (total - size (quote :: inside)))

/-- Reads the next attribute in the rest of a tag of a total size, if there is one. Its key must
differ from the keys of the attributes in `seen`. -/
def take (total : Nat) (seen : List Attribute) (text : List Char) :
    Except AttributeFault (Option (Attribute × List Char)) :=
  match text.dropWhile isBlank with
  | [] => .ok none
  | first :: after =>
    let ofKey := fun c => c != '=' && !isBlank c
    let key := first :: after.takeWhile ofKey
    let position := total - size (first :: after)
    match (after.dropWhile ofKey).dropWhile isBlank with
    | '=' :: value =>
      match seen.find? fun earlier => earlier.key == key with
      | some earlier => .error (.repeated position earlier.position)
      | none => (takeValue total key position value).map some
    | other => .error (.noEquals (total - size other))

theorem takeValue_length {total position : Nat} {key text rest : List Char}
    {item : Attribute} (h : takeValue total key position text = .ok (item, rest)) :
    rest.length < text.length := by
  unfold takeValue at h
  have := length_dropWhile_le isBlank text
  split at h
  · cases h
  · next quote inside found =>
    split at h
    · have := length_dropWhile_le (· != quote) inside
      split at h
      · cases h
      · next other found' =>
        simp only [Except.ok.injEq, Prod.mk.injEq] at h
        simp_all only [List.length_cons]
        omega
    · cases h

/-- Reading an attribute takes at least one character. -/
theorem take_length {total : Nat} {seen : List Attribute} {text rest : List Char}
    {item : Attribute} (h : take total seen text = .ok (some (item, rest))) :
    rest.length < text.length := by
  unfold take at h
  have := length_dropWhile_le isBlank text
  split at h
  · cases h
  · next first after found =>
    dsimp only at h
    split at h
    · next value found' =>
      split at h
      · cases h
      · have keyLength := length_dropWhile_le (fun c => c != '=' && !isBlank c) after
        have blankLength :=
          length_dropWhile_le isBlank (after.dropWhile fun c => c != '=' && !isBlank c)
        cases taken : takeValue total (first :: after.takeWhile fun c => c != '=' && !isBlank c)
            (total - size (first :: after)) value with
        | error fault => simp [taken, Except.map] at h
        | ok pair =>
          obtain ⟨_, _⟩ := pair
          simp only [taken, Except.map, Except.ok.injEq, Option.some.injEq, Prod.mk.injEq] at h
          have := takeValue_length taken
          simp_all only [List.length_cons]
          omega
    · cases h

end Attribute

/-- Reads the attributes in the rest of a tag of a total size. With `distinct`, their keys have to
differ from each other and from those in `seen`. -/
def attributesFrom (total : Nat) (distinct : Bool) (seen : List Attribute) (text : List Char) :
    Progress AttributeFault Attribute :=
  match _h : Attribute.take total seen text with
  | .error fault => .failed fault
  | .ok none => .done
  | .ok (some (item, rest)) =>
    .cons item
      (attributesFrom total distinct (if distinct then item :: seen else seen) rest)
termination_by text.length
decreasing_by exact Attribute.take_length _h

namespace Tag

/-- The name of the element: the content up to the first blank. -/
def name (tag : Tag) : List Char :=
  tag.content.takeWhile (!isBlank ·)

/-- The attributes of a tag, which must have distinct keys. -/
def attributes (tag : Tag) : Progress AttributeFault Attribute :=
  attributesFrom (size tag.content) true [] (tag.content.dropWhile (!isBlank ·))

/-- The first attribute of a tag with a key, found without a look at what follows it. -/
def attribute? (tag : Tag) (key : List Char) : Except AttributeFault (Option Attribute) :=
  let found :=
    attributesFrom (size tag.content) false [] (tag.content.dropWhile (!isBlank ·))
  match found.items.find? fun item => item.key == key, found.fault with
  | some item, _ => .ok (some item)
  | none, some fault => .error fault
  | none, none => .ok none

end Tag
end LivingDoc.Xml
