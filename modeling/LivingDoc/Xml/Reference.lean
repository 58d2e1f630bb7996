import LivingDoc.Text.Cut
import LivingDoc.Text.Digit
import LivingDoc.Xml.Basic

/-!
References in XML text: `&name;` for the five predefined entities and `&#number;` for a character.
A text is resolved as a whole or not at all, and the first reference that stands for nothing says
why.
-/

namespace LivingDoc.Xml

/-- Why a number is no character. -/
inductive CharacterFault where
  | sign
  | noDigits
  | notADigit
  /-- The number needs more than 32 bits. -/
  | tooLarge
  | zero
  | notACharacter (code : Nat)
  deriving DecidableEq, Repr

/-- Why references in a text cannot be resolved. Positions are relative to the text. -/
inductive ReferenceFault where
  /-- No semicolon ends the reference that begins at `start`, before another one begins or the text
  ends at `stop`. -/
  | unterminated (start stop : Nat)
  /-- The name between `start` and `stop` is no predefined entity. -/
  | unknownEntity (start stop : Nat) (name : List Char)
  | character (fault : CharacterFault)
  deriving DecidableEq, Repr

/-- The words that state why a number is no character. -/
def CharacterFault.message : CharacterFault → String
  | sign => "unexpected number sign"
  | noDigits => "cannot parse integer from empty string"
  | notADigit => "invalid digit found in string"
  | tooLarge => "number too large to fit in target type"
  | zero => "0x0 character is not permitted in XML"
  | notACharacter code => "`" ++ toString code ++ "` is not a valid codepoint"

/-- The words that state a fault. -/
def ReferenceFault.message : ReferenceFault → String
  | unterminated start stop =>
    "Error while escaping character at range " ++ toString start ++ ".." ++ toString stop
      ++ ": Cannot find ';' after '&'"
  | unknownEntity start stop name =>
    "at " ++ toString start ++ ".." ++ toString stop ++ ": unrecognized entity `"
      ++ String.ofList name ++ "`"
  | character fault => "invalid character reference: " ++ fault.message

/-! ## One reference -/

/-- Appends digits to a number that has to stay below 2 ^ 32. -/
def appendDigits (radix : Nat) (number : Nat) : List Char → Except CharacterFault Nat
  | [] => .ok number
  | c :: rest =>
    match Text.digitValue? radix c with
    | none => .error .notADigit
    | some digit =>
      let longer := number * radix + digit
      if longer < 2 ^ 32 then appendDigits radix longer rest else .error .tooLarge

/-- The number that digits denote; they must not have a sign. -/
def number (radix : Nat) : List Char → Except CharacterFault Nat
  | [] => .error .noDigits
  | c :: rest =>
    if c = '+' || c = '-' then .error .sign else appendDigits radix 0 (c :: rest)

/-- The character with the number given after `#`: decimal, or hexadecimal after an `x`. -/
def numbered (digits : List Char) : Except CharacterFault Char := do
  let code ←
    match digits with
    | 'x' :: hex => number 16 hex
    | decimal => number 10 decimal
  if code = 0 then throw .zero
  if code.isValidChar then return Char.ofNat code
  else throw (.notACharacter code)

/-- The character of a predefined entity. -/
def predefined? (name : List Char) : Option Char :=
  [("lt", '<'), ("gt", '>'), ("amp", '&'), ("apos", '\''), ("quot", '"')].lookup
    (String.ofList name)

/-- The character that the reference with a name starting at a position stands for. -/
def resolve (start : Nat) (name : List Char) : Except ReferenceFault Char :=
  match name with
  | '#' :: digits =>
    match numbered digits with
    | .ok c => .ok c
    | .error fault => .error (.character fault)
  | _ =>
    match predefined? name with
    | some c => .ok c
    | none => .error (.unknownEntity start (start + size name) name)

/-! ## A whole text -/

/-- Whether a character ends the name of a reference, rightly or not. -/
def endsName (c : Char) : Bool :=
  c = '&' || c = ';'

/-- Resolves the references in the rest of a text that begins at a position. -/
def unescapeFrom (position : Nat) : List Char → Except ReferenceFault (List Char)
  | [] => .ok []
  | c :: rest =>
    if c = '&' then
      let name := rest.takeWhile (!endsName ·)
      match _h : rest.dropWhile (!endsName ·) with
      | ';' :: after => do
        let resolved ← resolve (position + 1) name
        return resolved :: (← unescapeFrom (position + 1 + size name + 1) after)
      | _ => .error (.unterminated position (position + size (c :: rest)))
    else return c :: (← unescapeFrom (position + c.utf8Size) rest)
termination_by text => text.length
decreasing_by
  · have := congrArg List.length _h
    have := Text.length_dropWhile_le (!endsName ·) rest
    simp_all only [List.length_cons]
    omega
  · simp

/-- A text with its references resolved. -/
def unescape (text : List Char) : Except ReferenceFault (List Char) :=
  unescapeFrom 0 text

end LivingDoc.Xml
