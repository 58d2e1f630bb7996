import LivingDoc.Json.Numeral
import LivingDoc.Json.Quoted

/-!
The tokens of a JSON text. Blanks may stand anywhere between two tokens and mean nothing, so two
texts with the same tokens hold the same value.
-/

namespace LivingDoc.Json

/-- A word or mark of a JSON text. -/
inductive Token where
  | openList
  | closeList
  | openObject
  | closeObject
  | comma
  | colon
  | null
  | bool (b : Bool)
  | num (n : Numeral)
  /-- A string, or `none` for one that denotes no characters. -/
  | str (s : Option String)
  deriving DecidableEq, Repr

/-- The blanks of a JSON text. -/
def isBlank (c : Char) : Bool :=
  c = ' ' || c = '\t' || c = '\r' || c = '\n'

namespace Token

/-- How a token is written. -/
def text : Token → List Char
  | openList => ['[']
  | closeList => [']']
  | openObject => ['{']
  | closeObject => ['}']
  | comma => [',']
  | colon => [':']
  | null => ['n', 'u', 'l', 'l']
  | bool true => ['t', 'r', 'u', 'e']
  | bool false => ['f', 'a', 'l', 's', 'e']
  | num n => n.text
  | str s => Quoted.text s

/-- Reads the token at the front of a text. -/
def take? : List Char → Option (Token × List Char)
  | '[' :: rest => some (openList, rest)
  | ']' :: rest => some (closeList, rest)
  | '{' :: rest => some (openObject, rest)
  | '}' :: rest => some (closeObject, rest)
  | ',' :: rest => some (comma, rest)
  | ':' :: rest => some (colon, rest)
  | 'n' :: 'u' :: 'l' :: 'l' :: rest => some (null, rest)
  | 't' :: 'r' :: 'u' :: 'e' :: rest => some (bool true, rest)
  | 'f' :: 'a' :: 'l' :: 's' :: 'e' :: rest => some (bool false, rest)
  | '"' :: rest => (Quoted.take? rest).map fun (s, rest) => (str s, rest)
  | other => (Numeral.take? other).map fun (n, rest) => (num n, rest)

/-- Reading a token takes at least one character. -/
theorem take?_length {s rest : List Char} {token : Token} (h : take? s = some (token, rest)) :
    rest.length < s.length := by
  unfold take? at h
  split at h
  case h_10 =>
    simp only [Option.map_eq_some_iff, Prod.mk.injEq, Prod.exists] at h
    obtain ⟨_, _, taken, _, rfl⟩ := h
    have := Quoted.take?_length taken
    simp only [List.length_cons]
    omega
  case h_11 =>
    simp only [Option.map_eq_some_iff, Prod.mk.injEq, Prod.exists] at h
    obtain ⟨_, _, taken, _, rfl⟩ := h
    exact Numeral.take?_length taken
  all_goals
    simp only [Option.some.injEq, Prod.mk.injEq] at h
    obtain ⟨_, rfl⟩ := h
    simp only [List.length_cons]
    omega

/-- The tokens of a whole text. -/
def scan? : List Char → Option (List Token)
  | [] => some []
  | c :: rest =>
    if isBlank c then scan? rest
    else
      match _h : take? (c :: rest) with
      | none => none
      | some (token, rest) => (scan? rest).map (token :: ·)
termination_by s => s.length
decreasing_by
  · simp
  · exact take?_length _h

end Token
end LivingDoc.Json
