import LivingDoc.Json.Basic

/-!
Two ways to write a JSON value: without any blank, and laid out over lines with an indentation of
two spaces for each level. Both write the tokens of the value and differ in blanks only.
-/

namespace LivingDoc.Json

/-- A value written without blanks. -/
def compact (value : Json) : String :=
  String.ofList (value.tokens.flatMap Token.text)

/-- A new line with the indentation of a level. -/
def newLine (level : Nat) : List Char :=
  '\n' :: List.replicate (2 * level) ' '

mutual

/-- A value laid out over lines, in lines that begin at a level. -/
def layOut (level : Nat) : Json → List Char
  | .null => Token.null.text
  | .bool b => (Token.bool b).text
  | .num n => n.text
  | .str s => Quoted.text s
  | .list [] => ['[', ']']
  | .list (item :: items) =>
    '[' :: (newLine (level + 1) ++ (layOut (level + 1) item ++ layOutItems level items))
  | .object [] => ['{', '}']
  | .object ((key, value) :: members) =>
    '{' :: (newLine (level + 1) ++ (Quoted.text key
      ++ (':' :: ' ' :: (layOut (level + 1) value ++ layOutMembers level members))))

/-- The items after the first one, up to the end of the list. -/
def layOutItems (level : Nat) : List Json → List Char
  | [] => newLine level ++ [']']
  | item :: items =>
    ',' :: (newLine (level + 1) ++ (layOut (level + 1) item ++ layOutItems level items))

/-- The members after the first one, up to the end of the object. -/
def layOutMembers (level : Nat) : List (Option String × Json) → List Char
  | [] => newLine level ++ ['}']
  | (key, value) :: members =>
    ',' :: (newLine (level + 1) ++ (Quoted.text key
      ++ (':' :: ' ' :: (layOut (level + 1) value ++ layOutMembers level members))))

end

/-- A value laid out over lines. -/
def pretty (value : Json) : String :=
  String.ofList (layOut 0 value)

end LivingDoc.Json
