import LivingDoc.Text.Digit

/-!
The strings of TOML: basic ones with escapes and literal ones without, each on one line or, in
three quotes, over several lines. A line break right after three opening quotes is no part of the
string; all others are kept as they are written.
-/

namespace LivingDoc.Toml

/-- Whether a character may stand in a string or comment as it is: no control character except the
tab. -/
def isPrintable (c : Char) : Bool :=
  c = '\t' || (0x20 ≤ c.toNat && c.toNat ≠ 0x7F)

/-- Whether a character is a blank within a line. -/
def isBlank (c : Char) : Bool :=
  c = ' ' || c = '\t'

/-! ## The extent of a string -/

/-- Cuts a text at the quote that ends a string on one line. With `escapes`, a backslash protects
the character after it; `escaped` says that one has just been read. -/
def cutLine? (quote : Char) (escapes escaped : Bool) :
    List Char → Option (List Char × List Char)
  | [] => none
  | c :: rest =>
    if c = quote && !escaped then some ([], rest)
    else
      (cutLine? quote escapes (escapes && c == '\\' && !escaped) rest).map
        fun (inside, after) => (c :: inside, after)

/-- Cuts a text at the three quotes that end a string over lines. One or two more quotes in front
of them belong to the string. -/
def cutLines? (quote : Char) (escapes escaped : Bool) :
    List Char → Option (List Char × List Char)
  | [] => none
  | c :: rest =>
    if [quote, quote, quote].isPrefixOf (c :: rest) && !escaped then
      let more := min 2 ((rest.drop 2).takeWhile (· == quote)).length
      some (List.replicate more quote, rest.drop (2 + more))
    else
      (cutLines? quote escapes (escapes && c == '\\' && !escaped) rest).map
        fun (inside, after) => (c :: inside, after)

/-! ## The characters of a string -/

/-- The character with the number that hexadecimal digits denote. -/
def hexCharacter? (digits : List Char) : Option Char :=
  (Text.number? 16 digits).bind fun n => if n.isValidChar then some (Char.ofNat n) else none

/-- The character that a letter after a backslash stands for. -/
def unescape? : Char → Option Char
  | 'b' => some '\x08'
  | 't' => some '\t'
  | 'n' => some '\n'
  | 'f' => some '\x0c'
  | 'r' => some '\r'
  | 'e' => some '\x1b'
  | '"' => some '"'
  | '\\' => some '\\'
  | _ => none

/-- Whether only blanks follow in the line. -/
def endsLine (text : List Char) : Bool :=
  match text.dropWhile isBlank with
  | '\n' :: _ => true
  | '\r' :: '\n' :: _ => true
  | _ => false

/-- What follows blanks and line breaks. A carriage return alone is no line break. -/
def dropLines : List Char → List Char
  | [] => []
  | '\r' :: '\n' :: rest => dropLines rest
  | c :: rest => if isBlank c || c = '\n' then dropLines rest else c :: rest

theorem length_dropLines_le (text : List Char) : (dropLines text).length ≤ text.length := by
  fun_induction dropLines text <;> grind

/-- Resolves the escapes of a basic string and checks its characters. With `lines`, line breaks are
allowed, and a backslash at the end of a line takes all blanks and line breaks after it away. -/
def resolveBasic? (lines : Bool) : List Char → Option (List Char)
  | [] => some []
  | '\\' :: 'x' :: a :: b :: rest => do
    return (← hexCharacter? [a, b]) :: (← resolveBasic? lines rest)
  | '\\' :: 'u' :: a :: b :: c :: d :: rest => do
    return (← hexCharacter? [a, b, c, d]) :: (← resolveBasic? lines rest)
  | '\\' :: 'U' :: a :: b :: c :: d :: e :: f :: g :: h :: rest => do
    return (← hexCharacter? [a, b, c, d, e, f, g, h]) :: (← resolveBasic? lines rest)
  | '\\' :: c :: rest =>
    match unescape? c with
    | some resolved => do return resolved :: (← resolveBasic? lines rest)
    | none =>
      if lines && endsLine (c :: rest) then
        resolveBasic? lines (dropLines (c :: rest))
      else none
  | '\r' :: '\n' :: rest =>
    if lines then do return '\r' :: '\n' :: (← resolveBasic? lines rest) else none
  | '\n' :: rest => if lines then do return '\n' :: (← resolveBasic? lines rest) else none
  | c :: rest =>
    if c ≠ '\\' && isPrintable c then do return c :: (← resolveBasic? lines rest) else none
termination_by text => text.length
decreasing_by
  all_goals simp only [List.length_cons]
  any_goals omega
  have := length_dropLines_le (c :: rest)
  rw [List.length_cons] at this
  omega

/-- Checks the characters of a literal string. With `lines`, line breaks are allowed. -/
def resolveLiteral? (lines : Bool) : List Char → Option (List Char)
  | [] => some []
  | '\r' :: '\n' :: rest =>
    if lines then do return '\r' :: '\n' :: (← resolveLiteral? lines rest) else none
  | '\n' :: rest => if lines then do return '\n' :: (← resolveLiteral? lines rest) else none
  | c :: rest => if isPrintable c then do return c :: (← resolveLiteral? lines rest) else none

/-- A text without a line break in front. -/
def withoutBreak : List Char → List Char
  | '\n' :: rest => rest
  | '\r' :: '\n' :: rest => rest
  | text => text

/-- Reads a string on one line. -/
def takeLineString? : List Char → Option (String × List Char)
  | '"' :: rest => do
    let (inside, rest) ← cutLine? '"' true false rest
    return (String.ofList (← resolveBasic? false inside), rest)
  | '\'' :: rest => do
    let (inside, rest) ← cutLine? '\'' false false rest
    return (String.ofList (← resolveLiteral? false inside), rest)
  | _ => none

/-- Reads a string, on one line or over several. -/
def takeString? : List Char → Option (String × List Char)
  | '"' :: '"' :: '"' :: rest => do
    let (inside, rest) ← cutLines? '"' true false rest
    return (String.ofList (← resolveBasic? true (withoutBreak inside)), rest)
  | '\'' :: '\'' :: '\'' :: rest => do
    let (inside, rest) ← cutLines? '\'' false false rest
    return (String.ofList (← resolveLiteral? true (withoutBreak inside)), rest)
  | text => takeLineString? text

end LivingDoc.Toml
