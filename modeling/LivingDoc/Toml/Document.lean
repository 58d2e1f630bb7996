import LivingDoc.Toml.Quoted
import LivingDoc.Toml.Scalar
import LivingDoc.Toml.Table

/-!
Reading TOML documents.

A document is a sequence of lines: headers of tables, and keys with values that belong to the table
of the last header. Arrays and inline tables may go over several lines. The readers of nested parts
carry a bound on the number of their calls, which the length of the text provides; how deeply
values may be nested is limited by the format.
-/

namespace LivingDoc.Toml

/-! ## Blanks, comments and keys -/

/-- What follows blanks, line breaks and comments. -/
def skipLines? (inComment : Bool) : List Char → Option (List Char)
  | [] => some []
  | '\r' :: '\n' :: rest => skipLines? false rest
  | '\n' :: rest => skipLines? false rest
  | c :: rest =>
    if inComment then if isPrintable c then skipLines? true rest else none
    else if isBlank c then skipLines? false rest
    else if c = '#' then skipLines? true rest
    else some (c :: rest)

/-- What follows the end of a line on which nothing but blanks and a comment is left. -/
def endLine? (inComment : Bool) : List Char → Option (List Char)
  | [] => some []
  | '\r' :: '\n' :: rest => some rest
  | '\n' :: rest => some rest
  | c :: rest =>
    if inComment then if isPrintable c then endLine? true rest else none
    else if isBlank c then endLine? false rest
    else if c = '#' then endLine? true rest
    else none

/-- Whether a character may stand in a key without quotes. -/
def isBare (c : Char) : Bool :=
  c.isAlphanum || c = '_' || c = '-'

/-- Reads one part of a key. -/
def takeKeyPart? (text : List Char) : Option (String × List Char) :=
  match text.takeWhile isBare with
  | [] => takeLineString? text
  | part => some (String.ofList part, text.dropWhile isBare)

/-- Reads the parts of a key, which are separated by points, and the blanks around them. -/
def takeKeyParts? : Nat → List Char → Option (List String × List Char)
  | 0, _ => none
  | bound + 1, text => do
    let (part, rest) ← takeKeyPart? (text.dropWhile isBlank)
    match rest.dropWhile isBlank with
    | '.' :: rest => do
      let (parts, rest) ← takeKeyParts? bound rest
      return (part :: parts, rest)
    | rest => return ([part], rest)

/-- How many parts a key may have, and how many arrays and inline tables may be open at once. -/
def depthLimit : Nat := 80

/-- Reads a key and the blanks around it. -/
def takeKey? (bound : Nat) (text : List Char) : Option (List String × List Char) := do
  let (parts, rest) ← takeKeyParts? bound text
  if parts.length ≤ depthLimit then some (parts, rest) else none

/-! ## Values -/

/-- The characters that end a value without quotes. -/
def separators : List Char :=
  ['=', ',', '[', ']', '{', '}', ' ', '\t', '#', '\r', '\n']

/-- Whether a character may stand in a value without quotes. -/
def isWordCharacter (c : Char) : Bool :=
  !separators.contains c

/-- Whether another word without quotes follows in the line after blanks. -/
def wordFollows (text : List Char) : Bool :=
  match text.dropWhile isBlank with
  | [] => false
  | c :: _ => isWordCharacter c && c != '"' && c != '\''

/-- Reads a value without quotes. It goes on over blanks as long as another word follows, because a
blank may stand between a date and a time. -/
def takeWord : List Char → List Char × List Char
  | [] => ([], [])
  | c :: rest =>
    if isWordCharacter c || (isBlank c && wordFollows rest) then
      let (word, after) := takeWord rest
      (c :: word, after)
    else ([], c :: rest)

mutual

/-- Reads a value, which opens at most `room` arrays and inline tables at once. -/
def takeValue? (room : Nat) : Nat → List Char → Option (Value × List Char)
  | 0, _ => none
  | bound + 1, text =>
    match text with
    | '[' :: rest =>
      match room with
      | 0 => none
      | room + 1 => do
        let (items, rest) ← takeItems? room bound rest
        return (.array items, rest)
    | '\x7b' :: rest =>
      match room with
      | 0 => none
      | room + 1 => do
        let (entries, rest) ← takeEntries? room bound [] rest
        return (.table (finishEntries entries), rest)
    | '"' :: _ => (takeString? text).map fun (s, rest) => (.string s, rest)
    | '\'' :: _ => (takeString? text).map fun (s, rest) => (.string s, rest)
    | _ =>
      let (word, rest) := takeWord text
      (ofWord? word).map fun value => (value, rest)

/-- Reads the items of an array and its end. -/
def takeItems? (room : Nat) : Nat → List Char → Option (List Value × List Char)
  | 0, _ => none
  | bound + 1, text => do
    match ← skipLines? false text with
    | ']' :: rest => return ([], rest)
    | text => do
      let (value, rest) ← takeValue? room bound text
      match ← skipLines? false rest with
      | ',' :: rest => do
        let (values, rest) ← takeItems? room bound rest
        return (value :: values, rest)
      | ']' :: rest => return ([value], rest)
      | _ => none

/-- Reads the entries of an inline table after those read so far, and its end. Line breaks and
comments may stand everywhere but inside a key. -/
def takeEntries? (room : Nat) : Nat → Entries → List Char → Option (Entries × List Char)
  | 0, _, _ => none
  | bound + 1, entries, text => do
    match ← skipLines? false text with
    | '\x7d' :: rest => return (entries, rest)
    | text => do
      let (key, rest) ← takeKey? bound text
      match ← skipLines? false rest with
      | '=' :: rest => do
        let (value, rest) ← takeValue? room bound (← skipLines? false rest)
        let entries ← entries.addValue? value key true
        match ← skipLines? false rest with
        | ',' :: rest => takeEntries? room bound entries rest
        | '\x7d' :: rest => return (entries, rest)
        | _ => none
      | _ => none

end

/-! ## Lines -/

/-- A line of a document that says something. -/
inductive Line where
  | header (array : Bool) (path : List String)
  | entry (key : List String) (value : Value)

/-- Reads a line. -/
def takeLine? (bound : Nat) : List Char → Option (Line × List Char)
  | '[' :: '[' :: rest => do
    match ← takeKey? bound rest with
    | (path, ']' :: ']' :: rest) => return (.header true path, ← endLine? false rest)
    | _ => none
  | '[' :: rest => do
    match ← takeKey? bound rest with
    | (path, ']' :: rest) => return (.header false path, ← endLine? false rest)
    | _ => none
  | text => do
    match ← takeKey? bound text with
    | (key, '=' :: rest) => do
      let (value, rest) ← takeValue? depthLimit bound (rest.dropWhile isBlank)
      return (.entry key value, ← endLine? false rest)
    | _ => none

/-- Reads lines up to the end of a text. Each takes at least one character, so their number is
within the bound. -/
def takeLines? (bound : Nat) : Nat → List Char → Option (List Line)
  | 0, _ => none
  | lines + 1, text => do
    match ← skipLines? false text with
    | [] => return []
    | text => do
      let (line, rest) ← takeLine? bound text
      return line :: (← takeLines? bound lines rest)

/-! ## Documents -/

/-- A document as far as it has been followed: the path of the last header and the tables. -/
structure Document where
  path : List String
  entries : Entries

/-- Follows one line. -/
def Document.follow? (document : Document) : Line → Option Document
  | .header array path => do return ⟨path, ← document.entries.addHeader? array path⟩
  | .entry key value => do
    let entries ← document.entries.changeAt? (Entries.addValue? value key true) document.path
    return { document with entries }

/-- A text without the byte order mark that may stand in front of it. -/
def withoutMark : List Char → List Char
  | '\uFEFF' :: text => text
  | text => text

/-- The entries of the outermost table of a document. -/
def parse? (text : String) : Option (List (String × Value)) := do
  let text := withoutMark text.toList
  let lines ← takeLines? (2 * text.length + 2) (text.length + 1) text
  let document ← lines.foldlM Document.follow? ⟨[], []⟩
  return finishEntries document.entries

end LivingDoc.Toml
