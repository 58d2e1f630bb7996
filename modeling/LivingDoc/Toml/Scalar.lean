import LivingDoc.Toml.Value

/-!
The words of TOML that are values without quotes: booleans, numbers, dates and times.

Whether a word is a number is decided by its shape. In a decimal integer the shape asks only for
digits up to the first underscore and for hexadecimal digits next to each underscore; that there is
anything but decimal digits, be it a tab and another word, is found when the value is asked for. All
other numbers have to be written in full agreement with the format.
-/

namespace LivingDoc.Toml

/-! ## Numbers -/

/-- The sign in front of a word, and the rest. -/
def takeSign : List Char → Option Char × List Char
  | '+' :: rest => (some '+', rest)
  | '-' :: rest => (some '-', rest)
  | word => (none, word)

/-- Whether each underscore in the rest of a word stands between two digits. `afterDigit` says
whether a digit comes right before the rest. -/
def isGroupedFrom (isDigit : Char → Bool) (afterDigit : Bool) : List Char → Bool
  | [] => true
  | '_' :: rest => afterDigit && rest.head?.any isDigit && isGroupedFrom isDigit false rest
  | c :: rest => isGroupedFrom isDigit (isDigit c) rest

/-- Whether each underscore of a word stands between two digits. -/
def isGrouped (isDigit : Char → Bool) (word : List Char) : Bool :=
  isGroupedFrom isDigit false word

/-- A word without its underscores. -/
def ungrouped (word : List Char) : List Char :=
  word.filter (· != '_')

/-- The radix that a letter after a zero names. -/
def radix? : Char → Option Nat
  | 'x' => some 16
  | 'o' => some 8
  | 'b' => some 2
  | _ => none

/-- The integer that a word with a radix denotes. It has no sign. -/
def radixInteger? : List Char → Option Integer
  | '0' :: letter :: digits => do
    let radix ← radix? letter
    if digits.all (fun c => c == '_' || Text.isDigitOf radix c)
        && isGrouped (Text.isDigitOf 16) digits then
      some ⟨false, radix, ungrouped digits⟩
    else none
  | _ => none

/-- Whether a character marks a float. -/
def marksFloat (c : Char) : Bool :=
  c = '.' || c = 'e' || c = 'E'

/-- The integer that a decimal word denotes, with or without a sign. -/
def decimalInteger? (word : List Char) : Option Integer :=
  let (sign, digits) := takeSign word
  let more := digits.dropWhile Char.isDigit
  if digits != [] && (digits.head? != some '0' || digits = ['0'])
      && (more = [] || more.head? = some '_') && !more.any marksFloat && !more.contains ' '
      && isGrouped (Text.isDigitOf 16) digits then
    some ⟨sign = some '-', 10, ungrouped digits⟩
  else none

/-- Whether a text consists of digits and underscores, with at least one digit. -/
def isDigitRun (text : List Char) : Bool :=
  text.all (fun c => c.isDigit || c = '_') && text.any Char.isDigit

/-- The digits of a fraction with its point, or none where there is no fraction. -/
def fraction? : List Char → Option (List Char)
  | [] => some []
  | _ :: digits => if isDigitRun digits then some digits else none

/-- The value of an exponent with its mark, or zero where there is no exponent. -/
def exponent? : List Char → Option Int
  | [] => some 0
  | _ :: exponent =>
    let (sign, digits) := takeSign exponent
    let size := (Decimal.value (ungrouped digits) : Int)
    if isDigitRun digits then some (if sign = some '-' then -size else size) else none

/-- The decimal that a word with a fraction, an exponent or both denotes, with or without a
sign. -/
def decimal? (word : List Char) : Option Decimal := do
  let unsigned := (takeSign word).2
  let mantissa := unsigned.takeWhile fun c => c != 'e' && c != 'E'
  let whole := mantissa.takeWhile (· != '.')
  let fraction ← fraction? (mantissa.dropWhile (· != '.'))
  let exponent ← exponent? (unsigned.dropWhile fun c => c != 'e' && c != 'E')
  if whole != unsigned && isDigitRun whole
      && (whole.head? != some '0' || (ungrouped whole).length = 1)
      && isGrouped Char.isDigit unsigned then
    some ⟨ungrouped whole ++ ungrouped fraction, exponent - (ungrouped fraction).length⟩
  else none

/-- Whether a word stands for infinity or for no number. -/
def isSpecial (word : List Char) : Bool :=
  (takeSign word).2 = "inf".toList || (takeSign word).2 = "nan".toList

/-! ## Dates and times -/

/-- The number that two digits denote, if it lies in a range. -/
def twoDigits? (low high : Nat) (a b : Char) : Option Nat :=
  let n := (a.toNat - '0'.toNat) * 10 + (b.toNat - '0'.toNat)
  if a.isDigit && b.isDigit && low ≤ n && n ≤ high then some n else none

/-- The number of days of a month in a year of the Gregorian calendar. -/
def daysOfMonth (year month : Nat) : Nat :=
  if month = 2 then
    if year % 4 = 0 && (year % 100 != 0 || year % 400 = 0) then 29 else 28
  else if [4, 6, 9, 11].contains month then 30
  else 31

/-- Reads a date that exists, and returns what follows it. -/
def afterDate? : List Char → Option (List Char)
  | a :: b :: c :: d :: '-' :: e :: f :: '-' :: g :: h :: rest => do
    let century ← twoDigits? 0 99 a b
    let year ← twoDigits? 0 99 c d
    let month ← twoDigits? 1 12 e f
    let _ ← twoDigits? 1 (daysOfMonth (century * 100 + year) month) g h
    return rest
  | _ => none

/-- Reads the fraction of a second, if there is a point. -/
def afterFraction? : List Char → Option (List Char)
  | '.' :: rest => if rest.head?.any Char.isDigit then some (rest.dropWhile Char.isDigit) else none
  | rest => some rest

/-- Reads a time of day, with or without seconds, and returns what follows it. A minute may have a
leap second. -/
def afterTime? : List Char → Option (List Char)
  | a :: b :: ':' :: c :: d :: ':' :: e :: f :: rest => do
    let _ ← twoDigits? 0 23 a b
    let _ ← twoDigits? 0 59 c d
    let _ ← twoDigits? 0 60 e f
    afterFraction? rest
  | a :: b :: ':' :: c :: d :: rest => do
    let _ ← twoDigits? 0 23 a b
    let _ ← twoDigits? 0 59 c d
    return rest
  | _ => none

/-- Whether a text is nothing or an offset from universal time. -/
def isOffset : List Char → Bool
  | [] => true
  | ['Z'] => true
  | ['z'] => true
  | [sign, a, b, ':', c, d] =>
    (sign = '+' || sign = '-') && (twoDigits? 0 23 a b).isSome && (twoDigits? 0 59 c d).isSome
  | _ => false

/-- Whether a text is a time of day, a date, or both with or without an offset. -/
def isDateTime (text : List Char) : Bool :=
  match afterDate? text with
  | none => afterTime? text = some []
  | some [] => true
  | some (separator :: time) =>
    (separator = 'T' || separator = 't' || separator = ' ') && (afterTime? time).any isOffset

/-! ## Words -/

/-- The value of a word. -/
def ofWord? (word : List Char) : Option Value :=
  if word = "true".toList then some (.boolean true)
  else if word = "false".toList then some (.boolean false)
  else if isSpecial word then some (.float none)
  else if isDateTime word then some (.dateTime (String.ofList word))
  else
    match (radixInteger? word).or (decimalInteger? word) with
    | some n => some (.integer n)
    | none => (decimal? word).map fun n => .float (some n)

end LivingDoc.Toml
