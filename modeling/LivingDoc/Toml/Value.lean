import LivingDoc.Decimal
import LivingDoc.Text.Digit

/-!
The values of TOML documents.

Numbers keep their digits. That a document holds a number says only that it has the shape of one;
whether its value can be had is asked where the number is used or passed over.
-/

namespace LivingDoc.Toml

/-- An integer as it is written, without underscores. -/
structure Integer where
  negative : Bool
  radix : Nat
  digits : List Char
  deriving DecidableEq, Repr

/-- A value. -/
inductive Value where
  | string (s : String)
  | boolean (b : Bool)
  | integer (n : Integer)
  /-- A float, or `none` for infinity and for what is no number. -/
  | float (n : Option Decimal)
  | dateTime (text : String)
  | array (items : List Value)
  | table (entries : List (String × Value))

/-- Whether an integer has digits of its radix only and fits 128 bits, with a sign bit if it is
negative. -/
def Integer.isSound (n : Integer) : Bool :=
  n.digits != [] && (Text.number? n.radix n.digits).any fun value =>
    if n.negative then value ≤ Nat.pow 2 127 else value < Nat.pow 2 128

mutual

/-- Whether the values of all numbers in a value can be had: integers are sound, and floats that
are not written as infinite are finite doubles. -/
def Value.isSound : Value → Bool
  | .string _ => true
  | .boolean _ => true
  | .integer n => n.isSound
  | .float n => n.all Decimal.isFinite
  | .dateTime _ => true
  | .array items => areSound items
  | .table entries => areSoundEntries entries

/-- Whether all items of an array are sound. -/
def areSound : List Value → Bool
  | [] => true
  | item :: items => item.isSound && areSound items

/-- Whether the values of all entries of a table are sound. -/
def areSoundEntries : List (String × Value) → Bool
  | [] => true
  | (_, value) :: entries => value.isSound && areSoundEntries entries

end

end LivingDoc.Toml
