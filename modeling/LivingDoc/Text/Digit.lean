/-!
Digits of a radix of at most 16 and the numbers they denote.
-/

namespace LivingDoc.Text

/-- The value of a digit in a radix, a letter in either case. -/
def digitValue? (radix : Nat) (c : Char) : Option Nat :=
  let value :=
    if '0' ≤ c && c ≤ '9' then c.toNat - '0'.toNat
    else if 'a' ≤ c && c ≤ 'f' then c.toNat - 'a'.toNat + 10
    else if 'A' ≤ c && c ≤ 'F' then c.toNat - 'A'.toNat + 10
    else radix
  if value < radix then some value else none

/-- Whether a character is a digit of a radix. -/
def isDigitOf (radix : Nat) (c : Char) : Bool :=
  (digitValue? radix c).isSome

/-- The number that digits of a radix denote; no digits denote zero. -/
def number? (radix : Nat) (digits : List Char) : Option Nat :=
  digits.foldlM (fun n digit => (digitValue? radix digit).map (n * radix + ·)) 0

end LivingDoc.Text
