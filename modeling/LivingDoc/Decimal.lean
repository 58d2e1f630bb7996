/-!
Decimal numbers with any number of digits, and the question whether a double can hold one.

No decimal is ever computed with here, so the digits stay as they are written. The comparison with
the largest double is made in exact arithmetic.
-/

namespace LivingDoc

/-- A run of decimal digits, scaled by a power of ten. -/
structure Decimal where
  digits : List Char
  power : Int
  deriving DecidableEq, Repr

namespace Decimal

/-- The value of a run of decimal digits. -/
def value (digits : List Char) : Nat :=
  digits.foldl (fun n digit => 10 * n + (digit.toNat - '0'.toNat)) 0

/-- The least number that rounds to an infinite double. -/
def infiniteAt : Nat := Nat.pow 2 1024 - Nat.pow 2 970

/-- Whether the double nearest to a number is finite. This depends on the exact value only if the
first digit other than zero stands in the 309th place before the point, where that of `infiniteAt`
stands too. -/
def isFinite (n : Decimal) : Bool :=
  let digits := n.digits.dropWhile (· == '0')
  let places := (digits.length : Int) + n.power
  if digits = [] || places < 309 then true
  else if 309 < places then false
  else value digits * Nat.pow 10 n.power.toNat < infiniteAt * Nat.pow 10 (-n.power).toNat

end Decimal
end LivingDoc
