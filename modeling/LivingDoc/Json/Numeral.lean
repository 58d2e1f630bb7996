import LivingDoc.Decimal
import LivingDoc.Text.Cut

/-!
JSON numbers as they are written: reading one off a text, writing it back, and the question whether
a double can hold its value.

No number is ever computed with here, so a numeral keeps its spelling. Whether it fits a double is
decided in exact arithmetic, for a reader that collects digits in a word of 64 bits and then scales
the word by a power of ten.
-/

namespace LivingDoc.Json

open Text (length_dropWhile_le)

/-- The exponent of a numeral: the mark `e` or `E`, a sign if there is one, and the digits. -/
structure Exponent where
  mark : Char
  sign : Option Char
  digits : List Char
  deriving DecidableEq, Repr

/-- A number as it is written. -/
structure Numeral where
  negative : Bool
  whole : List Char
  fraction : Option (List Char)
  exponent : Option Exponent
  deriving DecidableEq, Repr

/-! ## Writing -/

/-- The spelling of an exponent. -/
def Exponent.text (exponent : Exponent) : List Char :=
  exponent.mark :: (exponent.sign.toList ++ exponent.digits)

namespace Numeral

/-- The spelling of a number. -/
def text (n : Numeral) : List Char :=
  (if n.negative then ['-'] else []) ++ (n.whole
    ++ ((n.fraction.elim [] fun digits => '.' :: digits) ++ n.exponent.elim [] Exponent.text))

/-- The numeral of a natural number. -/
def ofNat (n : Nat) : Numeral :=
  ⟨false, Nat.toDigits 10 n, none, none⟩

/-! ## Reading -/

/-- Reads the minus sign in front of a number. -/
def takeSign : List Char → Bool × List Char
  | '-' :: rest => (true, rest)
  | text => (false, text)

/-- Reads the digits before the point: at least one, and no zero in front of others. -/
def takeWhole? (text : List Char) : Option (List Char × List Char) :=
  let digits := text.takeWhile Char.isDigit
  if digits = ['0'] || (digits != [] && digits.head? != some '0') then
    some (digits, text.dropWhile Char.isDigit)
  else none

/-- Reads the point and the digits after it, if there is a point. -/
def takeFraction? : List Char → Option (Option (List Char) × List Char)
  | '.' :: rest =>
    let digits := rest.takeWhile Char.isDigit
    if digits = [] then none else some (some digits, rest.dropWhile Char.isDigit)
  | text => some (none, text)

/-- Reads the sign of an exponent, if there is one. -/
def takeExponentSign : List Char → Option Char × List Char
  | '+' :: rest => (some '+', rest)
  | '-' :: rest => (some '-', rest)
  | text => (none, text)

/-- Reads an exponent, if there is a mark for one. -/
def takeExponent? : List Char → Option (Option Exponent × List Char)
  | [] => some (none, [])
  | mark :: rest =>
    if mark = 'e' || mark = 'E' then
      let (sign, rest) := takeExponentSign rest
      let digits := rest.takeWhile Char.isDigit
      if digits = [] then none
      else some (some ⟨mark, sign, digits⟩, rest.dropWhile Char.isDigit)
    else some (none, mark :: rest)

/-- Reads the number at the front of a text, as long as it goes on. -/
def take? (text : List Char) : Option (Numeral × List Char) := do
  let (negative, text) := takeSign text
  let (whole, text) ← takeWhole? text
  let (fraction, text) ← takeFraction? text
  let (exponent, text) ← takeExponent? text
  return (⟨negative, whole, fraction, exponent⟩, text)

theorem takeSign_length_le (text : List Char) : (takeSign text).2.length ≤ text.length := by
  unfold takeSign
  split <;> simp

theorem takeWhole?_length {text digits rest : List Char}
    (h : takeWhole? text = some (digits, rest)) : rest.length < text.length := by
  unfold takeWhole? at h
  dsimp only at h
  split at h
  · next nonempty =>
    simp only [Option.some.injEq, Prod.mk.injEq] at h
    have parts := congrArg List.length (text.takeWhile_append_dropWhile (p := Char.isDigit))
    rw [List.length_append, h.1, h.2] at parts
    have some_digit : digits ≠ [] := by
      rintro rfl
      simp [h.1] at nonempty
    have := List.length_pos_iff.2 some_digit
    omega
  · simp at h

theorem takeFraction?_length {text rest : List Char} {digits : Option (List Char)}
    (h : takeFraction? text = some (digits, rest)) : rest.length ≤ text.length := by
  unfold takeFraction? at h
  split at h
  · next after =>
    dsimp only at h
    split at h
    · simp at h
    · simp only [Option.some.injEq, Prod.mk.injEq] at h
      have := length_dropWhile_le Char.isDigit after
      rw [← h.2, List.length_cons]
      omega
  · simp only [Option.some.injEq, Prod.mk.injEq] at h
    simp [h.2]

theorem takeExponentSign_length_le (text : List Char) :
    (takeExponentSign text).2.length ≤ text.length := by
  unfold takeExponentSign
  split <;> simp

theorem takeExponent?_length {text rest : List Char} {exponent : Option Exponent}
    (h : takeExponent? text = some (exponent, rest)) : rest.length ≤ text.length := by
  unfold takeExponent? at h
  split at h
  · simp only [Option.some.injEq, Prod.mk.injEq] at h
    simp [← h.2]
  · next mark after =>
    split at h
    · dsimp only at h
      split at h
      · simp at h
      · simp only [Option.some.injEq, Prod.mk.injEq] at h
        have := takeExponentSign_length_le after
        have := length_dropWhile_le Char.isDigit (takeExponentSign after).2
        rw [← h.2, List.length_cons]
        omega
    · simp only [Option.some.injEq, Prod.mk.injEq] at h
      simp [← h.2]

/-- Reading a number takes at least one character. -/
theorem take?_length {text rest : List Char} {n : Numeral} (h : take? text = some (n, rest)) :
    rest.length < text.length := by
  simp only [take?, Option.bind_eq_bind, Option.bind_eq_some_iff, Option.pure_def,
    Option.some.injEq, Prod.mk.injEq, Prod.exists] at h
  obtain ⟨_, _, whole, _, _, fraction, _, _, exponent, _, rfl⟩ := h
  have := takeSign_length_le text
  have := takeWhole?_length whole
  have := takeFraction?_length fraction
  have := takeExponent?_length exponent
  omega

/-! ## Size -/

/-- Appends digits to a word of 64 bits while it can hold them; the second part is what is left. -/
def collect (word : Nat) : List Char → Nat × List Char
  | [] => (word, [])
  | digit :: digits =>
    let longer := 10 * word + (digit.toNat - '0'.toNat)
    if longer < 2 ^ 64 then collect longer digits else (word, digit :: digits)

/-- The natural number with at most 53 significant bits that is nearest to `n`, and of two equally
near ones the one with an even last bit. -/
def roundToDouble (n : Nat) : Nat :=
  let unit := Nat.pow 2 (n.log2 + 1 - 53)
  let below := n / unit
  let twice := 2 * (n % unit)
  (if unit < twice || (twice = unit && below % 2 = 1) then below + 1 else below) * unit

/-- The value of an exponent with its sign. -/
def exponentValue (n : Numeral) : Int :=
  n.exponent.elim 0 fun exponent =>
    if exponent.sign = some '-' then -(Decimal.value exponent.digits : Int)
    else Decimal.value exponent.digits

/-- The significant digits that are kept, as a word, and the power of ten that scales them. Digits
before the point that the word cannot hold still count for the power; those after it are dropped. -/
def scaled (n : Numeral) : Nat × Int :=
  let (word, uncounted) := collect 0 n.whole
  let fraction := n.fraction.getD []
  let (word, dropped) := collect word fraction
  (word, uncounted.length - ((fraction.length : Int) - dropped.length) + n.exponentValue)

/-- Whether scaling the kept digits stays below what rounds to an infinite double. -/
def fitsDouble (n : Numeral) : Bool :=
  let (word, power) := n.scaled
  if word = 0 || power < 0 then true
  else if power ≤ 308 then
    let factor := Nat.pow 10 power.toNat
    roundToDouble word * roundToDouble factor < Decimal.infiniteAt
  else false

/-- The value of a numeral that is a natural number with neither sign, point nor exponent. -/
def natural? (n : Numeral) : Option Nat :=
  if n.negative || n.fraction.isSome || n.exponent.isSome then none
  else some (Decimal.value n.whole)

end Numeral
end LivingDoc.Json
