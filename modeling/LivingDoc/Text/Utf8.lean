/-!
Reading bytes as UTF-8.

The bytes fall into the characters they encode and, where they encode none, into stretches that
are no character. Such a stretch is as long as it can be while it still begins some encoding, and
at least one byte. A strict reader refuses bytes with such a stretch, a lenient one puts the
replacement character in its place.
-/

namespace LivingDoc.Text.Utf8

/-! ## One encoding -/

/-- How many bytes follow the first one of an encoding, and the bits that the first one gives. -/
def lead? (byte : UInt8) : Option (Nat × Nat) :=
  let n := byte.toNat
  if n < 0x80 then some (0, n)
  else if 0xC2 ≤ n && n ≤ 0xDF then some (1, n - 0xC0)
  else if 0xE0 ≤ n && n ≤ 0xEF then some (2, n - 0xE0)
  else if 0xF0 ≤ n && n ≤ 0xF4 then some (3, n - 0xF0)
  else none

/-- Whether a byte may come third or fourth in an encoding. -/
def isContinuation (byte : UInt8) : Bool :=
  0x80 ≤ byte.toNat && byte.toNat ≤ 0xBF

/-- Whether a byte may come second in the encoding that begins with `first`. The bounds exclude
overlong encodings, surrogates and what lies beyond the last code point. -/
def isSecond (first second : UInt8) : Bool :=
  let low := if first = 0xE0 then 0xA0 else if first = 0xF0 then 0x90 else 0x80
  let high := if first = 0xED then 0x9F else if first = 0xF4 then 0x8F else 0xBF
  low ≤ second.toNat && second.toNat ≤ high

/-- The bytes that belong to one encoding with the byte before them: as many as it asks for, or
fewer where a byte cannot belong to it. -/
def following (first : UInt8) (rest : List UInt8) : List UInt8 :=
  match rest.take ((lead? first).elim 0 Prod.fst) with
  | [] => []
  | second :: others =>
    if isSecond first second then second :: others.takeWhile isContinuation else []

theorem following_length_le (first : UInt8) (rest : List UInt8) :
    (following first rest).length ≤ rest.length := by
  unfold following
  split
  · simp
  · next second others h =>
    have taken := congrArg List.length h
    have shorter := (List.takeWhile_sublist isContinuation (l := others)).length_le
    simp only [List.length_take, List.length_cons] at taken
    split
    · simp only [List.length_cons]
      omega
    · simp

/-- The character that a first byte encodes with the bytes that follow it. -/
def character? (first : UInt8) (following : List UInt8) : Option Char :=
  match lead? first with
  | none => none
  | some (count, bits) =>
    if following.length = count then
      some (Char.ofNat (following.foldl (fun value byte => value * 64 + (byte.toNat - 0x80)) bits))
    else none

/-! ## A whole text -/

/-- The characters that bytes encode in order, with `none` for each stretch that encodes none. -/
def characters : List UInt8 → List (Option Char)
  | [] => []
  | first :: rest =>
    character? first (following first rest)
      :: characters (rest.drop (following first rest).length)
termination_by bytes => bytes.length
decreasing_by
  simp only [List.length_drop, List.length_cons]
  omega

/-- The text that bytes encode, if they encode one throughout. -/
def decode? (bytes : List UInt8) : Option String :=
  ((characters bytes).mapM id).map String.ofList

/-- The text that bytes encode, with U+FFFD in place of each stretch that encodes nothing. -/
def decodeLossy (bytes : List UInt8) : String :=
  String.ofList ((characters bytes).map fun c => c.getD '\uFFFD')

end LivingDoc.Text.Utf8
