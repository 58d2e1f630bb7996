import LivingDoc.Text.Digit

/-!
The inside of a quoted JSON string: escapes, and the characters they stand for.

An escape names a UTF-16 code unit. Two surrogates in the right order stand for one character;
any other surrogate stands for none. A string with such a surrogate is well-formed text but denotes
no sequence of characters, and is read as `none`.
-/

namespace LivingDoc.Json.Quoted

/-! ## Writing -/

/-- The lower-case hexadecimal digit of a number below 16. -/
def hexDigit (n : Nat) : Char :=
  if n < 10 then Char.ofNat ('0'.toNat + n) else Char.ofNat ('a'.toNat + (n - 10))

/-- How a character is written between quotes. Only the quote, the backslash and control characters
below U+0020 are escaped. -/
def escape (c : Char) : List Char :=
  match c with
  | '"' => ['\\', '"']
  | '\\' => ['\\', '\\']
  | '\x08' => ['\\', 'b']
  | '\x0c' => ['\\', 'f']
  | '\n' => ['\\', 'n']
  | '\r' => ['\\', 'r']
  | '\t' => ['\\', 't']
  | c =>
    if c.toNat < 0x20 then ['\\', 'u', '0', '0', hexDigit (c.toNat / 16), hexDigit (c.toNat % 16)]
    else [c]

/-- A string with its quotes. One that denotes no characters is written with a lone surrogate. -/
def text (s : Option String) : List Char :=
  match s with
  | some s => '"' :: (s.toList.flatMap escape ++ ['"'])
  | none => ['"', '\\', 'u', 'd', '8', '0', '0', '"']

/-! ## Reading -/

/-- One element between the quotes. -/
inductive Part where
  | char (c : Char)
  /-- A UTF-16 code unit given by its number. -/
  | unit (n : Nat)
  deriving DecidableEq, Repr

/-- The code unit that four hexadecimal digits name. -/
def unit? (a b c d : Char) : Option Nat :=
  Text.number? 16 [a, b, c, d]

/-- The character that a letter after a backslash stands for. -/
def unescape? : Char → Option Char
  | '"' => some '"'
  | '\\' => some '\\'
  | '/' => some '/'
  | 'b' => some '\x08'
  | 'f' => some '\x0c'
  | 'n' => some '\n'
  | 'r' => some '\r'
  | 't' => some '\t'
  | _ => none

/-- Reads what stands before the closing quote. The opening quote has been read. -/
def takeParts? : List Char → Option (List Part × List Char)
  | [] => none
  | '"' :: rest => some ([], rest)
  | '\\' :: 'u' :: a :: b :: c :: d :: rest => do
    let n ← unit? a b c d
    let (parts, rest) ← takeParts? rest
    return (.unit n :: parts, rest)
  | '\\' :: letter :: rest => do
    let c ← unescape? letter
    let (parts, rest) ← takeParts? rest
    return (.char c :: parts, rest)
  | c :: rest =>
    if c = '\\' || c.toNat < 0x20 then none
    else do
      let (parts, rest) ← takeParts? rest
      return (.char c :: parts, rest)

/-- The characters that parts stand for, if each surrogate has its partner. -/
def characters? : List Part → Option (List Char)
  | [] => some []
  | .char c :: parts => (characters? parts).map (c :: ·)
  | .unit n :: parts =>
    if 0xD800 ≤ n && n < 0xDC00 then
      match parts with
      | .unit m :: parts =>
        if 0xDC00 ≤ m && m < 0xE000 then
          (characters? parts).map
            (Char.ofNat (0x10000 + (n - 0xD800) * 0x400 + (m - 0xDC00)) :: ·)
        else none
      | _ => none
    else if 0xDC00 ≤ n && n < 0xE000 then none
    else (characters? parts).map (Char.ofNat n :: ·)

/-- Reads a string whose opening quote has been read. -/
def take? (s : List Char) : Option (Option String × List Char) := do
  let (parts, rest) ← takeParts? s
  return ((characters? parts).map String.ofList, rest)

theorem takeParts?_length {s rest : List Char} {parts : List Part}
    (h : takeParts? s = some (parts, rest)) : rest.length < s.length := by
  fun_induction takeParts? s generalizing parts rest with
  | case1 => simp at h
  | case2 => simp_all
  | case3 a b c d tail ih =>
    simp only [Option.bind_eq_bind, Option.bind_eq_some_iff, Option.pure_def, Option.some.injEq,
      Prod.mk.injEq, Prod.exists] at h
    obtain ⟨_, _, _, _, taken, _, rfl⟩ := h
    have := ih taken
    simp only [List.length_cons]
    omega
  | case4 letter tail _ ih =>
    simp only [Option.bind_eq_bind, Option.bind_eq_some_iff, Option.pure_def, Option.some.injEq,
      Prod.mk.injEq, Prod.exists] at h
    obtain ⟨_, _, _, _, taken, _, rfl⟩ := h
    have := ih taken
    simp only [List.length_cons]
    omega
  | case5 => simp at h
  | case6 c tail _ _ _ _ ih =>
    simp only [Option.bind_eq_bind, Option.bind_eq_some_iff, Option.pure_def, Option.some.injEq,
      Prod.mk.injEq, Prod.exists] at h
    obtain ⟨_, _, taken, _, rfl⟩ := h
    have := ih taken
    simp only [List.length_cons]
    omega

/-- Reading a string takes at least its closing quote. -/
theorem take?_length {s rest : List Char} {value : Option String}
    (h : take? s = some (value, rest)) : rest.length < s.length := by
  simp only [take?, Option.bind_eq_bind, Option.bind_eq_some_iff, Option.pure_def,
    Option.some.injEq, Prod.mk.injEq, Prod.exists] at h
  obtain ⟨_, _, taken, _, rfl⟩ := h
  exact takeParts?_length taken

end LivingDoc.Json.Quoted
