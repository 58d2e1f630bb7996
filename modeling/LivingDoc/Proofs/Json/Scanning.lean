import LivingDoc.Json.Token
import LivingDoc.Proofs.Text.Cut
import Mathlib.Tactic.MkIffOfInductiveProp

/-!
Tokens are read as they are written.

A string comes back with its escapes undone, whichever were used, and a number with its spelling.
Only a number could take up what follows it, so a text that spells tokens, with any blanks between
them, is read as these tokens if nothing that goes on a number follows one.
-/

namespace LivingDoc.Json

/-! ## Strings -/

namespace Quoted

theorem digitValue?_hexDigit : ∀ n < 16, Text.digitValue? 16 (hexDigit n) = some n := by
  decide

theorem unit?_hexDigit {n : Nat} (h : n < 0x20) :
    unit? '0' '0' (hexDigit (n / 16)) (hexDigit (n % 16)) = some n := by
  have zero : Text.digitValue? 16 '0' = some 0 := by decide
  have high := digitValue?_hexDigit (n / 16) (by omega)
  have low := digitValue?_hexDigit (n % 16) (by omega)
  simp only [unit?, Text.number?, List.foldlM_cons, List.foldlM_nil, zero, high, low,
    Option.map_some, Option.bind_eq_bind, Option.bind_some, Option.pure_def, Option.some.injEq]
  omega

theorem takeParts?_unit {a b c d : Char} {n : Nat} (named : unit? a b c d = some n)
    (rest : List Char) :
    takeParts? ('\\' :: 'u' :: a :: b :: c :: d :: rest) =
      (takeParts? rest).map fun taken => (.unit n :: taken.1, taken.2) := by
  rw [takeParts?, named]
  cases takeParts? rest <;> rfl

theorem takeParts?_letter {letter c : Char} (named : unescape? letter = some c)
    (rest : List Char) :
    takeParts? ('\\' :: letter :: rest) =
      (takeParts? rest).map fun taken => (.char c :: taken.1, taken.2) := by
  have other : letter ≠ 'u' := by
    rintro rfl
    cases named
  rw [takeParts?, named]
  · cases takeParts? rest <;> rfl
  · exact fun _ _ _ _ _ same => absurd same other

theorem takeParts?_printed {c : Char} (other : c ≠ '"') (unescaped : c ≠ '\\')
    (printed : ¬ c.toNat < 0x20) (rest : List Char) :
    takeParts? (c :: rest) =
      (takeParts? rest).map fun taken => (.char c :: taken.1, taken.2) := by
  rw [takeParts?.eq_def]
  split
  · next h => cases h
  · next h => exact absurd (List.cons.inj h).1 other
  · next h => exact absurd (List.cons.inj h).1 unescaped
  · next h => exact absurd (List.cons.inj h).1 unescaped
  · next h =>
    cases h
    rw [if_neg (by simp [unescaped, printed])]
    cases takeParts? rest <;> rfl

/-- `Writes text parts`: between quotes, the text writes the parts one after the other. A character
may stand for itself unless it has to be escaped, and any code unit may be given by its number. -/
inductive Writes : List Char → List Part → Prop
  | nil : Writes [] []
  | char {c : Char} {text : List Char} {parts : List Part} :
    c ≠ '"' → c ≠ '\\' → ¬ c.toNat < 0x20 → Writes text parts →
    Writes (c :: text) (.char c :: parts)
  | letter {letter c : Char} {text : List Char} {parts : List Part} :
    unescape? letter = some c → Writes text parts →
    Writes ('\\' :: letter :: text) (.char c :: parts)
  | unit {a b c d : Char} {n : Nat} {text : List Char} {parts : List Part} :
    unit? a b c d = some n → Writes text parts →
    Writes ('\\' :: 'u' :: a :: b :: c :: d :: text) (.unit n :: parts)

/-- What is written before a closing quote is read as it is written. -/
theorem Writes.takeParts?_eq {text : List Char} {parts : List Part} (writes : Writes text parts)
    (rest : List Char) : takeParts? (text ++ '"' :: rest) = some (parts, rest) := by
  induction writes with
  | nil => rfl
  | char other unescaped printed _ ih =>
      rw [List.cons_append, takeParts?_printed other unescaped printed, ih]
      rfl
  | letter named _ ih =>
      rw [List.cons_append, List.cons_append, takeParts?_letter named, ih]
      rfl
  | unit named _ ih =>
      simp only [List.cons_append]
      rw [takeParts?_unit named, ih]
      rfl

/-- The escape of a character is one way to write it. -/
theorem exists_writes_escape (c : Char) {text : List Char} {parts : List Part}
    (writes : Writes text parts) :
    ∃ part, Writes (escape c ++ text) (part :: parts) ∧
      characters? (part :: parts) = (characters? parts).map (c :: ·) := by
  unfold escape
  split
  -- Escapes by a letter come first; of the rest, control characters are written as code units.
  case h_8 other unescaped _ _ _ _ _ =>
    split
    · next control =>
      refine ⟨.unit c.toNat, .unit (unit?_hexDigit control) writes, ?_⟩
      have first : ¬ 0xD800 ≤ c.toNat := by omega
      have second : ¬ 0xDC00 ≤ c.toNat := by omega
      rw [characters?.eq_def]
      simp [first, second, Char.ofNat_toNat]
    · next printed => exact ⟨.char c, .char other unescaped printed writes, rfl⟩
  all_goals exact ⟨.char _, .letter rfl writes, rfl⟩

/-- The escapes of all characters are one way to write a string. -/
theorem exists_writes_escapes (s : List Char) :
    ∃ parts, Writes (s.flatMap escape) parts ∧ characters? parts = some s := by
  induction s with
  | nil => exact ⟨[], .nil, rfl⟩
  | cons c s ih =>
      obtain ⟨parts, writes, denoted⟩ := ih
      obtain ⟨part, writes, means⟩ := exists_writes_escape c writes
      refine ⟨part :: parts, writes, ?_⟩
      rw [means, denoted]
      rfl

end Quoted

/-! ## Numbers -/

/-- Whether characters are the digits of a part of a number: there is at least one. -/
def AreDigits (digits : List Char) : Prop :=
  digits ≠ [] ∧ ∀ c ∈ digits, c.isDigit = true

instance (digits : List Char) : Decidable (AreDigits digits) :=
  decidable_of_iff (digits ≠ [] ∧ digits.all Char.isDigit = true)
    (by rw [List.all_eq_true, AreDigits])

theorem AreDigits.exists_cons {digits : List Char} (run : AreDigits digits) :
    ∃ first more, digits = first :: more ∧ first.isDigit = true := by
  obtain ⟨first, more, rfl⟩ := List.exists_cons_of_ne_nil run.1
  exact ⟨first, more, rfl, run.2 first List.mem_cons_self⟩

theorem ne_of_isDigit {c other : Char} (digit : c.isDigit = true) (mark : other.isDigit = false) :
    c ≠ other := by
  rintro rfl
  rw [digit] at mark
  cases mark

/-- An exponent as the grammar of JSON has it. -/
@[mk_iff]
structure Exponent.IsSpelled (exponent : Exponent) : Prop where
  mark : exponent.mark = 'e' ∨ exponent.mark = 'E'
  sign : ∀ sign ∈ exponent.sign, sign = '+' ∨ sign = '-'
  digits : AreDigits exponent.digits

instance (exponent : Exponent) : Decidable exponent.IsSpelled :=
  decidable_of_iff ((exponent.mark = 'e' ∨ exponent.mark = 'E') ∧
      exponent.sign.all (fun sign => sign = '+' ∨ sign = '-') = true ∧ AreDigits exponent.digits)
    (by simp [Exponent.isSpelled_iff, Option.all_eq_true])

/-- A number as the grammar of JSON has it: no zero stands in front of other digits. -/
@[mk_iff]
structure Numeral.IsSpelled (n : Numeral) : Prop where
  whole : AreDigits n.whole
  leading : n.whole.head? = some '0' → n.whole = ['0']
  fraction : ∀ digits ∈ n.fraction, AreDigits digits
  exponent : ∀ exponent ∈ n.exponent, exponent.IsSpelled

instance (n : Numeral) : Decidable n.IsSpelled :=
  decidable_of_iff' _ (Numeral.isSpelled_iff n)

namespace Numeral

/-- Whether a character may go on a number. -/
def goesOn (c : Char) : Bool :=
  c.isDigit || c == '.' || c == 'e' || c == 'E'

theorem goesOn_eq_false_iff {c : Char} :
    goesOn c = false ↔ c.isDigit = false ∧ c ≠ '.' ∧ c ≠ 'e' ∧ c ≠ 'E' := by
  simp only [goesOn, Bool.or_eq_false_iff, beq_eq_false_iff_ne, and_assoc]

/-- Whether nothing that goes on a number is in front of a text. -/
def Stops (rest : List Char) : Prop :=
  ∀ c ∈ rest.head?, goesOn c = false

theorem takeSign_append (negative : Bool) {whole : List Char} (digits : AreDigits whole)
    (rest : List Char) :
    takeSign ((if negative then ['-'] else []) ++ (whole ++ rest)) = (negative, whole ++ rest) := by
  cases negative with
  | true => rfl
  | false =>
      obtain ⟨first, more, rfl, digit⟩ := digits.exists_cons
      have noMinus : first ≠ '-' := ne_of_isDigit digit rfl
      change takeSign (first :: (more ++ rest)) = _
      simp [takeSign, noMinus]

theorem takeExponentSign_append {sign : Option Char} {digits : List Char}
    (spelled : ∀ written ∈ sign, written = '+' ∨ written = '-') (run : AreDigits digits)
    (rest : List Char) :
    takeExponentSign (sign.toList ++ (digits ++ rest)) = (sign, digits ++ rest) := by
  cases sign with
  | some sign => rcases spelled sign rfl with rfl | rfl <;> rfl
  | none =>
      obtain ⟨first, more, rfl, digit⟩ := run.exists_cons
      have noPlus : first ≠ '+' := ne_of_isDigit digit rfl
      have noMinus : first ≠ '-' := ne_of_isDigit digit rfl
      change takeExponentSign (first :: (more ++ rest)) = _
      simp [takeExponentSign, noPlus, noMinus]

theorem takeExponent?_append {exponent : Option Exponent} {rest : List Char}
    (spelled : ∀ written ∈ exponent, written.IsSpelled) (stops : Stops rest) :
    takeExponent? (exponent.elim [] Exponent.text ++ rest) = some (exponent, rest) := by
  cases exponent with
  | none =>
      cases rest with
      | nil => rfl
      | cons c rest =>
          obtain ⟨_, _, noMark, noCapital⟩ := goesOn_eq_false_iff.mp (stops c rfl)
          exact if_neg (by simp [noMark, noCapital])
  | some exponent =>
      obtain ⟨mark, sign, digits⟩ := exponent
      have written := spelled _ rfl
      obtain ⟨taken, left⟩ := Text.run_append written.digits.2 fun c first =>
        (goesOn_eq_false_iff.mp (stops c first)).1
      have isMark : (decide (mark = 'e') || decide (mark = 'E')) = true := by
        simpa using written.mark
      change takeExponent? (mark :: ((sign.toList ++ digits) ++ rest)) = _
      rw [List.append_assoc, takeExponent?, if_pos isMark,
        takeExponentSign_append written.sign written.digits]
      simp [taken, left, written.digits.1]

theorem takeFraction?_append {fraction : Option (List Char)} {rest : List Char}
    (spelled : ∀ digits ∈ fraction, AreDigits digits)
    (stops : ∀ c ∈ rest.head?, c.isDigit = false ∧ c ≠ '.') :
    takeFraction? (fraction.elim [] (fun digits => '.' :: digits) ++ rest) =
      some (fraction, rest) := by
  cases fraction with
  | none =>
      change takeFraction? rest = _
      unfold takeFraction?
      split
      · exact absurd rfl (stops '.' rfl).2
      · rfl
  | some digits =>
      obtain ⟨taken, left⟩ :=
        Text.run_append (spelled digits rfl).2 fun c first => (stops c first).1
      change takeFraction? ('.' :: (digits ++ rest)) = _
      simp [takeFraction?, taken, left, (spelled digits rfl).1]

theorem takeWhole?_append {whole rest : List Char} (digits : AreDigits whole)
    (leading : whole.head? = some '0' → whole = ['0'])
    (stops : ∀ c ∈ rest.head?, c.isDigit = false) :
    takeWhole? (whole ++ rest) = some (whole, rest) := by
  obtain ⟨taken, left⟩ := Text.run_append digits.2 stops
  unfold takeWhole?
  rw [taken, left]
  refine if_pos ?_
  by_cases zero : whole.head? = some '0'
  · simp [leading zero]
  · simp [digits.1, zero]

/-- What follows a fraction goes on neither its digits nor the digits before it. -/
theorem stops_exponent {exponent : Option Exponent} {rest : List Char}
    (spelled : ∀ written ∈ exponent, written.IsSpelled) (stops : Stops rest) :
    ∀ c ∈ (exponent.elim [] Exponent.text ++ rest).head?, c.isDigit = false ∧ c ≠ '.' := by
  cases exponent with
  | none =>
      intro c first
      obtain ⟨noDigit, noPoint, _⟩ := goesOn_eq_false_iff.mp (stops c first)
      exact ⟨noDigit, noPoint⟩
  | some exponent =>
      intro c first
      cases first
      rcases (spelled _ rfl).mark with mark | mark <;> rw [mark] <;> decide

theorem stops_fraction (fraction : Option (List Char)) {rest : List Char}
    (stops : ∀ c ∈ rest.head?, c.isDigit = false ∧ c ≠ '.') :
    ∀ c ∈ (fraction.elim [] (fun digits => '.' :: digits) ++ rest).head?, c.isDigit = false := by
  cases fraction with
  | none => exact fun c first => (stops c first).1
  | some digits =>
      intro c first
      cases first
      decide

/-- A number begins with a minus sign or a digit. -/
theorem exists_text {n : Numeral} (spelled : n.IsSpelled) :
    ∃ first more, n.text = first :: more ∧ (first = '-' ∨ first.isDigit = true) := by
  obtain ⟨first, more, whole, digit⟩ := spelled.whole.exists_cons
  unfold text
  cases n.negative with
  | true => exact ⟨_, _, rfl, .inl rfl⟩
  | false => exact ⟨first, _, by rw [whole]; rfl, .inr digit⟩

/-- A number is read as it is written, with its spelling. -/
theorem take?_text {n : Numeral} (spelled : n.IsSpelled) {rest : List Char} (stops : Stops rest) :
    take? (n.text ++ rest) = some (n, rest) := by
  obtain ⟨negative, whole, fraction, exponent⟩ := n
  have afterFraction := stops_exponent spelled.exponent stops
  have afterWhole := stops_fraction fraction afterFraction
  simp only [take?, text, List.append_assoc, takeSign_append negative spelled.whole,
    takeWhole?_append spelled.whole spelled.leading afterWhole,
    takeFraction?_append spelled.fraction afterFraction,
    takeExponent?_append spelled.exponent stops, Option.bind_eq_bind, Option.bind_some,
    Option.pure_def]

end Numeral

/-! ## Tokens -/

namespace Token

/-- A token as the grammar of JSON has it. -/
def IsSpelled : Token → Prop
  | num n => n.IsSpelled
  | _ => True

instance : (token : Token) → Decidable token.IsSpelled
  | num n => inferInstanceAs (Decidable n.IsSpelled)
  | null | bool _ | str _ | openList | closeList | openObject | closeObject | comma | colon =>
    isTrue trivial

/-- Whether a token is a number. -/
def isNumber : Token → Bool
  | num _ => true
  | _ => false

/-- Whether a token cannot take up what follows it. -/
def EndsBefore (token : Token) (rest : List Char) : Prop :=
  token.isNumber = true → Numeral.Stops rest

/-- A minus sign or a digit begins nothing but a number. -/
theorem take?_of_begins {first : Char} (begins : first = '-' ∨ first.isDigit = true)
    (rest : List Char) :
    take? (first :: rest) =
      (Numeral.take? (first :: rest)).map fun taken => (num taken.1, taken.2) := by
  unfold take?
  split
  case h_11 => rfl
  all_goals
    next h =>
      cases (List.cons.inj h).1
      rcases begins with minus | digit
      · cases minus
      · cases digit

/-- `token.WrittenAs text`: the text is a way to write the token. Only strings have more than one. -/
inductive WrittenAs : Token → List Char → Prop
  | string {text : List Char} {parts : List Quoted.Part} :
    Quoted.Writes text parts →
    WrittenAs (str ((Quoted.characters? parts).map String.ofList)) ('"' :: (text ++ ['"']))
  | other {token : Token} :
    (∀ s, token ≠ str s) → token.IsSpelled → WrittenAs token token.text

/-- The usual way to write a token. -/
theorem writtenAs_text {token : Token} (spelled : token.IsSpelled) :
    token.WrittenAs token.text := by
  cases token with
  | str s =>
      cases s with
      | none => exact .string (.unit (n := 0xD800) (by decide) .nil)
      | some s =>
          obtain ⟨parts, writes, denoted⟩ := Quoted.exists_writes_escapes s.toList
          have written := WrittenAs.string writes
          rw [denoted, Option.map_some, String.ofList_toList] at written
          exact written
  | _ => exact .other nofun spelled

/-- A token is read as it is written. -/
theorem WrittenAs.take?_eq {token : Token} {text : List Char} (written : token.WrittenAs text)
    {rest : List Char} (ends : token.EndsBefore rest) :
    take? (text ++ rest) = some (token, rest) := by
  cases written with
  | @string text parts writes =>
      have taken := writes.takeParts?_eq rest
      rw [List.cons_append, List.append_assoc, List.singleton_append, take?, Quoted.take?, taken]
      rfl
  | other noString spelled =>
      cases token with
      | num n =>
          obtain ⟨first, more, begun, begins⟩ := Numeral.exists_text spelled
          have taken := Numeral.take?_text spelled (ends rfl)
          change take? (n.text ++ rest) = _
          rw [begun, List.cons_append] at taken ⊢
          rw [take?_of_begins begins, taken]
          rfl
      | str s => exact absurd rfl (noString s)
      | bool b => cases b <;> rfl
      | _ => rfl

/-- No token begins with a blank. -/
theorem WrittenAs.exists_cons {token : Token} {text : List Char} (written : token.WrittenAs text) :
    ∃ first more, text = first :: more ∧ isBlank first = false := by
  cases written with
  | string => exact ⟨'"', _, rfl, rfl⟩
  | other noString spelled =>
      cases token with
      | num n =>
          obtain ⟨first, more, begun, begins⟩ := Numeral.exists_text spelled
          refine ⟨first, more, begun, ?_⟩
          rcases begins with rfl | digit
          · rfl
          · simp [isBlank, ne_of_isDigit digit]
      | str s => exact absurd rfl (noString s)
      | bool b => cases b <;> exact ⟨_, _, rfl, rfl⟩
      | _ => exact ⟨_, _, rfl, rfl⟩

end Token

/-! ## Texts -/

/-- `Spells text tokens`: the text holds the tokens one after the other, each written in any way,
with any blanks between them. -/
inductive Spells : List Char → List Token → Prop
  | nil : Spells [] []
  | blank {c : Char} {text : List Char} {tokens : List Token} :
    isBlank c = true → Spells text tokens → Spells (c :: text) tokens
  | token {token : Token} {written text : List Char} {tokens : List Token} :
    token.WrittenAs written → token.EndsBefore text → Spells text tokens →
    Spells (written ++ text) (token :: tokens)

/-- Anything may follow a token that is no number. -/
theorem Spells.mark (token : Token) (noNumber : token.isNumber = false) {text : List Char}
    {rest : List Token} (spells : Spells text rest) :
    Spells (token.text ++ text) (token :: rest) := by
  refine .token (Token.writtenAs_text ?_) (fun number => ?_) spells
  · cases token with
    | num n => cases noNumber
    | _ => trivial
  · rw [noNumber] at number
    cases number

/-- A blank may follow every token. -/
theorem spells_spaced {blank : Char} (blanks : isBlank blank = true) {tokens : List Token}
    (spelled : ∀ token ∈ tokens, token.IsSpelled) :
    Spells (tokens.flatMap fun token => token.text ++ [blank]) tokens := by
  induction tokens with
  | nil => exact .nil
  | cons token tokens ih =>
      rw [List.forall_mem_cons] at spelled
      rw [List.flatMap_cons, List.append_assoc]
      refine .token (Token.writtenAs_text spelled.1) (fun _ c first => ?_)
        (.blank blanks (ih spelled.2))
      cases first
      simp only [isBlank, Bool.or_eq_true, decide_eq_true_eq] at blanks
      rcases blanks with ((rfl | rfl) | rfl) | rfl <;> rfl

/-- **A text is read as the tokens it spells.** -/
theorem Spells.scan?_eq {text : List Char} {tokens : List Token} (spells : Spells text tokens) :
    Token.scan? text = some tokens := by
  induction spells with
  | nil => rw [Token.scan?]
  | blank isBlank _ ih => rw [Token.scan?, if_pos isBlank, ih]
  | @token token written text tokens writes ends _ ih =>
      obtain ⟨first, more, begun, visible⟩ := writes.exists_cons
      have taken := writes.take?_eq ends
      rw [begun, List.cons_append] at taken ⊢
      rw [Token.scan?, if_neg (by simp [visible])]
      split
      · next failed =>
        rw [taken] at failed
        cases failed
      · next found =>
        rw [taken] at found
        cases found
        rw [ih]
        rfl

end LivingDoc.Json
