import LivingDoc.Proofs.Text.Utf8
import Mathlib.Algebra.Group.Nat.Defs

/-!
Lenient decoding keeps the places of ASCII text.

An ASCII byte belongs to no longer encoding, so the bytes in front of one are decoded as if nothing
followed, whatever encoding they break off in. And an ASCII character is decoded from its own byte
only, so a marker of such characters stands in a decoded text only where its bytes stand.
-/

namespace LivingDoc.Text.Utf8

/-! ## In front of an ASCII byte -/

theorem isSecond_of_ascii {byte : UInt8} (ascii : byte.toNat < 0x80) (first : UInt8) :
    isSecond first byte = false := by
  unfold isSecond
  simp only [Bool.and_eq_false_iff, decide_eq_false_iff_not]
  left
  split_ifs <;> omega

theorem isContinuation_of_ascii {byte : UInt8} (ascii : byte.toNat < 0x80) :
    isContinuation byte = false := by
  unfold isContinuation
  simp only [Bool.and_eq_false_iff, decide_eq_false_iff_not]
  omega

/-- A run of a class that is cut off after some items does not reach an item outside the class. -/
theorem takeWhile_take_append {α : Type} {p : α → Bool} {stop : α} (outside : p stop = false)
    (items rest : List α) (n : Nat) :
    ((items ++ stop :: rest).take n).takeWhile p = (items.take n).takeWhile p := by
  induction items generalizing n with
  | nil => cases n <;> simp [outside]
  | cons item items ih => cases n <;> simp [List.takeWhile_cons, ih]

/-- No encoding reaches beyond an ASCII byte. -/
theorem following_append_ascii {byte : UInt8} (ascii : byte.toNat < 0x80) (first : UInt8)
    (bytes rest : List UInt8) :
    following first (bytes ++ byte :: rest) = following first bytes := by
  unfold following
  generalize (lead? first).elim 0 Prod.fst = count
  cases count with
  | zero => rfl
  | succ count =>
      cases bytes with
      | nil => simp [isSecond_of_ascii ascii]
      | cons second others =>
          have continues := takeWhile_take_append (isContinuation_of_ascii ascii) others rest count
          simp [continues]

/-- **Bytes in front of an ASCII byte are decoded on their own**, even if they break off in the
middle of an encoding. -/
theorem characters_append_ascii {byte : UInt8} (ascii : byte.toNat < 0x80)
    (bytes rest : List UInt8) :
    characters (bytes ++ byte :: rest) = characters bytes ++ characters (byte :: rest) := by
  fun_induction characters bytes with
  | case1 => rfl
  | case2 first bytes ih =>
      have whole := following_length_le first bytes
      rw [List.cons_append, characters, following_append_ascii ascii,
        List.drop_append_of_le_length whole, ih, List.cons_append]

/-! ## Markers -/

/-- The bytes that encode a text. -/
def encode (text : List Char) : List UInt8 :=
  text.flatMap String.utf8EncodeChar

/-- Whether a text consists of ASCII characters other than NUL. -/
def IsAscii (text : List Char) : Prop :=
  ∀ c ∈ text, 0 < c.toNat ∧ c.toNat < 0x80

instance (text : List Char) : Decidable (IsAscii text) :=
  decidable_of_iff (text.all (fun c => 0 < c.toNat ∧ c.toNat < 0x80) = true) (by simp [IsAscii])

theorem utf8EncodeChar_of_ascii {c : Char} (ascii : c.toNat < 0x80) :
    String.utf8EncodeChar c = [UInt8.ofNat c.toNat] := by
  rw [utf8EncodeChar_eq]
  exact if_pos (by omega)

theorem characters_encode_append (text : List Char) (rest : List UInt8) :
    characters (encode text ++ rest) = text.map some ++ characters rest := by
  induction text with
  | nil => rfl
  | cons c text ih =>
      change characters ((String.utf8EncodeChar c ++ encode text) ++ rest) = _
      rw [List.append_assoc, characters_encode, ih]
      rfl

theorem characters_marker {marker : List Char} (some_ : marker ≠ []) (ascii : IsAscii marker)
    (bytes rest : List UInt8) :
    characters (bytes ++ (encode marker ++ rest)) =
      characters bytes ++ (marker.map some ++ characters rest) := by
  rw [← characters_encode_append]
  obtain ⟨c, marker, rfl⟩ := List.exists_cons_of_ne_nil some_
  have small := (ascii c List.mem_cons_self).2
  rw [encode, List.flatMap_cons, utf8EncodeChar_of_ascii small]
  exact characters_append_ascii (by rwa [toNat_ofNat (by omega)]) bytes _

/-- The number that the last bytes of an encoding complete. -/
theorem le_foldl_continuation (bytes : List UInt8) (bits : Nat) :
    bits * 64 ^ bytes.length ≤
      bytes.foldl (fun value byte => value * 64 + (byte.toNat - 0x80)) bits := by
  induction bytes generalizing bits with
  | nil => simp
  | cons byte bytes ih =>
      have more := ih (bits * 64 + (byte.toNat - 0x80))
      have grows : bits * 64 * 64 ^ bytes.length ≤
          (bits * 64 + (byte.toNat - 0x80)) * 64 ^ bytes.length :=
        Nat.mul_le_mul_right _ (Nat.le_add_right _ _)
      rw [List.foldl_cons, List.length_cons, Nat.pow_succ, Nat.mul_comm (64 ^ bytes.length),
        ← Nat.mul_assoc]
      exact grows.trans more

/-- The least second byte after a first one, in numbers. -/
theorem le_of_isSecond {first second : UInt8} (follows : isSecond first second = true) :
    (first.toNat = 0xE0 → 0xA0 ≤ second.toNat) ∧ (first.toNat = 0xF0 → 0x90 ≤ second.toNat) := by
  rw [isSecond, Bool.and_eq_true, decide_eq_true_iff] at follows
  constructor <;> intro lead
  · have same : first = 0xE0 := UInt8.toNat_inj.mp lead
    rw [if_pos same] at follows
    exact follows.1
  · have same : first = 0xF0 := UInt8.toNat_inj.mp lead
    rw [if_neg (by rw [same]; decide), if_pos same] at follows
    exact follows.1

/-- More than one byte encodes no ASCII character, as no encoding is longer than it has to be. -/
theorem le_foldl_of_isSecond {first second : UInt8} {others : List UInt8} {bits : Nat}
    (lead : lead? first = some (others.length + 1, bits))
    (follows : isSecond first second = true) :
    0x80 ≤ (second :: others).foldl (fun value byte => value * 64 + (byte.toNat - 0x80)) bits := by
  rw [List.foldl_cons]
  refine le_trans ?_ (le_foldl_continuation others _)
  have least := le_of_isSecond follows
  unfold lead? at lead
  simp only [Bool.and_eq_true, decide_eq_true_iff] at lead
  split_ifs at lead with one two three four
  · cases lead
  all_goals
    simp only [Option.some.injEq, Prod.mk.injEq] at lead
    obtain ⟨count, rfl⟩ := lead
    rw [show others.length = _ from (Nat.succ.inj count).symm]
    omega

theorem isSecond_of_following {first second : UInt8} {rest others : List UInt8}
    (found : following first rest = second :: others) : isSecond first second = true := by
  unfold following at found
  split at found
  · cases found
  · split at found
    · next follows =>
      rw [← (List.cons.inj found).1]
      exact follows
    · cases found

/-- A number that is no code point gives NUL. -/
theorem eq_toNat_of_ofNat {n : Nat} {c : Char} (given : Char.ofNat n = c) (some_ : 0 < c.toNat) :
    n = c.toNat := by
  by_cases valid : n.isValidChar
  · rw [← given, show Char.ofNat n = Char.ofNatAux n valid from dif_pos valid]
    rfl
  · rw [← given, show Char.ofNat n = '\x00' from dif_neg valid] at some_
    exact absurd some_ (by decide)

/-- An ASCII character is decoded from its own byte only. -/
theorem eq_of_character? {first : UInt8} {rest : List UInt8} {c : Char}
    (decoded : character? first (following first rest) = some c)
    (ascii : 0 < c.toNat ∧ c.toNat < 0x80) :
    following first rest = [] ∧ first = UInt8.ofNat c.toNat := by
  unfold character? at decoded
  split at decoded
  · cases decoded
  next count bits lead =>
  split at decoded
  · next whole =>
    have value := eq_toNat_of_ofNat (Option.some.inj decoded) ascii.1
    cases found : following first rest with
    | nil =>
        rw [found] at whole value
        refine ⟨rfl, UInt8.toNat_inj.mp ?_⟩
        unfold lead? at lead
        simp only [Bool.and_eq_true, decide_eq_true_iff] at lead
        split_ifs at lead with one two three four <;>
          simp only [Option.some.injEq, Prod.mk.injEq] at lead
        · rw [toNat_ofNat (by omega), lead.2]
          exact value
        all_goals
          rw [← lead.1] at whole
          cases whole
    | cons second others =>
        rw [found] at whole value
        have large := le_foldl_of_isSecond (whole ▸ lead) (isSecond_of_following found)
        omega
  · cases decoded

/-- A marker in front of decoded bytes stands in front of the bytes. -/
theorem prefix_of_prefix_characters {marker : List Char} (ascii : IsAscii marker)
    {bytes : List UInt8}
    (inFront : marker <+: (characters bytes).map fun c => c.getD '\uFFFD') :
    encode marker <+: bytes := by
  induction marker generalizing bytes with
  | nil => exact List.nil_prefix
  | cons c marker ih =>
      obtain ⟨small, ascii⟩ := List.forall_mem_cons.mp ascii
      cases bytes with
      | nil =>
          rw [characters] at inFront
          cases List.prefix_nil.mp inFront
      | cons first rest =>
          rw [characters, List.map_cons, List.cons_prefix_cons] at inFront
          obtain ⟨here, later⟩ := inFront
          have decoded : character? first (following first rest) = some c := by
            cases found : character? first (following first rest) with
            | some d => rw [here, found, Option.getD_some]
            | none =>
                rw [here, found] at small
                exact absurd small.2 (by decide)
          obtain ⟨alone, same⟩ := eq_of_character? decoded small
          rw [alone] at later
          rw [encode, List.flatMap_cons, utf8EncodeChar_of_ascii small.2, ← same,
            List.singleton_append, List.cons_prefix_cons]
          exact ⟨rfl, ih ascii later⟩

/-- **A marker stands in a decoded text only where its bytes stand.** -/
theorem infix_of_infix_decodeLossy {marker : List Char} (ascii : IsAscii marker)
    {bytes : List UInt8} (inside : marker <:+: (decodeLossy bytes).toList) :
    encode marker <:+: bytes := by
  rw [decodeLossy, String.toList_ofList] at inside
  fun_induction characters bytes with
  | case1 =>
      rw [List.infix_nil.mp inside]
      exact List.nil_infix
  | case2 first rest ih =>
      rw [List.map_cons, List.infix_cons_iff] at inside
      rcases inside with here | later
      · refine (prefix_of_prefix_characters ascii ?_).isInfix
        rw [characters]
        exact here
      · exact (ih later).trans ((List.drop_suffix _ rest).isInfix.trans
          (List.suffix_cons first rest).isInfix)

/-- Bytes around the bytes of a marker are decoded on their own. -/
theorem decodeLossy_marker {marker : List Char} (some_ : marker ≠ []) (ascii : IsAscii marker)
    (bytes rest : List UInt8) :
    (decodeLossy (bytes ++ (encode marker ++ rest))).toList =
      (decodeLossy bytes).toList ++ (marker ++ (decodeLossy rest).toList) := by
  simp only [decodeLossy, String.toList_ofList, characters_marker some_ ascii, List.map_append,
    List.map_map]
  congr 2
  exact List.map_id marker

end LivingDoc.Text.Utf8
