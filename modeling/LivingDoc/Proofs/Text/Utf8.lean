import LivingDoc.Text.Utf8
import Mathlib.Data.List.TakeWhile

/-!
Reading the UTF-8 encoding of a text gives the text.

The encoding of a character is told apart from what follows it by its first byte alone, so a text is
read character by character. What the bounds on a second byte exclude begins the encoding of no
character.
-/

namespace LivingDoc.Text.Utf8

/-! ## Bytes -/

theorem toNat_ofNat {n : Nat} (h : n < 256) : (UInt8.ofNat n).toNat = n := by
  rw [UInt8.toNat_ofNat', Nat.mod_eq_of_lt h]

/-- The byte after the first one of an encoding that gives the last six bits of a number. -/
def continuation (n : Nat) : UInt8 :=
  UInt8.ofNat (n % 64 + 0x80)

theorem toNat_continuation (n : Nat) : (continuation n).toNat = n % 64 + 0x80 :=
  toNat_ofNat (by omega)

theorem isContinuation_continuation (n : Nat) : isContinuation (continuation n) = true := by
  unfold isContinuation
  rw [toNat_continuation, Bool.and_eq_true, decide_eq_true_iff, decide_eq_true_iff]
  omega

theorem lead?_one {n : Nat} (h : n < 0x80) : lead? (UInt8.ofNat n) = some (0, n) := by
  unfold lead?
  rw [toNat_ofNat (by omega)]
  exact if_pos h

theorem lead?_two {n : Nat} (h : 2 ≤ n ∧ n < 0x20) :
    lead? (UInt8.ofNat (n + 0xC0)) = some (1, n) := by
  unfold lead?
  rw [toNat_ofNat (by omega)]
  simp only [Bool.and_eq_true, decide_eq_true_iff]
  rw [if_neg (by omega), if_pos (by omega), Nat.add_sub_cancel]

theorem lead?_three {n : Nat} (h : n < 0x10) : lead? (UInt8.ofNat (n + 0xE0)) = some (2, n) := by
  unfold lead?
  rw [toNat_ofNat (by omega)]
  simp only [Bool.and_eq_true, decide_eq_true_iff]
  rw [if_neg (by omega), if_neg (by omega), if_pos (by omega), Nat.add_sub_cancel]

theorem lead?_four {n : Nat} (h : n < 5) : lead? (UInt8.ofNat (n + 0xF0)) = some (3, n) := by
  unfold lead?
  rw [toNat_ofNat (by omega)]
  simp only [Bool.and_eq_true, decide_eq_true_iff]
  rw [if_neg (by omega), if_neg (by omega), if_neg (by omega), if_pos (by omega),
    Nat.add_sub_cancel]

theorem ofNat_eq_iff {n m : Nat} (hn : n < 256) (hm : m < 256) :
    UInt8.ofNat n = UInt8.ofNat m ↔ n = m := by
  rw [← UInt8.toNat_inj, toNat_ofNat hn, toNat_ofNat hm]

/-- Which bytes may come second, in numbers. -/
theorem isSecond_continuation {n m : Nat} (h : n < 256)
    (low : (n = 0xE0 → 0x20 ≤ m % 64) ∧ (n = 0xF0 → 0x10 ≤ m % 64))
    (high : (n = 0xED → m % 64 < 0x20) ∧ (n = 0xF4 → m % 64 < 0x10)) :
    isSecond (UInt8.ofNat n) (continuation m) = true := by
  have is (k : Nat) (hk : k < 256) : UInt8.ofNat n = UInt8.ofNat k ↔ n = k := ofNat_eq_iff h hk
  unfold isSecond
  rw [toNat_continuation, Bool.and_eq_true, decide_eq_true_iff, decide_eq_true_iff]
  change (if UInt8.ofNat n = UInt8.ofNat 0xE0 then 0xA0
      else if UInt8.ofNat n = UInt8.ofNat 0xF0 then 0x90 else 0x80) ≤ m % 64 + 0x80 ∧
    m % 64 + 0x80 ≤ if UInt8.ofNat n = UInt8.ofNat 0xED then 0x9F
      else if UInt8.ofNat n = UInt8.ofNat 0xF4 then 0x8F else 0xBF
  simp only [is 0xE0 (by decide), is 0xF0 (by decide), is 0xED (by decide), is 0xF4 (by decide)]
  constructor <;> split_ifs <;> omega

/-! ## Characters -/

/-- The bytes of an encoding after the first one are found, whatever comes next. -/
theorem following_append {first second : UInt8} {others : List UInt8} {bits : Nat}
    (lead : lead? first = some (others.length + 1, bits)) (follows : isSecond first second = true)
    (continues : ∀ byte ∈ others, isContinuation byte = true) (rest : List UInt8) :
    following first (second :: others ++ rest) = second :: others := by
  have taken : (second :: others ++ rest).take (others.length + 1) = second :: others :=
    @List.take_left _ (second :: others) rest
  have all : others.takeWhile isContinuation = others := List.takeWhile_eq_self_iff.mpr continues
  simp only [following, lead, Option.elim_some, taken, follows, if_true, all]

theorem character?_eq {first : UInt8} {following : List UInt8} {bits : Nat} {c : Char}
    (lead : lead? first = some (following.length, bits))
    (value : following.foldl (fun value byte => value * 64 + (byte.toNat - 0x80)) bits = c.toNat) :
    character? first following = some c := by
  simp only [character?, lead, if_true, value, Char.ofNat_toNat]

/-- Bytes that encode a character are read as it. -/
theorem characters_append {first : UInt8} {others rest : List UInt8} {c : Char}
    (found : following first (others ++ rest) = others)
    (encodes : character? first others = some c) :
    characters (first :: others ++ rest) = some c :: characters rest := by
  rw [List.cons_append, characters, found, encodes, List.drop_left]

theorem utf8EncodeChar_eq (c : Char) :
    String.utf8EncodeChar c =
      if c.toNat ≤ 0x7F then [UInt8.ofNat c.toNat]
      else if c.toNat ≤ 0x7FF then
        [UInt8.ofNat (c.toNat / 64 % 32 + 0xC0), continuation c.toNat]
      else if c.toNat ≤ 0xFFFF then
        [UInt8.ofNat (c.toNat / 4096 % 16 + 0xE0), continuation (c.toNat / 64),
          continuation c.toNat]
      else
        [UInt8.ofNat (c.toNat / 262144 % 8 + 0xF0), continuation (c.toNat / 4096),
          continuation (c.toNat / 64), continuation c.toNat] :=
  rfl

/-- A character is read back from its encoding. -/
theorem characters_encode (c : Char) (rest : List UInt8) :
    characters (String.utf8EncodeChar c ++ rest) = some c :: characters rest := by
  have valid : c.toNat < 0xD800 ∨ (0xDFFF < c.toNat ∧ c.toNat < 0x110000) := c.valid
  rw [utf8EncodeChar_eq]
  split_ifs with one two three
  · have lead : lead? (UInt8.ofNat c.toNat) = some (0, c.toNat) := lead?_one (by omega)
    have alone : following (UInt8.ofNat c.toNat) ([] ++ rest) = [] := by simp [following, lead]
    exact characters_append alone (character?_eq lead rfl)
  · have lead := @lead?_two (c.toNat / 64 % 32) (by omega)
    refine characters_append (following_append lead ?_ (by simp) rest) (character?_eq lead ?_)
    · exact isSecond_continuation (by omega) (by omega) (by omega)
    · simp only [List.foldl_cons, List.foldl_nil, toNat_continuation]
      omega
  · have lead := @lead?_three (c.toNat / 4096 % 16) (by omega)
    refine characters_append (following_append lead ?_ ?_ rest) (character?_eq lead ?_)
    · exact isSecond_continuation (by omega) (by omega) (by omega)
    · simp [isContinuation_continuation]
    · simp only [List.foldl_cons, List.foldl_nil, toNat_continuation]
      omega
  · have lead := @lead?_four (c.toNat / 262144 % 8) (by omega)
    refine characters_append (following_append lead ?_ ?_ rest) (character?_eq lead ?_)
    · exact isSecond_continuation (by omega) (by omega) (by omega)
    · simp [isContinuation_continuation]
    · simp only [List.foldl_cons, List.foldl_nil, toNat_continuation]
      omega

/-! ## Texts -/

theorem characters_flatMap_encode (text : List Char) :
    characters (text.flatMap String.utf8EncodeChar) = text.map some := by
  induction text with
  | nil => rw [List.flatMap_nil, characters, List.map_nil]
  | cons c text ih => rw [List.flatMap_cons, characters_encode, ih, List.map_cons]

theorem toList_toUTF8 (text : String) :
    text.toUTF8.data.toList = text.toList.flatMap String.utf8EncodeChar := by
  rw [String.toUTF8_eq_toByteArray, ← String.utf8Encode_toList]
  exact List.toList_data_toByteArray

/-- **Decoding undoes encoding.** -/
theorem decode?_toUTF8 (text : String) : decode? text.toUTF8.data.toList = some text := by
  have all : (text.toList.map some).mapM id = some text.toList := by
    rw [List.mapM_map]
    exact List.mapM_pure.trans (congrArg some (List.map_id _))
  rw [toList_toUTF8, decode?, characters_flatMap_encode, all, Option.map_some, String.ofList_toList]

end LivingDoc.Text.Utf8
