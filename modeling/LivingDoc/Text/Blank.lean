/-!
White space in running text, as the property `White_Space` of Unicode lists it, and the removal of
it from both ends of a text.
-/

namespace LivingDoc.Text

/-- First and last code point of each range of white space. -/
def blankRanges : List (Nat × Nat) :=
  [(0x09, 0x0D), (0x20, 0x20), (0x85, 0x85), (0xA0, 0xA0), (0x1680, 0x1680), (0x2000, 0x200A),
   (0x2028, 0x2029), (0x202F, 0x202F), (0x205F, 0x205F), (0x3000, 0x3000)]

/-- Whether a character is white space. -/
def isBlank (c : Char) : Bool :=
  blankRanges.any fun range => range.1 ≤ c.toNat && c.toNat ≤ range.2

/-- The characters that are left when the trailing ones in a class are removed. -/
def dropTrailing (p : Char → Bool) (text : List Char) : List Char :=
  (text.reverse.dropWhile p).reverse

/-- A text without the white space around it. -/
def trim (text : String) : String :=
  String.ofList (dropTrailing isBlank (text.toList.dropWhile isBlank))

end LivingDoc.Text
