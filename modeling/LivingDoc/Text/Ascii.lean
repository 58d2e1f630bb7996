/-!
Comparison of words without regard to the case of the letters A to Z. Letters outside ASCII are
compared exactly.
-/

namespace LivingDoc.Text

/-- A text with its letters A to Z in lower case. -/
def foldCase (text : String) : List Char :=
  text.toList.map Char.toLower

/-- Whether two texts differ at most in the case of the letters A to Z. -/
def sameIgnoringCase (a b : String) : Bool :=
  foldCase a == foldCase b

end LivingDoc.Text
