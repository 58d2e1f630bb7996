import LivingDoc.Json.Decoder
import LivingDoc.Verdict

/-!
Verdicts from JSON values.
-/

namespace LivingDoc

/-- Decodes a verdict: its name, or an object whose only key is the name and holds null. -/
def Verdict.decode : Json.Decoder Verdict
  | _, .str (some name) => Verdict.ofName? name
  | _, .object [(some name, .null)] => Verdict.ofName? name
  | _, _ => none

end LivingDoc
