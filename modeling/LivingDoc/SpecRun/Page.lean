import LivingDoc.Report.Malformed

/-!
The page that a SpecRun report is embedded in.

The results stand between two markers, and the angle brackets of their XML are escaped there. All
other text of the page is of no account.
-/

namespace LivingDoc.SpecRun

open Report (Malformed)

/-- The marker in front of the results. -/
def beginMarker : List Char := "<!-- Pickles Begin".toList

/-- The marker behind the results. -/
def endMarker : List Char := "Pickles End -->".toList

/-- A text with its escaped angle brackets restored. No other escape is touched. -/
def restore : List Char → List Char
  | [] => []
  | '&' :: 'l' :: 't' :: ';' :: rest => '<' :: restore rest
  | '&' :: 'g' :: 't' :: ';' :: rest => '>' :: restore rest
  | c :: rest => c :: restore rest

/-- The results in a page: the text between the first opening marker and the first closing marker
after it, with the angle brackets restored. -/
def embedded (page : List Char) : Except Malformed (List Char) :=
  match Text.cut? beginMarker page with
  | none => .error (.missingMarker beginMarker)
  | some (_, rest) =>
    match Text.cut? endMarker rest with
    | none => .error (.missingMarker endMarker)
    | some (results, _) => .ok (restore results)

end LivingDoc.SpecRun
