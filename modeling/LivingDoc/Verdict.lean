import LivingDoc.Text.Ascii

/-!
Verdicts on tested behaviour and the way several of them become one.

A verdict is the answer a test run gives about a feature, a scenario or an outline. Verdicts are
ranked, and merging keeps the higher rank: one failure fails the whole, and a behaviour without any
record stays inconclusive.
-/

namespace LivingDoc

/-- What a test run says about a described behaviour. -/
inductive Verdict where
  | passed
  | failed
  /-- Nothing was recorded, or something that says neither "passed" nor "failed". -/
  | inconclusive
  deriving DecidableEq, Repr

namespace Verdict

/-! ## Merging -/

/-- How much a verdict weighs against another one. -/
def rank : Verdict → Nat
  | inconclusive => 0
  | passed => 1
  | failed => 2

/-- The rank tells verdicts apart. -/
theorem rank_inj {a b : Verdict} : a.rank = b.rank ↔ a = b := by
  cases a <;> cases b <;> decide

/-- The weightier of two verdicts. -/
def merge (a b : Verdict) : Verdict :=
  if b.rank ≤ a.rank then a else b

/-- Merging takes the higher rank. -/
theorem rank_merge (a b : Verdict) : (a.merge b).rank = max a.rank b.rank := by
  cases a <;> cases b <;> decide

/-- The weightiest of any number of verdicts; none at all is inconclusive. -/
def overall (verdicts : List Verdict) : Verdict :=
  verdicts.foldl merge inconclusive

/-! ## Recorded outcomes -/

/-- The verdict behind an outcome as a report words it. Case does not matter, and every wording
other than the two known ones is inconclusive, like a missing one. -/
def ofOutcome : Option String → Verdict
  | none => inconclusive
  | some word =>
    if Text.sameIgnoringCase word "passed" then passed
    else if Text.sameIgnoringCase word "failed" then failed
    else inconclusive

/-- Merges outcomes as reports word them. -/
def ofOutcomes (outcomes : List (Option String)) : Verdict :=
  overall (outcomes.map ofOutcome)

/-! ## Names -/

/-- The word a verdict is written with. -/
def name : Verdict → String
  | passed => "passed"
  | failed => "failed"
  | inconclusive => "inconclusive"

/-- The verdict with exactly the given name. -/
def ofName? (name : String) : Option Verdict :=
  [passed, failed, inconclusive].find? fun verdict => verdict.name = name

/-- A verdict is found by its name. -/
theorem ofName?_name (verdict : Verdict) : ofName? verdict.name = some verdict := by
  cases verdict <;> decide

end Verdict

end LivingDoc
