import LineCoverage.Binary64
import LineCoverage.Coverage.Verdict
import LineCoverage.Fault

/-!
# `LineCoverage.Coverage.Tally`: counting verdicts

A `Tally` counts the executable lines of a file, or of several, by verdict.
Percentages are of all executable lines: the exact quotient rounded once to a
binary number, whose exact value is then written to one decimal place or none.
Where there are no executable lines there is no percentage.
-/

set_option autoImplicit false

namespace LineCoverage

/-- How many lines have each verdict. -/
structure Tally where
  covered : Int
  partlyCovered : Int
  uncovered : Int
  dead : Int
  deriving DecidableEq, Repr

/-- A count as a percentage of a total: the nearest binary number, and none for a total of zero.
The sign of a zero is that of the total. -/
def percentage (count total : Int) : Except Fault (Option Binary64) :=
  if total = 0 then .ok none
  else
    match Binary64.ofRatio? (decide (count < 0) != decide (total < 0))
      (100 * count.natAbs) total.natAbs with
    | none => .error .quotientTooLarge
    | some percent => .ok (some percent)

namespace Tally

/-- The tally of no line. -/
def zero : Tally := ⟨0, 0, 0, 0⟩

instance : Inhabited Tally := ⟨zero⟩

/-- Tallies add up verdict by verdict. -/
instance : Add Tally where
  add left right :=
    { covered := left.covered + right.covered
      partlyCovered := left.partlyCovered + right.partlyCovered
      uncovered := left.uncovered + right.uncovered
      dead := left.dead + right.dead }

/-- The number of executable lines. -/
def lines (tally : Tally) : Int :=
  tally.covered + tally.partlyCovered + tally.uncovered + tally.dead

/-- One more line with a verdict. -/
def count (tally : Tally) : Verdict → Tally
  | .covered => { tally with covered := tally.covered + 1 }
  | .partlyCovered => { tally with partlyCovered := tally.partlyCovered + 1 }
  | .uncovered => { tally with uncovered := tally.uncovered + 1 }
  | .dead => { tally with dead := tally.dead + 1 }

/-- One more line with the verdict of a given word, if there is one. -/
def countLabel (tally : Tally) (word : String) : Except Fault Tally :=
  match Verdict.ofLabel? word with
  | none => .error (.unknownVerdict word)
  | some verdict => .ok (tally.count verdict)

/-- The tally of some verdicts. -/
def ofVerdicts (verdicts : List Verdict) : Tally := verdicts.foldl count zero

/-- A count as a percentage of all executable lines. -/
def percent (tally : Tally) (count : Int) : Except Fault (Option Binary64) :=
  percentage count tally.lines

/-- A percentage to so many places, followed by `unit`; `n/a` where there is none. -/
def percentText (tally : Tally) (places : Nat) (unit : String) (count : Int) :
    Except Fault String :=
  match tally.percent count with
  | .error fault => .error fault
  | .ok none => .ok "n/a"
  | .ok (some percent) => .ok (percent.fixed places ++ unit)

/-- The four counts in the order of the reports. -/
def counts (tally : Tally) : List Int :=
  [tally.covered, tally.partlyCovered, tally.uncovered, tally.dead]

end Tally

end LineCoverage
