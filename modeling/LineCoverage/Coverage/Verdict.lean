import LineCoverage.Trace.Script

/-!
# `LineCoverage.Coverage.Verdict`: what a line's instructions say about it

A line is judged by its instructions alone, in no particular order: whether any
of them ran, whether any of them did not, and, where nothing ran, whether the
engine proved one of them unreachable. A line without instructions is not
executable and gets no verdict.
-/

set_option autoImplicit false

namespace LineCoverage

/-- The judgement on an executable line. -/
inductive Verdict where
  /-- Every instruction ran. -/
  | covered
  /-- Some instructions ran and some did not. -/
  | partlyCovered
  /-- Nothing ran. -/
  | uncovered
  /-- Nothing ran, and some instruction is unreachable. -/
  | dead
  deriving DecidableEq, Repr

/-- Whether an instruction ran. -/
def Instruction.ran (inst : Instruction) : Bool := inst.count != 0

namespace Verdict

/-- The verdict on a line with these instructions; none if there are none. -/
def ofInstructions (insts : List Instruction) : Option Verdict :=
  if insts.isEmpty then none
  else if insts.all Instruction.ran then some .covered
  else if insts.any Instruction.ran then some .partlyCovered
  else if insts.any (·.unreachable) then some .dead
  else some .uncovered

/-- The word for a verdict in pages and on the outside. -/
def label : Verdict → String
  | .covered => "full"
  | .partlyCovered => "some"
  | .uncovered => "none"
  | .dead => "dead"

/-- The verdict with a given word. -/
def ofLabel? (word : String) : Option Verdict :=
  [covered, partlyCovered, uncovered, dead].find? (·.label = word)

end Verdict

end LineCoverage
