import LineCoverage.Coverage.Verdict
import Mathlib.Data.List.Perm.Basic
import Mathlib.Order.Bounds.Lattice
import Mathlib.Order.WithBot

/-!
# `LineCoverage.Proofs.Coverage.Verdict`: instructions judged part by part

Instructions come to a line one after another, and its verdict changes with
them. It changes in one direction only: a covered line can become partly covered
and nothing else, an uncovered one can become dead, and either of these two
partly covered. With that order the verdicts are a join-semilattice, and no
verdict at all is below them (`WithBot Verdict`).

An instruction alone has a verdict, and one more instruction on a line joins its
own to that of the others (`judgement_cons`). So the verdict on a line is the
least one that is not below the verdict on any of its instructions
(`judgement_le_iff`). Neither order nor number of the instructions occur in
that, and what happens to a verdict when two lists of instructions come together
follows from it, without another look at what is on the line.

`Verdict.judges` says in terms of the instructions what each verdict means, and
`ofInstructions_isLUB` puts both together.
-/

set_option autoImplicit false

namespace LineCoverage

namespace Verdict

/-! ### The order of verdicts -/

/-- A verdict is below those that it can change into when instructions are added. -/
instance : LE Verdict where
  le verdict other :=
    verdict = other ∨ other = partlyCovered ∨ (verdict = uncovered ∧ other = dead)

instance : DecidableLE Verdict := fun verdict other =>
  inferInstanceAs
    (Decidable (verdict = other ∨ other = partlyCovered ∨ (verdict = uncovered ∧ other = dead)))

instance : PartialOrder Verdict where
  le_refl verdict := .inl rfl
  le_trans first second third := by
    cases first <;> cases second <;> cases third <;> decide
  le_antisymm first second := by
    cases first <;> cases second <;> decide

/-- Of two verdicts that are in no order only a partly covered line has more than both. -/
instance : SemilatticeSup Verdict where
  sup verdict other :=
    if verdict ≤ other then other else if other ≤ verdict then verdict else partlyCovered
  le_sup_left verdict other := by cases verdict <;> cases other <;> decide
  le_sup_right verdict other := by cases verdict <;> cases other <;> decide
  sup_le first second third := by cases first <;> cases second <;> cases third <;> decide

/-- These are all the pairs that are in order. -/
theorem lt_iff (verdict other : Verdict) :
    verdict < other ↔
      (verdict = covered ∧ other = partlyCovered) ∨ (verdict = uncovered ∧ other = dead) ∨
        (verdict = uncovered ∧ other = partlyCovered) ∨
        (verdict = dead ∧ other = partlyCovered) := by
  rw [lt_iff_le_not_ge]
  cases verdict <;> cases other <;> decide

/-! ### What the verdicts mean -/

/-- What a verdict says of the instructions on a line, if there are any. -/
structure Judges (insts : List Instruction) (found : Option Verdict) : Prop where
  none : found = none ↔ insts = []
  covered : found = some covered ↔ insts ≠ [] ∧ ∀ inst ∈ insts, inst.count ≠ 0
  partlyCovered : found = some partlyCovered ↔
    (∃ inst ∈ insts, inst.count = 0) ∧ ∃ inst ∈ insts, inst.count ≠ 0
  dead : found = some dead ↔
    insts ≠ [] ∧ (∀ inst ∈ insts, inst.count = 0) ∧ ∃ inst ∈ insts, inst.unreachable = true
  uncovered : found = some uncovered ↔
    insts ≠ [] ∧ (∀ inst ∈ insts, inst.count = 0) ∧
      ∀ inst ∈ insts, inst.unreachable = false

/-- Where there is an instruction and all ran, one did. -/
theorem any_ran_of_all_ran {insts : List Instruction} (hne : insts ≠ [])
    (h : insts.all Instruction.ran = true) : insts.any Instruction.ran = true := by
  obtain ⟨inst, hmem⟩ := List.exists_mem_of_ne_nil insts hne
  exact List.any_eq_true.mpr ⟨inst, hmem, List.all_eq_true.mp h inst hmem⟩

/-- The verdict on a line with instructions, by whether all ran, any ran, and any is unreachable. -/
def ofTests (all any unreachable : Bool) : Verdict :=
  if all then covered else if any then partlyCovered else if unreachable then dead else uncovered

/-- On a line with instructions the verdict goes by these three tests. -/
theorem ofInstructions_of_ne_nil {insts : List Instruction} (hne : insts ≠ []) :
    ofInstructions insts = some (ofTests (insts.all Instruction.ran) (insts.any Instruction.ran)
      (insts.any (·.unreachable))) := by
  have hempty : insts.isEmpty = false := by simpa using hne
  unfold ofInstructions ofTests
  rw [hempty, if_neg Bool.false_ne_true]
  simp only [apply_ite some]

/-- Each verdict stands for one outcome of the tests. All ran means that any ran. -/
theorem ofTests_eq_iff {all any : Bool} (h : all = true → any = true) (unreachable : Bool) :
    (ofTests all any unreachable = covered ↔ all = true) ∧
    (ofTests all any unreachable = partlyCovered ↔ all = false ∧ any = true) ∧
    (ofTests all any unreachable = dead ↔ any = false ∧ unreachable = true) ∧
    (ofTests all any unreachable = uncovered ↔ any = false ∧ unreachable = false) := by
  revert h
  cases all <;> cases any <;> cases unreachable <;> decide

/-- The verdict on a line is what its instructions say. -/
theorem judges (insts : List Instruction) : Judges insts (ofInstructions insts) := by
  by_cases hne : insts = []
  · subst hne
    exact ⟨by decide, by decide, by decide, by decide, by decide⟩
  · obtain ⟨hcovered, hpartly, hdead, huncovered⟩ :=
      ofTests_eq_iff (any_ran_of_all_ran hne) (insts.any (·.unreachable))
    rw [ofInstructions_of_ne_nil hne]
    constructor
    · simp [hne]
    · rw [Option.some_inj, hcovered]
      simp [Instruction.ran, hne]
    · rw [Option.some_inj, hpartly]
      simp [Instruction.ran]
    · rw [Option.some_inj, hdead]
      simp [Instruction.ran, hne]
    · rw [Option.some_inj, huncovered]
      simp [Instruction.ran, hne]

/-! ### One instruction after another -/

/-- The verdict on some instructions, in the order of verdicts. Where there are no instructions it
is below every other. -/
def judgement (insts : List Instruction) : WithBot Verdict := ofInstructions insts

/-- The verdict on an instruction alone. -/
def alone (inst : Instruction) : Verdict := ofTests inst.ran inst.ran inst.unreachable

/-- No instructions, no verdict. -/
theorem judgement_nil : judgement [] = ⊥ := rfl

/-- With one more instruction the tests give the verdict that joins its own. -/
theorem ofTests_cons (inst : Instruction) {all any unreachable : Bool}
    (h : all = true → any = true) :
    ofTests (inst.ran && all) (inst.ran || any) (inst.unreachable || unreachable)
      = alone inst ⊔ ofTests all any unreachable := by
  unfold alone
  generalize inst.ran = ran, inst.unreachable = mark
  revert h
  cases ran <;> cases mark <;> cases all <;> cases any <;> cases unreachable <;> decide

/-- One more instruction joins its verdict to that of the others. -/
theorem judgement_cons (inst : Instruction) (insts : List Instruction) :
    judgement (inst :: insts) = ↑(alone inst) ⊔ judgement insts := by
  by_cases hne : insts = []
  · subst hne
    rw [judgement_nil, sup_bot_eq, judgement, ofInstructions_of_ne_nil (List.cons_ne_nil _ _)]
    simp only [List.all_cons, List.any_cons, List.all_nil, List.any_nil, Bool.and_true,
      Bool.or_false]
    rfl
  · rw [judgement, judgement, ofInstructions_of_ne_nil (List.cons_ne_nil _ _),
      ofInstructions_of_ne_nil hne, List.all_cons, List.any_cons, List.any_cons,
      ofTests_cons inst (any_ran_of_all_ran hne)]
    rfl

/-- A verdict is not too low for some instructions exactly if it is not for any of them. -/
theorem judgement_le_iff {insts : List Instruction} {bound : WithBot Verdict} :
    judgement insts ≤ bound ↔ ∀ inst ∈ insts, ↑(alone inst) ≤ bound := by
  induction insts with
  | nil => simp [judgement_nil]
  | cons inst rest ih => rw [judgement_cons, sup_le_iff, ih, List.forall_mem_cons]

/-- More instructions have no lower verdict. -/
theorem judgement_mono {insts others : List Instruction} (h : insts ⊆ others) :
    judgement insts ≤ judgement others :=
  judgement_le_iff.mpr fun inst hmem => judgement_le_iff.mp le_rfl inst (h hmem)

/-- Nothing matters but which instructions there are. -/
theorem ofInstructions_congr {insts others : List Instruction}
    (h : ∀ inst, inst ∈ insts ↔ inst ∈ others) : ofInstructions insts = ofInstructions others := by
  have hsame : judgement insts = judgement others :=
    le_antisymm (judgement_mono fun inst => (h inst).mp) (judgement_mono fun inst => (h inst).mpr)
  exact hsame

/-- **Verdicts add up.** For all instructions, whatever their counts and their order:

* each verdict stands for one state of the instructions on a line;
* of the verdicts, covered is below partly covered, uncovered is below dead, and both of these are
  below partly covered. No verdict at all is below every one;
* in this order, the verdict on two lists of instructions together is the least upper bound of the
  verdicts on both;
* more instructions do not bring a verdict down, and neither their order nor how often they are
  there makes a difference;
* where an instruction ran, the line is not dead. -/
theorem ofInstructions_isLUB :
    (∀ insts, Judges insts (ofInstructions insts)) ∧
    (∀ verdict other : Verdict, verdict < other ↔
      (verdict = covered ∧ other = partlyCovered) ∨ (verdict = uncovered ∧ other = dead) ∨
        (verdict = uncovered ∧ other = partlyCovered) ∨
        (verdict = dead ∧ other = partlyCovered)) ∧
    (∀ verdict : Verdict, judgement [] < ↑verdict) ∧
    (∀ left right, IsLUB {judgement left, judgement right} (judgement (left ++ right))) ∧
    (∀ insts others, insts ⊆ others → judgement insts ≤ judgement others) ∧
    (∀ insts others, insts.Perm others → ofInstructions insts = ofInstructions others) ∧
    (∀ insts others, (∀ inst, inst ∈ insts ↔ inst ∈ others) →
      ofInstructions insts = ofInstructions others) ∧
    ∀ insts, (∃ inst ∈ insts, inst.count ≠ 0) → ofInstructions insts ≠ some dead := by
  refine ⟨judges, lt_iff, WithBot.bot_lt_coe, ?_, fun _ _ => judgement_mono, ?_,
    fun _ _ => ofInstructions_congr, ?_⟩
  · intro left right
    refine isLUB_iff_le_iff.mpr fun bound => ?_
    rw [judgement_le_iff, List.forall_mem_append, ← judgement_le_iff, ← judgement_le_iff]
    simp [upperBounds]
  · intro insts others hperm
    exact ofInstructions_congr fun inst => hperm.mem_iff
  · rintro insts ⟨inst, hmem, hran⟩ hdead
    have hidle := ((judges insts).dead.mp hdead).2.1
    exact hran (hidle inst hmem)

end Verdict

end LineCoverage
