import LineCoverage.Coverage.Model
import LineCoverage.Proofs.Table
import Mathlib.Data.List.Count

/-!
# `LineCoverage.Proofs.Coverage.Tally`: what a tally counts

A file is asked for its verdicts in two ways. One goes through its lines and
counts what they are judged; the other looks a line up by its number. They
agree, since the lines stand under their numbers: `tally_eq` takes the tally of
a file from the verdicts that are found under its numbers
(`SourceFile.verdicts`), and `length_verdicts` says that these are as many as
there are lines with instructions.

A tally of verdicts has no count that is greater than their number, hence a
percentage for each of its counts (`exists_percentText`). Only of two numbers
that no verdicts have could the quotient be too large.
-/

set_option autoImplicit false

namespace LineCoverage

/-! ### Tallies of verdicts -/

namespace Tally

/-- One more verdict is counted after the others. -/
theorem ofVerdicts_concat (verdicts : List Verdict) (last : Verdict) :
    ofVerdicts (verdicts ++ [last]) = (ofVerdicts verdicts).count last := by
  simp [ofVerdicts]

/-- A tally counts how often each verdict is there. -/
theorem ofVerdicts_eq (verdicts : List Verdict) :
    ofVerdicts verdicts
      = { covered := verdicts.count .covered
          partlyCovered := verdicts.count .partlyCovered
          uncovered := verdicts.count .uncovered
          dead := verdicts.count .dead } := by
  induction verdicts using List.reverseRecOn with
  | nil => rfl
  | append_singleton earlier last ih =>
      rw [ofVerdicts_concat, ih]
      cases last <;> simp [count]

/-- The tally of verdicts and further verdicts is the sum of both. -/
theorem ofVerdicts_append (left right : List Verdict) :
    ofVerdicts (left ++ right) = ofVerdicts left + ofVerdicts right := by
  rw [ofVerdicts_eq, ofVerdicts_eq, ofVerdicts_eq]
  simp only [List.count_append, Int.natCast_add]
  rfl

/-- With one more verdict there is one more line. -/
theorem lines_count (tally : Tally) (verdict : Verdict) :
    (tally.count verdict).lines = tally.lines + 1 := by
  cases verdict <;> simp only [count, lines] <;> omega

/-- Every verdict is counted once. -/
theorem lines_ofVerdicts (verdicts : List Verdict) :
    (ofVerdicts verdicts).lines = verdicts.length := by
  induction verdicts using List.reverseRecOn with
  | nil => rfl
  | append_singleton earlier last ih =>
      rw [ofVerdicts_concat, lines_count, ih]
      simp

/-- The order of the verdicts is of no importance. -/
theorem ofVerdicts_perm {verdicts others : List Verdict} (h : verdicts.Perm others) :
    ofVerdicts verdicts = ofVerdicts others := by
  rw [ofVerdicts_eq, ofVerdicts_eq]
  simp only [h.count_eq]

/-- None of the counts is greater than the number of verdicts. -/
theorem counts_ofVerdicts_le {verdicts : List Verdict} {count : Int}
    (h : count ∈ (ofVerdicts verdicts).counts) : 0 ≤ count ∧ count ≤ verdicts.length := by
  have hle : ∀ verdict, verdicts.count verdict ≤ verdicts.length :=
    fun verdict => List.count_le_length
  rw [ofVerdicts_eq] at h
  simp only [counts, List.mem_cons, List.not_mem_nil, or_false] at h
  rcases h with rfl | rfl | rfl | rfl <;> exact ⟨Int.natCast_nonneg _, Int.ofNat_le.mpr (hle _)⟩

end Tally

/-! ### Percentages of them -/

/-- A quotient of at most a hundred has less than eight binary places before the point. -/
theorem Binary64.logRatio_le {num den : Nat} (h : num ≤ 100 * den) : logRatio num den ≤ 7 := by
  have hlog : num.log2 ≤ den.log2 + 7 := by
    by_cases hzero : num = 0
    · simp [hzero]
    · have hden : den < 2 ^ (den.log2 + 1) := Nat.lt_log2_self
      have hnum : num < 2 ^ (den.log2 + 8) := by
        calc num ≤ 100 * den := h
          _ < 2 ^ 7 * 2 ^ (den.log2 + 1) := by omega
          _ = 2 ^ (den.log2 + 8) := by rw [← Nat.pow_add]; congr 1; omega
      have hlt := (Nat.log2_lt hzero).mpr hnum
      omega
  unfold logRatio
  dsimp only
  split <;> omega

/-- A quotient of at most a hundred is not beyond the largest number. -/
theorem Binary64.exists_ofRatio (negative : Bool) {num den : Nat} (h : num ≤ 100 * den) :
    ∃ quotient, ofRatio? negative num den = some quotient := by
  have hratio := logRatio_le h
  -- The exponent may go up by one where the significand is rounded up to the next power of two.
  have hexponent : max (logRatio num den - 52) minExponent + 1 ≤ maxExponent := by
    unfold minExponent maxExponent
    omega
  unfold ofRatio?
  by_cases hzero : num = 0
  · exact ⟨_, if_pos hzero⟩
  · refine ⟨_, (if_neg hzero).trans (if_pos ?_)⟩
    split
    · dsimp only
      omega
    · exact hexponent

/-- A count has a percentage of a total that it does not exceed. -/
theorem exists_percentage {count total : Int} (hcount : 0 ≤ count) (htotal : count ≤ total) :
    ∃ answer, percentage count total = .ok answer := by
  obtain ⟨quotient, hquotient⟩ :=
    Binary64.exists_ofRatio (decide (count < 0) != decide (total < 0))
      (show 100 * count.natAbs ≤ 100 * total.natAbs by omega)
  unfold percentage
  rw [hquotient]
  split <;> exact ⟨_, rfl⟩

/-- Every count in a tally of verdicts has its percentage. -/
theorem Tally.exists_percentText (verdicts : List Verdict) (places : Nat) (unit : String)
    {count : Int} (h : count ∈ (ofVerdicts verdicts).counts) :
    ∃ text, (ofVerdicts verdicts).percentText places unit count = .ok text := by
  obtain ⟨hnonneg, hle⟩ := counts_ofVerdicts_le h
  rw [← lines_ofVerdicts] at hle
  obtain ⟨answer, hanswer⟩ := exists_percentage hnonneg hle
  unfold Tally.percentText Tally.percent
  rw [hanswer]
  cases answer <;> exact ⟨_, rfl⟩

/-! ### Files -/

/-- A line has a verdict if it has an instruction. -/
theorem Line.isSome_verdict (line : Line) : line.verdict.isSome = !line.toList.isEmpty := by
  unfold Line.verdict Verdict.ofInstructions
  cases line.toList.isEmpty with
  | true => rfl
  | false => simp only [Bool.false_eq_true, if_false]; split_ifs <;> rfl

namespace SourceFile

/-- The verdicts that are found under the numbers of a file. -/
def verdicts (file : SourceFile) : List Verdict := file.lines.keys.filterMap file.verdict

/-- The verdict on a line goes by its instructions. -/
theorem verdict_eq (file : SourceFile) (number : Int) :
    file.verdict number = Verdict.ofInstructions (file.insts number) := by
  unfold verdict insts
  cases file.lines.get? number <;> rfl

/-- A line with a verdict is one of the lines. -/
theorem mem_keys_of_verdict {file : SourceFile} {number : Int} {verdict : Verdict}
    (h : file.verdict number = some verdict) : number ∈ file.lines.keys := by
  obtain ⟨line, hline, -⟩ := Option.bind_eq_some_iff.mp h
  exact Table.mem_keys_of_get? hline

/-- The verdicts on the lines are those under their numbers. -/
theorem filterMap_verdict (file : SourceFile) :
    file.lines.values.filterMap Line.verdict = file.verdicts := by
  rw [Table.values_eq, List.filterMap_filterMap]
  rfl

/-- The tally of a file counts the verdicts under its numbers. -/
theorem tally_eq (file : SourceFile) : file.tally = Tally.ofVerdicts file.verdicts := by
  rw [tally, filterMap_verdict]

/-- There are as many verdicts as lines with instructions. -/
theorem length_verdicts (file : SourceFile) : file.verdicts.length = file.executableLines := by
  rw [← filterMap_verdict, List.length_filterMap_eq_countP, executableLines]
  exact List.countP_congr fun line _ => by rw [Line.isSome_verdict]

/-- How many lines of a file have a verdict. -/
def linesWith (file : SourceFile) (verdict : Verdict) : Nat :=
  file.lines.keys.countP fun number => file.verdict number = some verdict

/-- Numbers without repetition find as many lines with a verdict as the file has, where no line with
it is missing among them. -/
theorem linesWith_eq_countP {file : SourceFile} {verdict : Verdict} {numbers : List Int}
    (hnodup : numbers.Nodup)
    (hall : ∀ number, file.verdict number = some verdict → number ∈ numbers) :
    file.linesWith verdict
      = numbers.countP fun number => file.verdict number = some verdict := by
  have hsame : (file.lines.keys.filter fun number => file.verdict number = some verdict).Perm
      (numbers.filter fun number => file.verdict number = some verdict) := by
    refine (List.perm_ext_iff_of_nodup (file.lines.distinct.filter _) (hnodup.filter _)).mpr ?_
    intro number
    rw [List.mem_filter, List.mem_filter, decide_eq_true_eq]
    -- A number with the verdict is in both lists, and a number without it in neither.
    refine and_congr_left fun hverdict => ?_
    exact iff_of_true (mem_keys_of_verdict hverdict) (hall number hverdict)
  rw [linesWith, List.countP_eq_length_filter, List.countP_eq_length_filter]
  exact hsame.length_eq

/-- A verdict is there as often as lines have it. -/
theorem count_verdicts (file : SourceFile) (verdict : Verdict) :
    file.verdicts.count verdict = file.linesWith verdict := by
  rw [verdicts, linesWith, List.count_eq_countP, List.countP_filterMap]
  refine List.countP_congr fun number _ => ?_
  cases file.verdict number <;> simp

/-- The total over some files counts the verdicts of all of them. -/
theorem totalTally_eq (files : List SourceFile) :
    totalTally files = Tally.ofVerdicts (files.flatMap verdicts) := by
  induction files using List.reverseRecOn with
  | nil => rfl
  | append_singleton earlier last ih =>
      have hlast : totalTally (earlier ++ [last]) = totalTally earlier + last.tally := by
        simp [totalTally]
      rw [hlast, ih, tally_eq, ← Tally.ofVerdicts_append]
      simp

/-- Files with the same tallies have the same total. -/
theorem totalTally_congr {files others : List SourceFile}
    (h : files.map tally = others.map tally) : totalTally files = totalTally others := by
  have hsum : ∀ list : List SourceFile,
      totalTally list = (list.map tally).foldl (· + ·) .zero := by
    intro list
    rw [List.foldl_map]
    rfl
  rw [hsum, hsum, h]

end SourceFile

end LineCoverage
