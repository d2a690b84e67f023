import LineCoverage.Proofs.Coverage.Tally
import LineCoverage.Report.Summary
import Mathlib.Data.List.Sort

/-!
# `LineCoverage.Proofs.Report.Agreement`: a report says the same everywhere

A report has several ways to say how much of a file is covered: the counts of
its block, the line without a block, the findings, and the totals at the end.
Each goes its own way through the lines of the file. `SourceFile.Agrees` says
what they have in common, the verdicts that stand under the numbers of the file.
`report_agrees` puts this together for a whole report.

One thing can keep a report from being finished. The numbers that it has to
write, counts and numbers of lines, may be too long to be written
(`Report.numbers`); a line can be moved as far as one likes. `fault?_lines` says
that this is all that can go wrong: percentages always have their text.
-/

set_option autoImplicit false

namespace LineCoverage

open Report

namespace Report

/-! ### What can go wrong -/

/-- The numbers that the lines on a target have to write. Where there is only a percentage, it is
none. -/
def targetNumbers (style : ReportStyle) (target : Target) : List Int :=
  let tally := target.file.tally
  if style.compact then tally.lines :: tally.counts
  else if style.percentOnly || tally.covered = tally.lines then []
  else
    tally.lines :: tally.counts ++
      if style.listLines then (findings target.file).map (·.number) else []

/-- The numbers that a report has to write. -/
def numbers (style : ReportStyle) (targets : List Target) : List Int :=
  targets.flatMap (targetNumbers style) ++
    if style.compact then (totals targets).lines :: (totals targets).counts else []

/-- The first fault of some lines and further lines. -/
theorem fault?_append (left right : List (Except Fault String)) :
    fault? (left ++ right) = (fault? left).or (fault? right) :=
  List.findSome?_append

/-- A line with its text has no fault. -/
theorem fault?_cons_ok (text : String) (rest : List (Except Fault String)) :
    fault? (.ok text :: rest) = fault? rest := rfl

/-- What becomes of the text of a line does not matter. -/
theorem fault?_cons_map (change : String → String) {line : Except Fault String}
    {left right : List (Except Fault String)} (h : fault? left = fault? right) :
    fault? (line.map change :: left) = fault? (line :: right) := by
  cases line with
  | error fault => rfl
  | ok text => exact h

/-- Numbers that are written into one line can be written one by one. -/
theorem fault?_mapM (join : List String → String) (values : List Int) :
    fault? [(values.mapM Numeral.write).map join] = fault? (values.map Numeral.write) := by
  induction values generalizing join with
  | nil => rfl
  | cons first rest ih =>
      rw [List.mapM_cons, List.map_cons]
      -- Nothing is tried behind the first number that fails, in one line or in several.
      cases Numeral.write first with
      | error fault => rfl
      | ok text =>
          rw [fault?_cons_ok, ← ih fun texts => join (text :: texts)]
          cases rest.mapM Numeral.write <;> rfl

/-! ### The lines of a report -/

section Lines

variable (name : String) (verdicts : List Verdict) (color : Bool)

/-- A line with a count fails as the count does. -/
theorem fault?_cons_countLine (label : String) {count : Int}
    (h : count ∈ (Tally.ofVerdicts verdicts).counts) (verdict : Option Verdict)
    {left right : List (Except Fault String)} (hrest : fault? left = fault? right) :
    fault? ((countLine label count (Tally.ofVerdicts verdicts) verdict color).map ("\t" ++ ·)
        :: left)
      = fault? (Numeral.write count :: right) := by
  obtain ⟨percent, hpercent⟩ := Tally.exists_percentText verdicts 1 "%" h
  unfold countLine percentText
  rw [hpercent]
  cases Numeral.write count with
  | error fault => rfl
  | ok number => exact hrest

/-- The percentage of the covered lines always has its text. -/
theorem exists_coveredText : ∃ percent,
    percentText (Tally.ofVerdicts verdicts) (Tally.ofVerdicts verdicts).covered = .ok percent :=
  Tally.exists_percentText verdicts 1 "%" List.mem_cons_self

/-- A line with the percentage alone has no fault. -/
theorem exists_shortLine : ∃ text, shortLine name (Tally.ofVerdicts verdicts) = .ok text := by
  obtain ⟨percent, hpercent⟩ := exists_coveredText verdicts
  unfold shortLine
  rw [hpercent]
  exact ⟨_, rfl⟩

/-- What a line with the percentage alone says. -/
theorem shortLine_eq_ok {name text : String} {tally : Tally} (h : shortLine name tally = .ok text) :
    ∃ percent, percentText tally tally.covered = .ok percent ∧ text = name ++ ": " ++ percent := by
  unfold shortLine at h
  cases hpercent : percentText tally tally.covered with
  | error fault =>
      rw [hpercent] at h
      cases h
  | ok percent =>
      rw [hpercent] at h
      cases h
      exact ⟨percent, rfl, rfl⟩

/-- What a row of the table says. -/
theorem rowOf_eq_ok {name row : String} {tally : Tally} (h : rowOf name tally = .ok row) :
    ∃ percent counts, percentText tally tally.covered = .ok percent ∧
      (tally.lines :: tally.counts).mapM Numeral.write = .ok counts ∧
      row = tableRow percent name counts := by
  unfold rowOf compactRow at h
  cases hpercent : percentText tally tally.covered with
  | error fault =>
      rw [hpercent] at h
      cases h
  | ok percent =>
      rw [hpercent] at h
      cases hcounts : (tally.lines :: tally.counts).mapM Numeral.write with
      | error fault =>
          rw [hcounts] at h
          cases h
      | ok counts =>
          rw [hcounts] at h
          cases h
          exact ⟨percent, counts, rfl, rfl, rfl⟩

/-- A row of the table fails as one of its numbers does. -/
theorem fault?_rowOf :
    fault? [rowOf name (Tally.ofVerdicts verdicts)]
      = fault? (((Tally.ofVerdicts verdicts).lines ::
          (Tally.ofVerdicts verdicts).counts).map Numeral.write) := by
  obtain ⟨percent, hpercent⟩ := exists_coveredText verdicts
  unfold rowOf compactRow
  rw [hpercent]
  simp only [Except.bind]
  rw [fault?_mapM]

/-- A block fails as one of its numbers does. -/
theorem fault?_blockLines :
    fault? (blockLines name (Tally.ofVerdicts verdicts) color)
      = fault? (((Tally.ofVerdicts verdicts).lines ::
          (Tally.ofVerdicts verdicts).counts).map Numeral.write) := by
  obtain ⟨text, htext⟩ := exists_shortLine name verdicts
  unfold blockLines totalCountLine
  rw [htext, fault?_cons_ok]
  simp only [List.map_cons, List.map_nil, Tally.counts]
  rw [fault?_cons_map _ rfl]
  refine fault?_cons_map _ ?_
  refine fault?_cons_countLine verdicts color _ (by simp [Tally.counts]) _ ?_
  refine fault?_cons_countLine verdicts color _ (by simp [Tally.counts]) _ ?_
  refine fault?_cons_countLine verdicts color _ (by simp [Tally.counts]) _ ?_
  exact fault?_cons_countLine verdicts color _ (by simp [Tally.counts]) _ rfl

/-- The findings fail as one of their numbers does. -/
theorem fault?_map_findingLine (file : SourceFile) (found : List Finding) :
    fault? (found.map (findingLine file color))
      = fault? ((found.map (·.number)).map Numeral.write) := by
  induction found with
  | nil => rfl
  | cons finding rest ih => exact fault?_cons_map _ ih

end Lines

/-- The lines on a target fail as one of their numbers does. -/
theorem fault?_targetLines (style : ReportStyle) (target : Target) :
    fault? (targetLines style target)
      = fault? ((targetNumbers style target).map Numeral.write) := by
  unfold targetLines targetNumbers
  simp only [SourceFile.tally_eq]
  by_cases hcompact : style.compact = true
  · rw [if_pos hcompact, if_pos hcompact]
    exact fault?_rowOf target.name target.file.verdicts
  · rw [if_neg hcompact, if_neg hcompact]
    split
    · obtain ⟨text, htext⟩ := exists_shortLine target.name target.file.verdicts
      rw [htext]
      rfl
    · rw [fault?_append, List.map_append, fault?_append, fault?_blockLines]
      cases style.listLines with
      | false => rfl
      | true => rw [if_pos rfl, if_pos rfl, fault?_map_findingLine]

/-- The totals are those of the files, and count the verdicts of all of them. -/
theorem totals_eq (targets : List Target) :
    totals targets = SourceFile.totalTally (targets.map (·.file)) ∧
      totals targets = Tally.ofVerdicts (targets.flatMap (·.file.verdicts)) := by
  have hfiles : totals targets = SourceFile.totalTally (targets.map (·.file)) := by
    rw [totals, SourceFile.totalTally, List.foldl_map]
  refine ⟨hfiles, ?_⟩
  rw [hfiles, SourceFile.totalTally_eq, List.flatMap_map]

/-- The last line fails as one of its numbers does. -/
theorem fault?_totalLine (style : ReportStyle) (targets : List Target) :
    fault? [totalLine style (totals targets)]
      = fault? ((if style.compact then (totals targets).lines :: (totals targets).counts
          else []).map Numeral.write) := by
  rw [(totals_eq targets).2]
  unfold totalLine
  cases style.compact with
  | true =>
      rw [if_pos rfl, if_pos rfl]
      exact fault?_rowOf "ALL FILES" _
  | false =>
      obtain ⟨text, htext⟩ :=
        exists_shortLine "Overall Coverage" (targets.flatMap (·.file.verdicts))
      rw [if_neg Bool.false_ne_true, if_neg Bool.false_ne_true, htext]
      rfl

/-- A report fails as one of its numbers does. -/
theorem fault?_lines (style : ReportStyle) (targets : List Target) :
    fault? (lines style targets) = fault? ((numbers style targets).map Numeral.write) := by
  have htargets : fault? (targets.flatMap (targetLines style))
      = fault? ((targets.flatMap (targetNumbers style)).map Numeral.write) := by
    induction targets with
    | nil => rfl
    | cons target rest ih =>
        rw [List.flatMap_cons, List.flatMap_cons, List.map_append, fault?_append, fault?_append,
          fault?_targetLines, ih]
  unfold lines numbers
  dsimp only
  -- The heading of a table is there in any case.
  rw [fault?_append, fault?_append, fault?_map_ok, Option.none_or, htargets, fault?_totalLine,
    List.map_append, fault?_append]

/-- Some numbers can be written exactly if none of them is too long. -/
theorem fault?_write (values : List Int) :
    fault? (values.map Numeral.write)
      = if ∃ n ∈ values, Numeral.firstTooLong ≤ n.natAbs then some .numberTooLongToWrite
        else none := by
  induction values with
  | nil => rfl
  | cons first rest ih =>
      rw [List.map_cons]
      unfold Numeral.write
      split
      · rename_i hlong
        rw [if_pos ⟨first, List.mem_cons_self, hlong⟩]
        rfl
      · rename_i hshort
        rw [fault?_cons_ok]
        simp only [List.exists_mem_cons_iff, hshort, false_or]
        exact ih

/-- A report comes to its end exactly if none of its numbers is too long. -/
theorem fault?_lines_eq_none_iff (style : ReportStyle) (targets : List Target) :
    fault? (lines style targets) = none
      ↔ ∀ n ∈ numbers style targets, n.natAbs < Numeral.firstTooLong := by
  rw [fault?_lines, fault?_write]
  simp

/-- The lines that are printed are the first ones, all of them if there is no fault. -/
theorem exists_append_written (lines : List (Except Fault String)) :
    ∃ rest, lines = (written lines).map .ok ++ rest ∧ (rest = [] ↔ fault? lines = none) := by
  induction lines with
  | nil => exact ⟨[], rfl, by simp [fault?]⟩
  | cons line rest ih =>
      cases line with
      | error fault => exact ⟨.error fault :: rest, rfl, by simp [fault?]⟩
      | ok text =>
          obtain ⟨later, hlater, hnone⟩ := ih
          exact ⟨later, congrArg (.ok text :: ·) hlater, hnone⟩

/-- Without a fault every line is printed. -/
theorem map_ok_written_iff (lines : List (Except Fault String)) :
    (written lines).map .ok = lines ↔ fault? lines = none := by
  obtain ⟨rest, hlines, hnone⟩ := exists_append_written lines
  rw [← hnone]
  constructor
  · intro hall
    -- The lines that are printed have no others behind them.
    rw [hall] at hlines
    exact List.self_eq_append_right.mp hlines
  · intro hempty
    rw [hempty, List.append_nil] at hlines
    exact hlines.symm

/-! ### Findings -/

/-- What is found under a number: a verdict other than that the line is covered. -/
def finding? (file : SourceFile) (number : Int) : Option Finding :=
  ((file.verdict number).filter (· ≠ .covered)).map (⟨number, ·⟩)

/-- It is found under the number that it names. -/
theorem finding?_eq_some_iff {file : SourceFile} {number : Int} {finding : Finding} :
    finding? file number = some finding
      ↔ finding.number = number ∧ file.verdict number = some finding.verdict ∧
        finding.verdict ≠ .covered := by
  obtain ⟨place, verdict⟩ := finding
  unfold finding?
  rw [Option.map_eq_some_iff]
  constructor
  · rintro ⟨verdict', hverdict, heq⟩
    cases heq
    obtain ⟨hverdict, hne⟩ := Option.filter_eq_some_iff.mp hverdict
    exact ⟨rfl, hverdict, by simpa using hne⟩
  · rintro ⟨rfl, hverdict, hne⟩
    exact ⟨verdict, Option.filter_eq_some_iff.mpr ⟨hverdict, by simpa using hne⟩, rfl⟩

/-- The numbers are looked at in ascending order. -/
theorem findings_eq (file : SourceFile) :
    findings file
      = (file.lines.keys.mergeSort fun left right => decide (left ≤ right)).filterMap
          (finding? file) := by
  refine List.filterMap_congr fun number _ => ?_
  unfold finding?
  cases file.verdict number with
  | none => rfl
  | some verdict => cases verdict <;> rfl

/-- The findings in a file are about its lines with a verdict other than that they are covered. -/
theorem mem_findings_iff {file : SourceFile} {finding : Finding} :
    finding ∈ findings file
      ↔ file.verdict finding.number = some finding.verdict ∧ finding.verdict ≠ .covered := by
  rw [findings_eq, List.mem_filterMap]
  constructor
  · rintro ⟨number, -, hfinding⟩
    obtain ⟨rfl, hverdict⟩ := finding?_eq_some_iff.mp hfinding
    exact hverdict
  · intro h
    exact ⟨finding.number, List.mem_mergeSort.mpr (SourceFile.mem_keys_of_verdict h.1),
      finding?_eq_some_iff.mpr ⟨rfl, h⟩⟩

/-- In ascending order no number comes twice. -/
theorem sorted_keys (file : SourceFile) :
    (file.lines.keys.mergeSort fun left right => decide (left ≤ right)).Pairwise (· < ·) := by
  have hnumbers : (file.lines.keys.mergeSort fun left right => decide (left ≤ right)).Nodup :=
    file.lines.distinct.mergeSort
  exact (List.sortedLE_mergeSort.sortedLT_of_nodup hnumbers).pairwise

/-- The findings stand in strictly ascending order of their numbers. -/
theorem findings_ascending (file : SourceFile) :
    (findings file).Pairwise fun left right => left.number < right.number := by
  rw [findings_eq]
  refine (sorted_keys file).filterMap _ ?_
  intro left right hlt first hfirst second hsecond
  rw [(finding?_eq_some_iff.mp hfirst).1, (finding?_eq_some_iff.mp hsecond).1]
  exact hlt

/-- There are as many findings of a kind as verdicts, where covered lines are not of that kind. -/
theorem countP_findings (file : SourceFile) (kind : Verdict → Bool) (h : kind .covered = false) :
    (findings file).countP (kind ·.verdict) = file.verdicts.countP kind := by
  -- For a count the order is of no importance.
  rw [findings_eq, SourceFile.verdicts, List.countP_filterMap, List.countP_filterMap,
    (List.mergeSort_perm _ _).countP_eq]
  refine List.countP_congr fun number _ => ?_
  unfold finding?
  cases file.verdict number with
  | none => rfl
  | some verdict =>
      by_cases hcovered : verdict = .covered
      · subst hcovered
        simp [Option.filter, h]
      · simp [Option.filter, hcovered]

/-- There are as many findings with a message as lines with the verdict that it is for. -/
theorem countP_message (file : SourceFile) (verdict : Verdict) {message : String}
    (hmessage : ∀ other : Verdict, other.finding? = some message ↔ other = verdict)
    (hcovered : .covered ≠ verdict) :
    (findings file).countP (fun finding => finding.verdict.finding? = some message)
      = file.linesWith verdict := by
  have hkind : ∀ other : Verdict, decide (other.finding? = some message) = (other == verdict) := by
    intro other
    rw [beq_eq_decide, decide_eq_decide]
    exact hmessage other
  rw [← SourceFile.count_verdicts, List.count_eq_countP]
  simp only [hkind]
  exact countP_findings file (· == verdict) (beq_eq_false_iff_ne.mpr hcovered)

/-- A finding has its message. -/
theorem findingLine_eq {file : SourceFile} {finding : Finding} (h : finding ∈ findings file) :
    ∃ message, finding.verdict.finding? = some message ∧
      ∀ color, findingLine file color finding
        = (Numeral.write finding.number).map fun number =>
          file.name ++ ":" ++ number ++ ": "
            ++ paint (if color then finding.verdict.color? else none) message := by
  obtain ⟨number, verdict⟩ := finding
  obtain ⟨-, hne⟩ := mem_findings_iff.mp h
  cases verdict with
  | covered => exact absurd rfl hne
  | partlyCovered => exact ⟨_, rfl, fun _ => rfl⟩
  | uncovered => exact ⟨_, rfl, fun _ => rfl⟩
  | dead => exact ⟨_, rfl, fun _ => rfl⟩

/-- Nothing is found in a file exactly if all of its executable lines are covered. -/
theorem findings_eq_nil_iff (file : SourceFile) :
    findings file = [] ↔ file.tally.covered = file.tally.lines := by
  have hcount : file.tally.covered = file.tally.lines
      ↔ ∀ verdict ∈ file.verdicts, .covered = verdict := by
    -- Covered verdicts are as many as verdicts exactly if there are no others.
    rw [SourceFile.tally_eq, Tally.lines_ofVerdicts, Tally.ofVerdicts_eq, Int.ofNat_inj,
      List.count_eq_length]
  rw [hcount, List.eq_nil_iff_forall_not_mem]
  constructor
  · intro hnone verdict hmem
    obtain ⟨number, -, hverdict⟩ := List.mem_filterMap.mp hmem
    by_contra hne
    exact hnone ⟨number, verdict⟩ (mem_findings_iff.mpr ⟨hverdict, Ne.symm hne⟩)
  · intro hcovered finding hmem
    obtain ⟨hverdict, hne⟩ := mem_findings_iff.mp hmem
    exact hne (hcovered _ (List.mem_filterMap.mpr
      ⟨finding.number, SourceFile.mem_keys_of_verdict hverdict, hverdict⟩)).symm

/-! ### The forms of a target -/

/-- A block is more than one line. -/
theorem blockLines_append_ne (name : String) (tally : Tally) (color : Bool)
    (rest : List (Except Fault String)) (line : Except Fault String) :
    blockLines name tally color ++ rest ≠ [line] := by
  intro h
  have hlength := congrArg List.length h
  simp [blockLines] at hlength

/-- The short form is taken exactly if nothing is found. -/
theorem targetLines_eq_short_iff (listLines color : Bool) (target : Target) :
    targetLines ⟨false, false, listLines, color⟩ target
        = [shortLine target.name target.file.tally]
      ↔ findings target.file = [] := by
  rw [findings_eq_nil_iff]
  unfold targetLines
  by_cases hcovered : target.file.tally.covered = target.file.tally.lines
  · simp [hcovered]
  · simp [hcovered, blockLines_append_ne]

/-- The findings come after the lines that are there without them, also after the short form, where
there are none. -/
theorem targetLines_listed (color : Bool) (target : Target) :
    targetLines ⟨false, false, true, color⟩ target
      = targetLines ⟨false, false, false, color⟩ target ++
        (findings target.file).map (findingLine target.file color) := by
  unfold targetLines
  by_cases hcovered : target.file.tally.covered = target.file.tally.lines
  · simp [hcovered, (findings_eq_nil_iff target.file).mpr hcovered]
  · simp [hcovered]

/-- The number of a finding is written if findings are listed. -/
theorem mem_numbers_of_finding (color : Bool) {targets : List Target} {target : Target}
    (htarget : target ∈ targets) {finding : Finding} (h : finding ∈ findings target.file) :
    finding.number ∈ numbers ⟨false, false, true, color⟩ targets := by
  have hblock : target.file.tally.covered ≠ target.file.tally.lines := by
    rw [Ne, ← findings_eq_nil_iff]
    exact List.ne_nil_of_mem h
  have hnumber : finding.number ∈ targetNumbers ⟨false, false, true, color⟩ target := by
    unfold targetNumbers
    simp only [Bool.false_eq_true, if_false, if_true, Bool.false_or, decide_eq_true_eq, hblock]
    exact List.mem_append_right _ (List.mem_map_of_mem h)
  exact List.mem_append_left _ (List.mem_flatMap.mpr ⟨target, htarget, hnumber⟩)

/-- A line that is too far away and not covered cannot be listed, and there is no report. -/
theorem result_of_far_finding (color : Bool) {targets : List Target} {target : Target}
    (htarget : target ∈ targets) {finding : Finding} (hfinding : finding ∈ findings target.file)
    (hfar : Numeral.firstTooLong ≤ finding.number.natAbs) :
    Report.result ⟨false, false, true, color⟩ targets = .error .numberTooLongToWrite := by
  unfold Report.result
  rw [fault?_lines, fault?_write, if_pos ⟨_, mem_numbers_of_finding color htarget hfinding, hfar⟩]

end Report

/-! ### The whole report -/

/-- What a report says about a file, whichever way, is how its lines are judged. -/
structure SourceFile.Agrees (file : SourceFile) : Prop where
  /-- The counts are those of the lines with each verdict. -/
  tally : file.tally
    = { covered := file.linesWith .covered
        partlyCovered := file.linesWith .partlyCovered
        uncovered := file.linesWith .uncovered
        dead := file.linesWith .dead }
  /-- Together they are as many as there are executable lines. -/
  lines : file.tally.lines = file.executableLines
  /-- A line is found exactly if it has a verdict other than that it is covered. -/
  finding : ∀ finding, finding ∈ findings file
    ↔ file.verdict finding.number = some finding.verdict ∧ finding.verdict ≠ .covered
  /-- No line is found twice, and they are found in ascending order. -/
  ascending : (findings file).Pairwise fun left right => left.number < right.number
  /-- A finding tells the line by its number, and says what is wrong with it. -/
  findingLine : ∀ finding ∈ findings file,
    ∃ message, finding.verdict.finding? = some message ∧
      ∀ color, Report.findingLine file color finding
        = (Numeral.write finding.number).map fun number =>
          file.name ++ ":" ++ number ++ ": "
            ++ paint (if color then finding.verdict.color? else none) message
  /-- The findings of each kind are as many as the tally counts. -/
  partlyCovered : ((findings file).countP
    fun finding => finding.verdict.finding? = some "partially covered") = file.tally.partlyCovered
  uncovered : ((findings file).countP
    fun finding => finding.verdict.finding? = some "uncovered") = file.tally.uncovered
  unreachable : ((findings file).countP
    fun finding => finding.verdict.finding? = some "unreachable") = file.tally.dead

/-- Every file is told by its verdicts alone. -/
theorem SourceFile.agrees (file : SourceFile) : file.Agrees := by
  have htally : file.tally
      = { covered := file.linesWith .covered
          partlyCovered := file.linesWith .partlyCovered
          uncovered := file.linesWith .uncovered
          dead := file.linesWith .dead } := by
    rw [tally_eq, Tally.ofVerdicts_eq]
    simp only [count_verdicts]
  exact
    { tally := htally
      lines := by rw [tally_eq, Tally.lines_ofVerdicts, length_verdicts]
      finding := fun _ => mem_findings_iff
      ascending := findings_ascending file
      findingLine := fun _ => findingLine_eq
      partlyCovered := by
        rw [htally, countP_message file .partlyCovered (by intro other; cases other <;> decide)
          (by decide)]
      uncovered := by
        rw [htally, countP_message file .uncovered (by intro other; cases other <;> decide)
          (by decide)]
      unreachable := by
        rw [htally, countP_message file .dead (by intro other; cases other <;> decide)
          (by decide)] }

/-- **A report says the same everywhere.** It gives back the totals of the files, which count the
verdicts of all of them, a file that is there twice counted twice; and it is printed completely.
Only if a number that it has to write is too long, it fails. What it says about each file is how
its lines are judged. Where it may have blocks, it takes the short form exactly for the files in
which nothing is found, and the findings that it lists are those of the files. -/
theorem report_agrees (style : ReportStyle) (targets : List Target) :
    Report.result style targets
      = (if ∃ n ∈ numbers style targets, Numeral.firstTooLong ≤ n.natAbs
          then .error .numberTooLongToWrite
          else .ok (SourceFile.totalTally (targets.map (·.file)))) ∧
    ((written (lines style targets)).map .ok = lines style targets
      ↔ ∀ n ∈ numbers style targets, n.natAbs < Numeral.firstTooLong) ∧
    SourceFile.totalTally (targets.map (·.file))
      = Tally.ofVerdicts (targets.flatMap (·.file.verdicts)) ∧
    (∀ target ∈ targets, target.file.Agrees) ∧
    (∀ listLines color, ∀ target ∈ targets,
      targetLines ⟨false, false, listLines, color⟩ target
          = [shortLine target.name target.file.tally]
        ↔ findings target.file = []) ∧
    ∀ color, lines ⟨false, false, true, color⟩ targets
      = targets.flatMap (fun target =>
          targetLines ⟨false, false, false, color⟩ target ++
            (findings target.file).map (Report.findingLine target.file color)) ++
        [shortLine "Overall Coverage" (totals targets)] := by
  obtain ⟨htotals, hverdicts⟩ := totals_eq targets
  have hfault := (fault?_lines style targets).trans (fault?_write (numbers style targets))
  refine ⟨?_, ?_, htotals.symm.trans hverdicts, fun target _ => target.file.agrees,
    fun listLines color target _ => targetLines_eq_short_iff listLines color target, ?_⟩
  · unfold Report.result
    rw [hfault, htotals]
    by_cases hlong : ∃ n ∈ numbers style targets, Numeral.firstTooLong ≤ n.natAbs
    · rw [if_pos hlong, if_pos hlong]
    · rw [if_neg hlong, if_neg hlong]
  · rw [map_ok_written_iff, fault?_lines_eq_none_iff]
  · intro color
    show targets.flatMap (targetLines ⟨false, false, true, color⟩) ++ _ = _
    rw [List.flatMap_congr fun target _ => targetLines_listed color target]
    rfl

/-- A file with one line, which never ran. -/
def SourceFile.cold (name : String) (number : Int) : SourceFile :=
  (SourceFile.empty name).alterLine number
    (·.add ⟨name, 0, ⟨name, number⟩, 0, "op", false⟩)

/-- The line is uncovered. -/
theorem SourceFile.verdict_cold (name : String) (number : Int) :
    (SourceFile.cold name number).verdict number = some .uncovered := by
  unfold SourceFile.verdict SourceFile.cold SourceFile.alterLine
  rw [Table.get?_alter_self]
  rfl

/-- A line that is too far away cannot be listed, and there are no totals either. -/
theorem result_of_far_line :
    Report.result ⟨false, false, true, false⟩ [⟨"v.js", .cold "v.js" Numeral.firstTooLong⟩]
        = .error .numberTooLongToWrite ∧
      ¬ ∀ style targets, Report.result style targets
        = .ok (SourceFile.totalTally (targets.map (·.file))) := by
  have hfound : (⟨Numeral.firstTooLong, .uncovered⟩ : Finding)
      ∈ findings (.cold "v.js" Numeral.firstTooLong) :=
    mem_findings_iff.mpr ⟨SourceFile.verdict_cold _ _, by decide⟩
  have hresult :
      Report.result ⟨false, false, true, false⟩ [⟨"v.js", .cold "v.js" Numeral.firstTooLong⟩]
        = .error .numberTooLongToWrite :=
    result_of_far_finding false List.mem_cons_self hfound (Int.natAbs_natCast _).ge
  refine ⟨hresult, fun hall => ?_⟩
  rw [hall] at hresult
  cases hresult

end LineCoverage
