import LineCoverage.Proofs.Coverage.Percentage
import LineCoverage.Proofs.Report.Agreement
import Mathlib.Data.List.MinMax

/-!
# `LineCoverage.Proofs.Report.Percentages`: percentages can be compared

A reader compares percentages: of two files, of one file on two days, of a file
and of all of them. That tells something as long as rounding does not turn the
order round. `AtMost` is the order of two percentages, as numbers and as they are
shown, to any number of places.

For a whole report there is more to say (`Shows`, `Averages`). Each percentage has
a text, which is `n/a` exactly where there is nothing to be covered, and which
fits its column; and the overall percentage is between the least and the greatest
one of the files. For the exact shares this is the inequality of the mediant: if
each of the files is below a bound, the sums are (`totals_below`). Rounding comes
last, and keeps the order.
-/

set_option autoImplicit false

namespace LineCoverage

open Report

/-! ### Percentages of counts -/

/-- One percentage is at most another one, and so is what their texts stand for. -/
structure Binary64.AtMost (x y : Binary64) : Prop where
  exact : x.toRat ≤ y.toRat
  shown : ∀ places, ∃ left right, Decimal.value? (x.fixed places) = some left ∧
    Decimal.value? (y.fixed places) = some right ∧ left ≤ right

/-- A percentage is between nothing and a hundred, and so is what its texts stand for. -/
structure Binary64.WithinHundred (x : Binary64) : Prop where
  exact : 0 ≤ x.toRat ∧ x.toRat ≤ 100
  shown : ∀ places, ∃ value, Decimal.value? (x.fixed places) = some value ∧
    0 ≤ value ∧ value ≤ 100

namespace IsPercent

variable {count total count' total' : Int} {percent percent' : Binary64}

/-- What is computed is the percentage. -/
theorem eq_of_computed (h : IsPercent count total percent)
    (hother : percentage count total = .ok (some percent')) : percent = percent' := by
  have heq := h.computed.symm.trans hother
  cases heq
  rfl

/-- A percentage is at most that of a greater share. -/
theorem atMost (h : IsPercent count total percent) (h' : IsPercent count' total' percent')
    (hnonneg : 0 ≤ share count total) (hle : share count total ≤ share count' total') :
    percent.AtMost percent' where
  exact := h.mono h' hnonneg hle
  shown places := by
    have hscaled := Binary64.scaled_mono h.positive h'.positive (h.mono h' hnonneg hle) places
    have hcast : (percent.scaled places : ℚ) ≤ percent'.scaled places := by exact_mod_cast hscaled
    exact ⟨_, _, h.value?_fixed places, h'.value?_fixed places,
      div_le_div_of_nonneg_right hcast (by positivity)⟩

/-- A percentage is at most a hundred. -/
theorem toRat_le (h : IsPercent count total percent) (hcount : 0 ≤ count) (hle : count ≤ total)
    (hpos : 0 < total) : percent.toRat ≤ 100 := by
  -- All of the total is a hundred per cent, also after rounding.
  obtain ⟨hundred, hhundred⟩ := exists_isPercent hpos.le le_rfl hpos
  have hall : share total total = 100 := by
    have hne : (total : ℚ) ≠ 0 := by exact_mod_cast hpos.ne'
    rw [share, mul_div_assoc, div_self hne, mul_one]
  have hhalves : share total total = ((200 : ℕ) : ℚ) / 2 := by
    rw [hall]
    norm_num
  have hexact : hundred.toRat = share total total := hhundred.eq_share hpos.le le_rfl hhalves
  have hshare := share_mem hcount hle
  calc percent.toRat ≤ hundred.toRat := h.mono hhundred hshare.1 (hall ▸ hshare.2)
    _ = 100 := hexact.trans hall

/-- It is at most a hundred in units of the last place. -/
theorem scaled_le (h : IsPercent count total percent) (hcount : 0 ≤ count) (hle : count ≤ total)
    (hpos : 0 < total) (places : ℕ) : percent.scaled places ≤ 100 * 10 ^ places := by
  refine (Binary64.roundsTo_scaled h.positive places).mono (RoundsTo.natCast _) ?_
  push_cast
  exact mul_le_mul_of_nonneg_right (h.toRat_le hcount hle hpos) (by positivity)

/-- It is between nothing and a hundred. -/
theorem withinHundred (h : IsPercent count total percent) (hcount : 0 ≤ count)
    (hle : count ≤ total) (hpos : 0 < total) : percent.WithinHundred where
  exact := by
    refine ⟨?_, h.toRat_le hcount hle hpos⟩
    unfold Binary64.toRat
    rw [h.positive, if_neg Bool.false_ne_true]
    positivity
  shown places := by
    have hscaled : (percent.scaled places : ℚ) ≤ 100 * 10 ^ places := by
      exact_mod_cast h.scaled_le hcount hle hpos places
    refine ⟨_, h.value?_fixed places, by positivity, ?_⟩
    rw [div_le_iff₀ (by positivity)]
    exact hscaled

/-- It is written with its digits alone. -/
theorem toList_fixed (h : IsPercent count total percent) (places : ℕ) :
    (percent.fixed places).toList = Binary64.digitsOf (percent.scaled places) places := by
  rw [Binary64.toList_fixed, h.positive, if_neg Bool.false_ne_true, List.nil_append]

/-- What starts with a digit is not `n/a`. -/
theorem fixed_ne (h : IsPercent count total percent) (places : ℕ) (unit : String) :
    percent.fixed places ++ unit ≠ "n/a" := by
  intro heq
  obtain ⟨whole, rest, hwhole, hdigits⟩ :=
    Binary64.exists_digitsOf (percent.scaled places) places
  have hchars := congrArg String.toList heq
  rw [String.toList_append, h.toList_fixed, hdigits, List.append_assoc] at hchars
  cases whole with
  | nil => cases hwhole
  | cons c more =>
      obtain rfl : c = 'n' := (List.cons.inj hchars).1
      simp [Decimal.isNumeral] at hwhole

/-- To one place it has six characters at most, with its sign. -/
theorem length_fixed_le (h : IsPercent count total percent) (hcount : 0 ≤ count)
    (hle : count ≤ total) (hpos : 0 < total) : (percent.fixed 1 ++ "%").length ≤ 6 := by
  -- At most three digits before the point, one behind it, and the sign.
  have hscaled := h.scaled_le hcount hle hpos 1
  have hwhole : (Nat.toDigits 10 (percent.scaled 1 / 10 ^ 1)).length ≤ 3 := by
    refine (Nat.length_toDigits_le_iff (by norm_num) (by norm_num)).mpr ?_
    omega
  have hplace : (Decimal.placeDigits 1 (percent.scaled 1 % 10 ^ 1)).length = 1 :=
    Decimal.length_placeDigits one_pos (Nat.mod_lt _ (by norm_num))
  rw [← String.length_toList, String.toList_append, h.toList_fixed]
  unfold Binary64.digitsOf
  rw [if_neg one_ne_zero, List.length_append, List.length_append, List.length_cons, hplace]
  show _ + (1 + 1) + 1 ≤ 6
  omega

end IsPercent

/-! ### Percentages of a tally -/

/-- How a report shows the percentages of a tally of so many executable lines. -/
structure Tally.Shows (tally : Tally) (lines : ℕ) : Prop where
  /-- The tally counts these lines. -/
  counts : tally.lines = lines
  /-- The percentage of each count has its text, with as many places as one likes, and `n/a`
  stands exactly for that of no lines. -/
  text : ∀ places unit, ∀ count ∈ tally.counts, ∃ text,
    tally.percentText places unit count = .ok text ∧ (text = "n/a" ↔ lines = 0)
  /-- Where there is a percentage, it is between nothing and a hundred. -/
  within : ∀ count ∈ tally.counts, ∀ percent, tally.percent count = .ok (some percent) →
    percent.WithinHundred
  /-- The percentage of the covered lines stands behind the name, or in the first column of a row,
  where there is room for all of it. -/
  covered : ∃ text, Report.percentText tally tally.covered = .ok text ∧
    (∀ name, shortLine name tally = .ok (name ++ ": " ++ text)) ∧
    text.length ≤ 6 ∧
    ∀ name row, rowOf name tally = .ok row → ∃ rest,
      row.toList = List.replicate (6 - text.length) ' ' ++ text.toList ++ ' ' :: rest

/-- A row of the table starts with the percentage, if that is not too long for its column. -/
theorem exists_of_rowOf {name row percent : String} {tally : Tally}
    (hpercent : Report.percentText tally tally.covered = .ok percent) (hfits : percent.length ≤ 6)
    (h : rowOf name tally = .ok row) : ∃ rest,
      row.toList = List.replicate (6 - percent.length) ' ' ++ percent.toList ++ ' ' :: rest := by
  have hfield : (Text.field percentWidth percent).toList
      = List.replicate (6 - percent.length) ' ' ++ percent.toList := by
    show (String.ofList (Text.fit (6 : ℕ) percent.toList)).toList = _
    rw [String.toList_ofList, Text.fit_of_length_le (by norm_num) hfits, String.length_toList]
  obtain ⟨text, counts, htext, -, rfl⟩ := rowOf_eq_ok h
  obtain rfl : percent = text := Except.ok.inj (hpercent.symm.trans htext)
  refine ⟨(" ".intercalate (Text.field nameWidth name
    :: counts.map (Text.field countWidth))).toList, ?_⟩
  unfold tableRow
  rw [String.intercalate_cons_cons, String.toList_append, String.toList_append, hfield,
    List.append_assoc]
  rfl

/-- A line with the percentage alone has the name before it. -/
theorem shortLine_of_percentText {tally : Tally} {percent : String}
    (h : Report.percentText tally tally.covered = .ok percent) (name : String) :
    shortLine name tally = .ok (name ++ ": " ++ percent) := by
  rw [shortLine, h]
  rfl

namespace Tally

/-- Of no lines there is no percentage, which is shown as `n/a`. -/
theorem shows_of_no_lines {tally : Tally} (h : tally.lines = 0) : tally.Shows 0 := by
  have hnothing : ∀ count, tally.percent count = .ok none := by
    intro count
    rw [percent, percentage, if_pos h]
  have htext : ∀ places unit count, tally.percentText places unit count = .ok "n/a" := by
    intro places unit count
    rw [Tally.percentText, hnothing]
  exact
    { counts := h
      text := fun places unit count _ => ⟨"n/a", htext places unit count, by simp⟩
      within := fun count _ percent hpercent => by
        rw [hnothing] at hpercent
        cases hpercent
      covered := ⟨"n/a", htext 1 "%" _, shortLine_of_percentText (htext 1 "%" _), by decide,
        fun name row hrow => exists_of_rowOf (htext 1 "%" _) (by decide) hrow⟩ }

/-- Of some lines there is a percentage for each of the counts. -/
theorem shows_of_lines {tally : Tally} {lines : ℕ} (hlines : tally.lines = lines) (h : lines ≠ 0)
    (hcounts : ∀ count ∈ tally.counts, 0 ≤ count ∧ count ≤ tally.lines) : tally.Shows lines := by
  have hpos : 0 < tally.lines := by omega
  have hpercent : ∀ count ∈ tally.counts, ∃ percent, IsPercent count tally.lines percent :=
    fun count hcount => exists_isPercent (hcounts count hcount).1 (hcounts count hcount).2 hpos
  have hcovered := hcounts tally.covered List.mem_cons_self
  obtain ⟨percent, hpercentage⟩ := hpercent tally.covered List.mem_cons_self
  have htext : Report.percentText tally tally.covered = .ok (percent.fixed 1 ++ "%") :=
    percentText_of_isPercent hpercentage 1 "%"
  have hlength := hpercentage.length_fixed_le hcovered.1 hcovered.2 hpos
  exact
    { counts := hlines
      text := fun places unit count hcount => by
        obtain ⟨percent, hpercentage⟩ := hpercent count hcount
        refine ⟨_, percentText_of_isPercent hpercentage places unit, ?_⟩
        exact iff_of_false (hpercentage.fixed_ne places unit) h
      within := fun count hcount other hother => by
        obtain ⟨percent, hpercentage⟩ := hpercent count hcount
        obtain rfl : percent = other := hpercentage.eq_of_computed hother
        exact hpercentage.withinHundred (hcounts count hcount).1 (hcounts count hcount).2 hpos
      covered := ⟨_, htext, shortLine_of_percentText htext, hlength,
        fun name row hrow => exists_of_rowOf htext hlength hrow⟩ }

/-- None of the counts of verdicts is greater than the number of lines. -/
theorem counts_mem {verdicts : List Verdict} {count : Int}
    (h : count ∈ (ofVerdicts verdicts).counts) :
    0 ≤ count ∧ count ≤ (ofVerdicts verdicts).lines := by
  rw [lines_ofVerdicts]
  exact counts_ofVerdicts_le h

/-- No percentage of verdicts fails, and it is shown as it should be. -/
theorem shows_ofVerdicts (verdicts : List Verdict) :
    (ofVerdicts verdicts).Shows verdicts.length := by
  have hlines := lines_ofVerdicts verdicts
  by_cases hnone : verdicts.length = 0
  · rw [hnone] at hlines ⊢
    exact shows_of_no_lines hlines
  · exact shows_of_lines hlines hnone fun count => counts_mem

end Tally

/-! ### The overall percentage -/

/-- Tallies have their lines together. -/
theorem Tally.lines_add (left right : Tally) : (left + right).lines = left.lines + right.lines := by
  show left.covered + right.covered + (left.partlyCovered + right.partlyCovered)
    + (left.uncovered + right.uncovered) + (left.dead + right.dead) = _
  unfold lines
  omega

/-- The totals with one more target. -/
theorem totals_concat (earlier : List Target) (last : Target) :
    totals (earlier ++ [last]) = totals earlier + last.file.tally := by
  simp [totals]

/-- What is linear and holds for each of the files holds for the totals. -/
theorem totals_below (a b : ℚ) {targets : List Target}
    (h : ∀ target ∈ targets, a * target.file.tally.lines ≤ b * target.file.tally.covered) :
    a * (totals targets).lines ≤ b * (totals targets).covered := by
  induction targets using List.reverseRecOn with
  | nil => simp [totals, Tally.zero, Tally.lines]
  | append_singleton earlier last ih =>
      -- Both sides are sums over the targets, and grow by what is there for the last one.
      have hearlier := ih fun target htarget => h target (List.mem_append_left _ htarget)
      have hlast := h last (by simp)
      have hcovered : (totals earlier + last.file.tally).covered
          = (totals earlier).covered + last.file.tally.covered := rfl
      rw [totals_concat, Tally.lines_add, hcovered]
      push_cast
      linarith

/-- A share of some lines is a quotient. -/
theorem share_mul {count total : Int} (h : 0 < total) : share count total * total = 100 * count := by
  have hne : (total : ℚ) ≠ 0 := by exact_mod_cast h.ne'
  rw [share, div_mul_cancel₀ _ hne]

/-- The share of a target that is covered. -/
def Target.share (target : Target) : ℚ :=
  LineCoverage.share target.file.tally.covered target.file.tally.lines

/-- The covered lines of a target are some of its executable lines. -/
theorem Target.covered_mem (target : Target) :
    0 ≤ target.file.tally.covered ∧ target.file.tally.covered ≤ target.file.tally.lines := by
  rw [SourceFile.tally_eq]
  exact Tally.counts_mem List.mem_cons_self

/-- The share of the totals is between bounds for those of the files. -/
theorem share_totals_mem {low high : ℚ} {targets : List Target}
    (hpos : 0 < (totals targets).lines)
    (h : ∀ target ∈ targets, 0 < target.file.tally.lines →
      low ≤ target.share ∧ target.share ≤ high) :
    low ≤ share (totals targets).covered (totals targets).lines ∧
      share (totals targets).covered (totals targets).lines ≤ high := by
  have hlines : (0 : ℚ) < (totals targets).lines := by exact_mod_cast hpos
  -- Without the quotients the bounds are about the files without executable lines too.
  have hfile : ∀ target ∈ targets,
      low * target.file.tally.lines ≤ 100 * target.file.tally.covered ∧
        -high * target.file.tally.lines ≤ -100 * target.file.tally.covered := by
    intro target htarget
    obtain ⟨hnonneg, hle⟩ := target.covered_mem
    rcases (hnonneg.trans hle).eq_or_lt with hnone | hsome
    · have hcovered : target.file.tally.covered = 0 := by omega
      rw [← hnone, hcovered]
      simp
    · obtain ⟨hlow, hhigh⟩ := h target htarget hsome
      have hcast : (0 : ℚ) < target.file.tally.lines := by exact_mod_cast hsome
      have hshare : target.share * target.file.tally.lines = 100 * target.file.tally.covered :=
        share_mul hsome
      have hleft := mul_le_mul_of_nonneg_right hlow hcast.le
      have hright := mul_le_mul_of_nonneg_right hhigh hcast.le
      constructor <;> linarith
  have hlow := totals_below low 100 fun target htarget => (hfile target htarget).1
  have hhigh := totals_below (-high) (-100) fun target htarget => (hfile target htarget).2
  have hshare : share (totals targets).covered (totals targets).lines * (totals targets).lines
      = 100 * (totals targets).covered := share_mul hpos
  constructor
  · refine le_of_mul_le_mul_right ?_ hlines
    linarith
  · refine le_of_mul_le_mul_right ?_ hlines
    linarith

/-- One of the targets with executable lines has the least value. -/
theorem exists_least (value : Target → ℚ) {targets : List Target}
    (h : ∃ target ∈ targets, 0 < target.file.tally.lines) :
    ∃ least ∈ targets, 0 < least.file.tally.lines ∧
      ∀ target ∈ targets, 0 < target.file.tally.lines → value least ≤ value target := by
  let executable := targets.filter fun target => 0 < target.file.tally.lines
  have hmem : ∀ target, target ∈ executable
      ↔ target ∈ targets ∧ 0 < target.file.tally.lines := by
    intro target
    rw [List.mem_filter, decide_eq_true_eq]
  cases hleast : executable.argmin value with
  | none =>
      obtain ⟨target, htarget, hlines⟩ := h
      have hsome := (hmem target).mpr ⟨htarget, hlines⟩
      rw [List.argmin_eq_none.mp hleast] at hsome
      cases hsome
  | some least =>
      obtain ⟨hin, hlines⟩ := (hmem least).mp (List.argmin_mem hleast)
      refine ⟨least, hin, hlines, fun target htarget hpos => ?_⟩
      exact List.le_of_mem_argmin ((hmem target).mpr ⟨htarget, hpos⟩) hleast

/-- A target with executable lines has its percentage. -/
theorem Target.exists_isPercent (target : Target) (h : 0 < target.file.tally.lines) :
    ∃ percent, IsPercent target.file.tally.covered target.file.tally.lines percent :=
  LineCoverage.exists_isPercent target.covered_mem.1 target.covered_mem.2 h

/-- Its share is not negative. -/
theorem Target.share_nonneg (target : Target) : 0 ≤ target.share :=
  (share_mem target.covered_mem.1 target.covered_mem.2).1

namespace Report

/-- The overall percentage of some targets is between two of theirs, which are the least and the
greatest. -/
structure Averages (targets : List Target) (low overall high : Binary64) : Prop where
  computed : (totals targets).percent (totals targets).covered = .ok (some overall)
  least : ∃ target ∈ targets, target.file.tally.percent target.file.tally.covered = .ok (some low)
  greatest : ∃ target ∈ targets,
    target.file.tally.percent target.file.tally.covered = .ok (some high)
  between : low.AtMost overall ∧ overall.AtMost high
  bounds : ∀ target ∈ targets, ∀ percent,
    target.file.tally.percent target.file.tally.covered = .ok (some percent) →
      low.AtMost percent ∧ percent.AtMost high

/-- The totals count the executable lines of all targets. -/
theorem shows_totals (targets : List Target) :
    (totals targets).Shows (targets.map (·.file.executableLines)).sum := by
  have hlength : (targets.flatMap (·.file.verdicts)).length
      = (targets.map (·.file.executableLines)).sum := by
    rw [List.length_flatMap]
    simp only [SourceFile.length_verdicts]
  rw [(totals_eq targets).2, ← hlength]
  exact Tally.shows_ofVerdicts _

/-- There are executable lines in all if there are some in one of the files. -/
theorem lines_totals_pos {targets : List Target} {target : Target} (h : target ∈ targets)
    (hpos : 0 < target.file.tally.lines) : 0 < (totals targets).lines := by
  have hsum : target.file.executableLines ≤ (targets.map (·.file.executableLines)).sum :=
    List.le_sum_of_mem (List.mem_map_of_mem h)
  rw [target.file.agrees.lines] at hpos
  rw [(shows_totals targets).counts]
  omega

/-- The covered lines are some of them. -/
theorem covered_totals_mem (targets : List Target) :
    0 ≤ (totals targets).covered ∧ (totals targets).covered ≤ (totals targets).lines := by
  rw [(totals_eq targets).2]
  exact Tally.counts_mem List.mem_cons_self

/-- Where there are executable lines, the overall percentage is between those of the files. -/
theorem exists_averages {targets : List Target}
    (h : ∃ target ∈ targets, 0 < target.file.tally.lines) :
    ∃ low overall high, Averages targets low overall high := by
  obtain ⟨least, hleast, hleastpos, hmin⟩ := exists_least Target.share h
  obtain ⟨greatest, hgreatest, hgreatestpos, hmax⟩ := exists_least (-Target.share ·) h
  have hbounds : ∀ target ∈ targets, 0 < target.file.tally.lines →
      least.share ≤ target.share ∧ target.share ≤ greatest.share :=
    fun target htarget hpos =>
      ⟨hmin target htarget hpos, neg_le_neg_iff.mp (hmax target htarget hpos)⟩
  have hpos := lines_totals_pos hleast hleastpos
  obtain ⟨hcovered, hle⟩ := covered_totals_mem targets
  obtain ⟨low, hlow⟩ := least.exists_isPercent hleastpos
  obtain ⟨high, hhigh⟩ := greatest.exists_isPercent hgreatestpos
  obtain ⟨overall, hoverall⟩ := exists_isPercent hcovered hle hpos
  have hbetween := share_totals_mem hpos hbounds
  have hnonneg := (share_mem hcovered hle).1
  refine ⟨low, overall, high,
    { computed := hoverall.computed
      least := ⟨least, hleast, hlow.computed⟩
      greatest := ⟨greatest, hgreatest, hhigh.computed⟩
      between := ⟨hlow.atMost hoverall least.share_nonneg hbetween.1,
        hoverall.atMost hhigh hnonneg hbetween.2⟩
      bounds := ?_ }⟩
  intro target htarget percent hpercent
  -- Where a percentage was computed, there are executable lines.
  have hlines : 0 < target.file.tally.lines := by
    have hlines := target.covered_mem
    rcases (hlines.1.trans hlines.2).eq_or_lt with hnone | hsome
    · rw [Tally.percent, percentage, if_pos hnone.symm] at hpercent
      cases hpercent
    · exact hsome
  obtain ⟨same, hsame⟩ := target.exists_isPercent hlines
  obtain rfl : same = percent := hsame.eq_of_computed hpercent
  obtain ⟨hleft, hright⟩ := hbounds target htarget hlines
  exact ⟨hlow.atMost hsame least.share_nonneg hleft, hsame.atMost hhigh target.share_nonneg hright⟩

/-- No line of a report fails for its percentage. -/
theorem fault?_lines_ne (style : ReportStyle) (targets : List Target) :
    fault? (lines style targets) ≠ some .quotientTooLarge := by
  rw [fault?_lines, fault?_write]
  split <;> simp

/-- **Percentages can be compared.** Those of two counts are in the order of the exact ratios, as
numbers and as texts to any number of places, and between nothing and a hundred. So, in a report,

* every percentage has its text, and none of them makes a line fail; it is `n/a` exactly for a file,
  or a total, without executable lines, and it fits its column of the table;
* where a file has executable lines, the overall percentage is between the least and the greatest
  percentage of the files that have some. -/
theorem percentages_ordered :
    (∀ count total count' total' : Int, 0 ≤ count → count ≤ total → 0 ≤ count' →
      count' ≤ total' → 0 < total → 0 < total' → count * total' ≤ count' * total →
      ∃ percent percent', percentage count total = .ok (some percent) ∧
        percentage count' total' = .ok (some percent') ∧
        percent.AtMost percent' ∧ percent.WithinHundred ∧ percent'.WithinHundred) ∧
    ∀ targets : List Target,
      (∀ style, fault? (lines style targets) ≠ some .quotientTooLarge) ∧
      (∀ target ∈ targets, target.file.tally.Shows target.file.executableLines) ∧
      (totals targets).Shows (targets.map (·.file.executableLines)).sum ∧
      ((∃ target ∈ targets, 0 < target.file.executableLines) →
        ∃ low overall high, Averages targets low overall high) := by
  constructor
  · intro count total count' total' hcount hle hcount' hle' hpos hpos' hcross
    obtain ⟨percent, h⟩ := exists_isPercent hcount hle hpos
    obtain ⟨percent', h'⟩ := exists_isPercent hcount' hle' hpos'
    have hnonneg := (share_mem hcount hle).1
    exact ⟨percent, percent', h.computed, h'.computed,
      h.atMost h' hnonneg (share_le_share hpos hpos' hcross),
      h.withinHundred hcount hle hpos, h'.withinHundred hcount' hle' hpos'⟩
  · intro targets
    refine ⟨fun style => fault?_lines_ne style targets, ?_, shows_totals targets, ?_⟩
    · intro target _
      rw [SourceFile.tally_eq, ← SourceFile.length_verdicts]
      exact Tally.shows_ofVerdicts target.file.verdicts
    · rintro ⟨target, htarget, hlines⟩
      refine exists_averages ⟨target, htarget, ?_⟩
      rw [target.file.agrees.lines]
      omega

end Report

end LineCoverage
