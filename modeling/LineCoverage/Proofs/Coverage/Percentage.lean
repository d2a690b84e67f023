import LineCoverage.Proofs.Coverage.Tally
import LineCoverage.Proofs.Decimal
import LineCoverage.Report.Page

/-!
# `LineCoverage.Proofs.Coverage.Percentage`: percentages are rounded twice

A percentage is an exact ratio (`share`) that is rounded to a binary number, and
that number is rounded once more for its text. `IsPercent` says what the first
rounding gives for a count that does not exceed its total: a number, the nearest
one, and so between nothing and a hundred, in the order of the ratios.

Two roundings are not one. The second can only go astray where the first one came
past, or to, the middle between two texts. For a ratio below 128 the first one is
off by `2 ^ -47` at most (`IsPercent.abs_sub_le`), and a ratio of two numbers
below `2 ^ 42` that is not in the middle is farther away from it, also from that
between two tenths. What is in the middle between two whole numbers is not
rounded the first time. So `percentText_rounded` can say what the texts have to
do with the ratio, without a word about the number in between.
-/

set_option autoImplicit false

namespace LineCoverage

open Binary64

/-- The exact percentage that a count is of its total. -/
def share (count total : Int) : ℚ := 100 * count / total

variable {count total : Int}

/-- A count that does not exceed its total is between nothing and a hundred per cent. -/
theorem share_mem (hcount : 0 ≤ count) (hle : count ≤ total) :
    0 ≤ share count total ∧ share count total ≤ 100 := by
  have hnonneg : (0 : ℚ) ≤ count := by exact_mod_cast hcount
  have hcast : (count : ℚ) ≤ total := by exact_mod_cast hle
  constructor
  · exact div_nonneg (by linarith) (by linarith)
  · refine div_le_of_le_mul₀ (by linarith) (by norm_num) ?_
    linarith

/-- Shares are compared crosswise. -/
theorem share_le_share {count' total' : Int} (hpos : 0 < total) (hpos' : 0 < total')
    (h : count * total' ≤ count' * total) : share count total ≤ share count' total' := by
  have hcast : (count : ℚ) * total' ≤ count' * total := by exact_mod_cast h
  unfold share
  rw [div_le_div_iff₀ (by exact_mod_cast hpos) (by exact_mod_cast hpos')]
  linarith

/-- Up to a hundred the last of 53 bits is at `2 ^ -46`. -/
theorem lastPlace_le {r : ℚ} (hr : 0 ≤ r) (h : r ≤ 100) : lastPlace r ≤ -46 := by
  have hlog : Int.log 2 r < 7 := by
    rcases hr.eq_or_lt with rfl | hpos
    · rw [Int.log_zero_right]
      norm_num
    · refine (Int.lt_zpow_iff_log_lt (by norm_num) hpos).mp ?_
      norm_num
      linarith
  unfold lastPlace minExponent
  omega

/-! ### The first rounding -/

/-- What the percentage is that a count has of its total. -/
structure IsPercent (count total : Int) (percent : Binary64) : Prop where
  computed : percentage count total = .ok (some percent)
  positive : percent.negative = false
  nearest : Nearest (share count total) percent
  rounds : Rounds (share count total) percent.toRat

/-- A count that does not exceed its total has a percentage. -/
theorem exists_isPercent (hcount : 0 ≤ count) (hle : count ≤ total) (hpos : 0 < total) :
    ∃ percent, IsPercent count total percent := by
  have hsign : (decide (count < 0) != decide (total < 0)) = false := by
    rw [decide_eq_false (by omega), decide_eq_false (by omega)]
    rfl
  have hden : 0 < total.natAbs := by omega
  obtain ⟨percent, hpercent⟩ :=
    exists_ofRatio false (show 100 * count.natAbs ≤ 100 * total.natAbs by omega)
  have hshare : ((100 * count.natAbs : ℕ) : ℚ) / (total.natAbs : ℕ) = share count total := by
    have hnum : ((count.natAbs : ℤ) : ℚ) = count := by rw [Int.natAbs_of_nonneg hcount]
    have htotal : ((total.natAbs : ℤ) : ℚ) = total := by rw [Int.natAbs_of_nonneg hpos.le]
    rw [share, ← hnum, ← htotal, Nat.cast_mul]
    rfl
  refine ⟨percent, ?_, (exists_units hden hpercent).1, ?_, ?_⟩
  · unfold percentage
    rw [if_neg hpos.ne', hsign, hpercent]
  · rw [← hshare]
    exact nearest_of_ofRatio? hden hpercent
  · rw [← hshare]
    exact rounds_of_ofRatio? hden hpercent

namespace IsPercent

variable {percent : Binary64}

/-- Percentages are in the order of the shares. -/
theorem mono {count' total' : Int} {percent' : Binary64} (h : IsPercent count total percent)
    (h' : IsPercent count' total' percent') (hnonneg : 0 ≤ share count total)
    (hle : share count total ≤ share count' total') : percent.toRat ≤ percent'.toRat :=
  h.rounds.mono h'.rounds hnonneg hle

/-- The rounded percentage is off by `2 ^ -47` at most. -/
theorem abs_sub_le (h : IsPercent count total percent) (hcount : 0 ≤ count)
    (hle : count ≤ total) : |share count total - percent.toRat| ≤ 1 / 2 ^ 47 := by
  obtain ⟨hnonneg, hhundred⟩ := share_mem hcount hle
  have hplace : (2 : ℚ) ^ lastPlace (share count total) ≤ 2 ^ (-46 : ℤ) :=
    zpow_le_zpow_right₀ (by norm_num) (lastPlace_le hnonneg hhundred)
  calc |share count total - percent.toRat|
      ≤ 2 ^ lastPlace (share count total) / 2 := h.rounds.abs_sub_le
    _ ≤ 2 ^ (-46 : ℤ) / 2 := div_le_div_of_nonneg_right hplace (by norm_num)
    _ = 1 / 2 ^ 47 := by norm_num

/-- A whole number of halves is not rounded. -/
theorem eq_share {halves : ℕ} (h : IsPercent count total percent) (hcount : 0 ≤ count)
    (hle : count ≤ total) (hhalves : share count total = halves / 2) :
    percent.toRat = share count total := by
  obtain ⟨hnonneg, hhundred⟩ := share_mem hcount hle
  have hgrid : share count total = halves * 2 ^ (-1 : ℤ) := by
    rw [hhalves]
    norm_num
    ring
  have hplace := lastPlace_le hnonneg hhundred
  have hrounds := h.rounds
  rw [hgrid] at hplace hrounds ⊢
  exact hrounds.eq_self (by omega)

end IsPercent

/-! ### The second rounding -/

namespace IsPercent

variable {percent : Binary64}

/-- With a total up to `2 ^ 42` ten times what the first rounding is off by is less than the
distance of a share from the middle between two texts, if it is not there. -/
private theorem close_of_total_le (h : IsPercent count total percent) (hcount : 0 ≤ count)
    (hle : count ≤ total) (hpos : 0 < total) (hbound : total ≤ 2 ^ 42) :
    10 * |share count total - percent.toRat| < 1 / (2 * total) := by
  have hoff := h.abs_sub_le hcount hle
  have htotal : (0 : ℚ) < total := by exact_mod_cast hpos
  have hcast : (total : ℚ) ≤ 2 ^ 42 := by exact_mod_cast hbound
  rw [lt_div_iff₀ (by linarith)]
  calc 10 * |share count total - percent.toRat| * (2 * total)
      ≤ 10 * (1 / 2 ^ 47) * (2 * 2 ^ 42) := by gcongr
    _ < 1 := by norm_num

/-- A text to one place is off by half a place at most, as if it had been rounded once. -/
theorem abs_tenths_sub_le (h : IsPercent count total percent) (hcount : 0 ≤ count)
    (hle : count ≤ total) (hpos : 0 < total) (hbound : total ≤ 2 ^ 42) {tenths : ℕ}
    (htenths : RoundsTo (percent.toRat * 10) tenths) :
    |(tenths : ℚ) / 10 - share count total| ≤ 1 / 20 := by
  have hclose := h.close_of_total_le hcount hle hpos hbound
  lift count to ℕ using hcount
  lift total to ℕ using hpos.le
  have hshare : share count total * 10 = ((1000 * count : ℕ) : ℚ) / (total : ℕ) := by
    rw [share]
    push_cast
    ring
  have hmoved : |percent.toRat * 10 - ((1000 * count : ℕ) : ℚ) / (total : ℕ)|
      < 1 / (2 * (total : ℕ)) := by
    calc |percent.toRat * 10 - ((1000 * count : ℕ) : ℚ) / (total : ℕ)|
        = 10 * |share count total - percent.toRat| := by
          rw [← hshare, ← sub_mul, abs_mul, abs_sub_comm, mul_comm]
          norm_num
      _ < 1 / (2 * (total : ℕ)) := hclose
  have hnear := htenths.near_of_close (by exact_mod_cast hpos) hmoved
  rw [← hshare, abs_le] at hnear
  rw [abs_le]
  constructor <;> linarith

/-- A text without places is the share rounded once. -/
theorem roundsTo_share (h : IsPercent count total percent) (hcount : 0 ≤ count)
    (hle : count ≤ total) (hpos : 0 < total) (hbound : total ≤ 2 ^ 42) {whole : ℕ}
    (hwhole : RoundsTo percent.toRat whole) : RoundsTo (share count total) whole where
  near := by
    have hclose := h.close_of_total_le hcount hle hpos hbound
    lift count to ℕ using hcount
    lift total to ℕ using hpos.le
    have hshare : share count total = ((100 * count : ℕ) : ℚ) / (total : ℕ) := by
      rw [share]
      push_cast
      rfl
    have hmoved : |percent.toRat - ((100 * count : ℕ) : ℚ) / (total : ℕ)|
        < 1 / (2 * (total : ℕ)) := by
      have hnonneg := abs_nonneg (share count total - percent.toRat)
      rw [← hshare, abs_sub_comm]
      refine lt_of_le_of_lt ?_ hclose
      linarith
    rw [hshare]
    exact hwhole.near_of_close (by exact_mod_cast hpos) hmoved
  even hhalf := by
    have hnonneg := (share_mem hcount hle).1
    -- What is in the middle is a whole number of halves, so that the first rounding kept it.
    have hhalves : ∃ halves : ℕ, share count total = halves / 2 := by
      rcases (abs_eq (by norm_num)).mp hhalf with hup | hdown
      · refine ⟨2 * whole + 1, ?_⟩
        push_cast
        linarith
      · have hone : 1 ≤ whole := by
          by_contra hzero
          obtain rfl : whole = 0 := by omega
          norm_num at hdown
          linarith
        refine ⟨2 * whole - 1, ?_⟩
        rw [Nat.cast_sub (by omega)]
        push_cast
        linarith
    obtain ⟨halves, hhalves⟩ := hhalves
    have hkept := h.eq_share hcount hle hhalves
    exact hwhole.even (by rw [hkept]; exact hhalf)

end IsPercent

/-! ### Texts -/

variable {tally : Tally} {percent : Binary64}

/-- The text of a percentage to some places, with its unit. -/
theorem Tally.percentText_of_isPercent (h : IsPercent count tally.lines percent) (places : ℕ)
    (unit : String) : tally.percentText places unit count = .ok (percent.fixed places ++ unit) := by
  unfold percentText Tally.percent
  rw [h.computed]

/-- It stands for the units of the last place. -/
theorem IsPercent.value?_fixed (h : IsPercent count total percent) (places : ℕ) :
    Decimal.value? (percent.fixed places) = some ((percent.scaled places : ℚ) / 10 ^ places) := by
  rw [Binary64.value?_fixed, h.positive, if_neg Bool.false_ne_true, one_mul]

/-- **Percentages are rounded correctly, although they are rounded twice.** Where a count is of at
most `2 ^ 42` lines, its percentage is computed, as the nearest binary number to the exact share,
of two the one with the even significand, and its texts are the exact value of that number, rounded
once more. Even so,

* the text to one decimal place is at most half a place away from the share;
* the text without decimal places is the share rounded to the nearest whole number, from the middle
  to the even one. -/
theorem percentText_rounded (hcount : 0 ≤ count) (hle : count ≤ tally.lines)
    (hlines : 1 ≤ tally.lines) (hbound : tally.lines ≤ 2 ^ 42) :
    ∃ percent : Binary64, tally.percent count = .ok (some percent) ∧
      Nearest (100 * count / tally.lines) percent ∧
      (∃ (text : String) (tenths : ℕ), tally.percentText 1 "" count = .ok text ∧
        Decimal.value? text = some ((tenths : ℚ) / 10) ∧
        RoundsTo (percent.toRat * 10) tenths ∧
        |(tenths : ℚ) / 10 - 100 * count / tally.lines| ≤ 1 / 20) ∧
      ∃ (text : String) (whole : ℕ), Page.percentText tally count = .ok (text ++ "%") ∧
        Decimal.value? text = some (whole : ℚ) ∧
        RoundsTo percent.toRat whole ∧
        RoundsTo (100 * count / tally.lines) whole := by
  have hpos : 0 < tally.lines := by omega
  obtain ⟨percent, h⟩ := exists_isPercent hcount hle hpos
  have htenths : RoundsTo (percent.toRat * 10) (percent.scaled 1) := by
    simpa using roundsTo_scaled h.positive 1
  have hwhole : RoundsTo percent.toRat (percent.scaled 0) := by
    simpa using roundsTo_scaled h.positive 0
  refine ⟨percent, h.computed, h.nearest, ?_, ?_⟩
  · refine ⟨percent.fixed 1, percent.scaled 1, ?_, ?_, htenths, ?_⟩
    · rw [Tally.percentText_of_isPercent h, String.append_empty]
    · simpa using h.value?_fixed 1
    · exact h.abs_tenths_sub_le hcount hle hpos hbound htenths
  · refine ⟨percent.fixed 0, percent.scaled 0, ?_, ?_, hwhole, ?_⟩
    · exact Tally.percentText_of_isPercent h 0 "%"
    · simpa using h.value?_fixed 0
    · exact h.roundsTo_share hcount hle hpos hbound hwhole

/-- A count that is so close below 83.5 per cent of its total that no share of a total up to
`2 ^ 42` is closer: the text says 83, and not 84, which is even. -/
theorem percentText_rounded_near_half :
    let tally : Tally := ⟨3672368836771, 0, 725677674332, 0⟩
    tally.lines ≤ 2 ^ 42 ∧
    167 / 2 - 100 * (tally.covered : ℚ) / tally.lines = 1 / (2 * tally.lines) ∧
    ∃ percent : Binary64, tally.percent tally.covered = .ok (some percent) ∧
      ∃ text, Page.percentText tally tally.covered = .ok (text ++ "%") ∧
        Decimal.value? text = some 83 := by
  intro tally
  have hlines : (tally.lines : ℚ) = 2 ^ 42 - 1 := by
    rw [show tally.lines = 2 ^ 42 - 1 by decide]
    norm_num
  have hcovered : (tally.covered : ℚ) = 3672368836771 := by norm_num [tally]
  obtain ⟨percent, hpercent, -, -, text, whole, htext, hvalue, -, hwhole⟩ :=
    percentText_rounded (show 0 ≤ tally.covered by decide)
      (show tally.covered ≤ tally.lines by decide) (by decide) (by decide)
  have hrounds : RoundsTo (100 * (tally.covered : ℚ) / tally.lines) 83 := by
    rw [hlines, hcovered]
    constructor <;> norm_num [abs_of_pos]
  refine ⟨by decide, ?_, percent, hpercent, text, htext, ?_⟩
  · rw [hlines, hcovered]
    norm_num
  · rw [hvalue, hwhole.unique hrounds]
    rfl

end LineCoverage
