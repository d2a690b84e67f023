import LineCoverage.Proofs.Rounding
import Mathlib.Algebra.Order.Field.Power
import Mathlib.Data.Int.Log
import Mathlib.Data.Rat.Floor

/-!
# `LineCoverage.Proofs.Binary64`: quotients rounded to binary numbers

A number of the format stands for a rational one, `toRat`. `Nearest` says that it
is the one that a rational number is rounded to: no number of the format is
nearer, and if another one is as near, the significand is even.

A quotient is rounded to a multiple of a power of two that depends on the
quotient alone, `2 ^ lastPlace`, the place of the last of its 53 bits. `Rounds`
is that rule, said of rational numbers. What has to be known about rounding
follows from it:

* `nearest_of_ofRatio?`: the result is the nearest number of the format. On the
  grid of the multiples this is how whole numbers are rounded; a number that is
  not on the grid is too small to come near.
* `Rounds.mono`: it keeps the order, also where the two quotients lie on
  different grids.
* `Rounds.abs_sub_le` and `Rounds.eq_self`: it is off by half a place at most, and
  not at all where the quotient is on the grid.

`rounds_of_ofRatio?` is the bridge from `ofRatio?`. Quotients are not negative
here.
-/

set_option autoImplicit false

namespace LineCoverage.Binary64

/-- The exact value of a number. -/
def toRat (x : Binary64) : ℚ :=
  (if x.negative then -1 else 1) * (x.significand * 2 ^ x.exponent)

/-- The numbers of the format: the significand has 53 bits, or less at the least exponent. -/
structure InFormat (x : Binary64) : Prop where
  significand : x.significand < 2 ^ 53
  minExponent : minExponent ≤ x.exponent
  maxExponent : x.exponent ≤ maxExponent
  normal : 2 ^ 52 ≤ x.significand ∨ x.exponent = Binary64.minExponent

/-- `x` is the number of the format nearest to `r`, and of two equally near ones the one with the
even significand. -/
structure Nearest (r : ℚ) (x : Binary64) : Prop where
  inFormat : x.InFormat
  nearest : ∀ y : Binary64, y.InFormat → |r - x.toRat| ≤ |r - y.toRat|
  even : ∀ y : Binary64, y.InFormat → y.toRat ≠ x.toRat → |r - y.toRat| = |r - x.toRat| →
    Even x.significand

/-- A power of two is positive. -/
private theorem two_zpow_pos (e : ℤ) : (0 : ℚ) < 2 ^ e := by positivity

/-- Powers of two are ordered like their exponents. -/
private theorem two_zpow_le {e f : ℤ} (h : e ≤ f) : (2 : ℚ) ^ e ≤ 2 ^ f :=
  zpow_le_zpow_right₀ (by norm_num) h

/-- A power of two as a product. -/
private theorem two_zpow_add (n : ℕ) (e : ℤ) : (2 : ℚ) ^ (e + n) = 2 ^ n * 2 ^ e := by
  rw [zpow_add₀ (by norm_num), zpow_natCast, mul_comm]

/-! ### The place of the last bit -/

/-- The exponent of the last of the 53 bits of `r`. It does not fall below the least exponent. -/
def lastPlace (r : ℚ) : ℤ := max (Int.log 2 r - 52) minExponent

/-- A number that is not negative is below 53 bits of its grid. -/
theorem lt_of_lastPlace (r : ℚ) : r < 2 ^ 53 * 2 ^ lastPlace r := by
  have hlog := Int.lt_zpow_succ_log_self (b := 2) (by norm_num) r
  calc r < 2 ^ (Int.log 2 r + 1) := by exact_mod_cast hlog
    _ ≤ 2 ^ (lastPlace r + (53 : ℕ)) := by
        refine two_zpow_le ?_
        unfold lastPlace
        omega
    _ = 2 ^ 53 * 2 ^ lastPlace r := two_zpow_add 53 (lastPlace r)

/-- Above the least exponent all 53 bits are there. -/
theorem le_of_lastPlace {r : ℚ} (hr : 0 < r) (h : minExponent < lastPlace r) :
    2 ^ 52 * 2 ^ lastPlace r ≤ r := by
  have hlog := Int.zpow_log_le_self (b := 2) (by norm_num) hr
  have hplace : lastPlace r + (52 : ℕ) = Int.log 2 r := by
    unfold lastPlace at h ⊢
    omega
  rw [← two_zpow_add 52 (lastPlace r), hplace]
  exact_mod_cast hlog

/-- The grid of a greater number is not finer. -/
theorem lastPlace_mono {r r' : ℚ} (hr : 0 < r) (h : r ≤ r') : lastPlace r ≤ lastPlace r' := by
  have hlog := Int.log_mono_right (b := 2) hr h
  unfold lastPlace
  omega

/-! ### Rounding on the grid -/

/-- `value` is `r` rounded to its last place. -/
def Rounds (r value : ℚ) : Prop :=
  ∃ units : ℕ, RoundsTo (r / 2 ^ lastPlace r) units ∧ value = units * 2 ^ lastPlace r

namespace Rounds

variable {r r' value value' : ℚ}

/-- The distance to a multiple of a place, in units of that place. -/
private theorem abs_sub_mul (r k : ℚ) (e : ℤ) :
    |r - k * 2 ^ e| = |r / 2 ^ e - k| * 2 ^ e := by
  have hpos := two_zpow_pos e
  have hdiff : r - k * 2 ^ e = (r / 2 ^ e - k) * 2 ^ e := by field_simp
  rw [hdiff, abs_mul, abs_of_pos hpos]

/-- What is rounded is off by half a place at most. -/
theorem abs_sub_le (h : Rounds r value) : |r - value| ≤ 2 ^ lastPlace r / 2 := by
  obtain ⟨units, hunits, rfl⟩ := h
  have hpos := two_zpow_pos (lastPlace r)
  rw [abs_sub_mul]
  calc |r / 2 ^ lastPlace r - units| * 2 ^ lastPlace r
      ≤ 1 / 2 * 2 ^ lastPlace r := mul_le_mul_of_nonneg_right hunits.near hpos.le
    _ = 2 ^ lastPlace r / 2 := by ring

/-- A multiple of a power of two that is no smaller than the last place is not rounded. -/
theorem eq_self {e : ℤ} {k : ℕ} (h : Rounds (k * 2 ^ e) value)
    (he : lastPlace (k * 2 ^ e) ≤ e) : value = k * 2 ^ e := by
  obtain ⟨units, hunits, rfl⟩ := h
  generalize lastPlace (k * 2 ^ e) = place at hunits he ⊢
  obtain ⟨shift, rfl⟩ : ∃ shift : ℕ, e = place + shift :=
    ⟨(e - place).toNat, by omega⟩
  have hpos := two_zpow_pos place
  have hwhole : (k : ℚ) * 2 ^ (place + shift) / 2 ^ place = ((k * 2 ^ shift : ℕ) : ℚ) := by
    rw [two_zpow_add]
    push_cast
    field_simp
  rw [hwhole] at hunits
  rw [hunits.unique (RoundsTo.natCast _), two_zpow_add]
  push_cast
  ring

/-- No multiple of the last place is nearer. -/
theorem abs_sub_le_multiple (h : Rounds r value) (k : ℤ) :
    |r - value| ≤ |r - k * 2 ^ lastPlace r| := by
  obtain ⟨units, hunits, rfl⟩ := h
  rw [abs_sub_mul, abs_sub_mul]
  exact mul_le_mul_of_nonneg_right (hunits.abs_sub_le k) (two_zpow_pos _).le

/-- Rounding keeps the order. Of numbers on different grids the greater one has 53 bits, and the
smaller one is not rounded beyond that. -/
theorem mono (h : Rounds r value) (h' : Rounds r' value') (hr : 0 ≤ r) (hle : r ≤ r') :
    value ≤ value' := by
  rcases hr.eq_or_lt with rfl | hpos
  · -- Zero is a whole number of places.
    have hzero : value = 0 := by
      have h0 : Rounds ((0 : ℕ) * 2 ^ lastPlace 0) value := by simpa using h
      simpa using h0.eq_self (by simp)
    obtain ⟨units', -, rfl⟩ := h'
    rw [hzero]
    positivity
  · have hplaces := lastPlace_mono hpos hle
    rcases hplaces.eq_or_lt with hsame | hfiner
    · obtain ⟨units, hunits, rfl⟩ := h
      obtain ⟨units', hunits', rfl⟩ := h'
      rw [← hsame] at hunits' ⊢
      have hdiv : r / 2 ^ lastPlace r ≤ r' / 2 ^ lastPlace r :=
        div_le_div_of_nonneg_right hle (two_zpow_pos _).le
      have hunitsle : (units : ℚ) ≤ units' := by exact_mod_cast hunits.mono hunits' hdiv
      exact mul_le_mul_of_nonneg_right hunitsle (two_zpow_pos _).le
    · have hvalue : value ≤ 2 ^ 53 * 2 ^ lastPlace r := by
        obtain ⟨units, hunits, rfl⟩ := h
        have hdiv : r / 2 ^ lastPlace r ≤ ((2 ^ 53 : ℕ) : ℚ) := by
          rw [div_le_iff₀ (two_zpow_pos _)]
          exact_mod_cast (lt_of_lastPlace r).le
        have hunitsle : (units : ℚ) ≤ 2 ^ 53 := by
          exact_mod_cast hunits.mono (RoundsTo.natCast _) hdiv
        exact mul_le_mul_of_nonneg_right hunitsle (two_zpow_pos _).le
      have hvalue' : 2 ^ 52 * 2 ^ lastPlace r' ≤ value' := by
        obtain ⟨units', hunits', rfl⟩ := h'
        have hfull : 2 ^ 52 * 2 ^ lastPlace r' ≤ r' :=
          le_of_lastPlace (hpos.trans_le hle) (lt_of_le_of_lt (le_max_right _ _) hfiner)
        have hdiv : ((2 ^ 52 : ℕ) : ℚ) ≤ r' / 2 ^ lastPlace r' := by
          rw [le_div_iff₀ (two_zpow_pos _)]
          exact_mod_cast hfull
        have hunitsle : (2 : ℚ) ^ 52 ≤ units' := by
          exact_mod_cast (RoundsTo.natCast _).mono hunits' hdiv
        exact mul_le_mul_of_nonneg_right hunitsle (two_zpow_pos _).le
      calc value ≤ 2 ^ 53 * 2 ^ lastPlace r := hvalue
        _ = 2 ^ 52 * 2 ^ (lastPlace r + (1 : ℕ)) := by rw [two_zpow_add]; ring
        _ ≤ 2 ^ 52 * 2 ^ lastPlace r' := by
            refine mul_le_mul_of_nonneg_left (two_zpow_le ?_) (by norm_num)
            omega
        _ ≤ value' := hvalue'

end Rounds

/-! ### Quotients -/

section Quotients

variable {num den : ℕ} {x : Binary64}

/-- A quotient is compared with a power of two in whole numbers. -/
theorem two_zpow_le_div_iff (num : ℕ) (hden : 0 < den) (e : ℤ) :
    (2 : ℚ) ^ e ≤ (num : ℚ) / den
      ↔ if 0 ≤ e then den * pow2 e.toNat ≤ num else den ≤ num * pow2 (-e).toNat := by
  have hpos : (0 : ℚ) < den := by exact_mod_cast hden
  rw [le_div_iff₀ hpos]
  split
  · rename_i he
    obtain ⟨n, rfl⟩ := Int.eq_ofNat_of_zero_le he
    show (2 : ℚ) ^ (n : ℤ) * den ≤ num ↔ den * 2 ^ n ≤ num
    rw [zpow_natCast, mul_comm]
    exact_mod_cast Iff.rfl
  · rename_i he
    obtain ⟨n, hn⟩ : ∃ n : ℕ, e = -n := ⟨(-e).toNat, by omega⟩
    subst hn
    rw [neg_neg, Int.toNat_natCast, zpow_neg, zpow_natCast, inv_mul_le_iff₀ (by positivity),
      mul_comm]
    show (den : ℚ) ≤ num * 2 ^ n ↔ den ≤ num * 2 ^ n
    exact_mod_cast Iff.rfl

/-- The whole part of the binary logarithm. -/
theorem logRatio_eq (hnum : 0 < num) (hden : 0 < den) :
    logRatio num den = Int.log 2 ((num : ℚ) / den) := by
  have hpos : (0 : ℚ) < num / den := by positivity
  have hden' : (0 : ℚ) < den := by exact_mod_cast hden
  have hnumlow : (2 : ℚ) ^ num.log2 ≤ num := by exact_mod_cast Nat.log2_self_le hnum.ne'
  have hnumhigh : (num : ℚ) < 2 ^ (num.log2 + 1) := by
    exact_mod_cast Nat.lt_log2_self (n := num)
  have hdenlow : (2 : ℚ) ^ den.log2 ≤ den := by exact_mod_cast Nat.log2_self_le hden.ne'
  have hdenhigh : (den : ℚ) < 2 ^ (den.log2 + 1) := by
    exact_mod_cast Nat.lt_log2_self (n := den)
  -- The lengths leave two possible values.
  have hlow : (num.log2 : ℤ) - den.log2 - 1 ≤ Int.log 2 ((num : ℚ) / den) := by
    refine (Int.zpow_le_iff_le_log (by norm_num) hpos).mp ?_
    rw [le_div_iff₀ hden']
    calc ((2 : ℕ) : ℚ) ^ ((num.log2 : ℤ) - den.log2 - 1) * den
        ≤ 2 ^ ((num.log2 : ℤ) - den.log2 - 1) * 2 ^ (den.log2 + 1) :=
          mul_le_mul_of_nonneg_left hdenhigh.le (two_zpow_pos _).le
      _ = 2 ^ num.log2 := by
          rw [← zpow_natCast, ← zpow_natCast, ← zpow_add₀ (by norm_num)]
          congr 1
          push_cast
          ring
      _ ≤ num := hnumlow
  have hhigh : Int.log 2 ((num : ℚ) / den) < (num.log2 : ℤ) - den.log2 + 1 := by
    refine (Int.lt_zpow_iff_log_lt (by norm_num) hpos).mp ?_
    rw [div_lt_iff₀ hden']
    calc (num : ℚ) < 2 ^ (num.log2 + 1) := hnumhigh
      _ = 2 ^ ((num.log2 : ℤ) - den.log2 + 1) * 2 ^ den.log2 := by
          rw [← zpow_natCast, ← zpow_natCast, ← zpow_add₀ (by norm_num)]
          congr 1
          push_cast
          ring
      _ ≤ ((2 : ℕ) : ℚ) ^ ((num.log2 : ℤ) - den.log2 + 1) * den :=
          mul_le_mul_of_nonneg_left hdenlow (two_zpow_pos _).le
  have hreached := (two_zpow_le_div_iff num hden ((num.log2 : ℤ) - den.log2)).symm.trans
    (Int.zpow_le_iff_le_log (b := 2) (by norm_num) hpos)
  unfold logRatio
  dsimp only
  rw [if_congr hreached rfl rfl]
  split <;> omega

/-- A quotient in units of a power of two is rounded. -/
theorem roundsTo_roundAt (num : ℕ) (hden : 0 < den) (e : ℤ) :
    RoundsTo ((num : ℚ) / den / 2 ^ e) (roundAt num den e) := by
  unfold roundAt
  split
  · rename_i he
    obtain ⟨n, rfl⟩ := Int.eq_ofNat_of_zero_le he
    have hunits : (num : ℚ) / den / 2 ^ (n : ℤ) = (num : ℚ) / ((den * 2 ^ n : ℕ) : ℚ) := by
      push_cast
      rw [zpow_natCast, div_div]
    rw [hunits]
    exact roundsTo_roundHalfEven num (Nat.mul_pos hden (Nat.two_pow_pos n))
  · rename_i he
    obtain ⟨n, hn⟩ : ∃ n : ℕ, e = -n := ⟨(-e).toNat, by omega⟩
    subst hn
    have hunits : (num : ℚ) / den / 2 ^ (-(n : ℤ)) = ((num * 2 ^ n : ℕ) : ℚ) / den := by
      push_cast
      rw [zpow_neg, zpow_natCast]
      field_simp
    rw [hunits, neg_neg, Int.toNat_natCast]
    exact roundsTo_roundHalfEven (num * 2 ^ n) hden

/-- A quotient is at most 53 bits of its grid after rounding, and has all of them above the least
exponent. -/
theorem roundAt_bounds (hnum : 0 < num) (hden : 0 < den) :
    roundAt num den (lastPlace ((num : ℚ) / den)) ≤ 2 ^ 53 ∧
      (minExponent < lastPlace ((num : ℚ) / den) →
        2 ^ 52 ≤ roundAt num den (lastPlace ((num : ℚ) / den))) := by
  have hpos : (0 : ℚ) < num / den := by positivity
  have hrounds := roundsTo_roundAt num hden (lastPlace ((num : ℚ) / den))
  constructor
  · refine hrounds.mono (RoundsTo.natCast (2 ^ 53)) ?_
    rw [div_le_iff₀ (two_zpow_pos _)]
    exact_mod_cast (lt_of_lastPlace ((num : ℚ) / den)).le
  · intro habove
    refine (RoundsTo.natCast (2 ^ 52)).mono hrounds ?_
    rw [le_div_iff₀ (two_zpow_pos _)]
    exact_mod_cast le_of_lastPlace hpos habove

/-- What a quotient is rounded to is a number of the format, a whole number of last places. -/
theorem exists_units (hden : 0 < den) (h : ofRatio? false num den = some x) :
    x.negative = false ∧ x.InFormat ∧
      ∃ units : ℕ, RoundsTo ((num : ℚ) / den / 2 ^ lastPlace ((num : ℚ) / den)) units ∧
        x.toRat = units * 2 ^ lastPlace ((num : ℚ) / den) ∧
        (Even units → Even x.significand) := by
  rcases Nat.eq_zero_or_pos num with rfl | hnum
  · obtain rfl : (⟨false, 0, minExponent⟩ : Binary64) = x := Option.some.inj h
    refine ⟨rfl, ⟨by norm_num, le_rfl, by decide, .inr rfl⟩, 0, ?_, ?_, fun h => h⟩
    · simpa using RoundsTo.natCast 0
    · simp [toRat]
  · have hplace : max (logRatio num den - 52) minExponent = lastPlace ((num : ℚ) / den) := by
      rw [logRatio_eq hnum hden, lastPlace]
    have hrounds := roundsTo_roundAt num hden (lastPlace ((num : ℚ) / den))
    obtain ⟨hle, hfull⟩ := roundAt_bounds hnum hden
    have hmin : minExponent ≤ lastPlace ((num : ℚ) / den) := le_max_right _ _
    unfold ofRatio? at h
    simp only [if_neg hnum.ne', hplace] at h
    generalize lastPlace ((num : ℚ) / den) = place at h hrounds hle hfull hmin ⊢
    generalize roundAt num den place = units at h hrounds hle hfull
    split at h
    · rename_i hshort
      split at h
      · rename_i hmax
        cases h
        refine ⟨rfl, ⟨hshort, hmin, hmax, ?_⟩, units, hrounds, ?_, fun h => h⟩
        · rcases hmin.eq_or_lt with hleast | habove
          · exact .inr hleast.symm
          · exact .inl (hfull habove)
        · simp [toRat]
      · cases h
    · rename_i hlong
      -- Rounded up to 54 bits, which are a power of two.
      obtain rfl : units = 2 ^ 53 := Nat.le_antisymm hle (Nat.le_of_not_lt hlong)
      split at h
      · rename_i hmax
        cases h
        refine ⟨rfl, ⟨by norm_num, by dsimp only; omega, hmax, .inl (by norm_num)⟩, 2 ^ 53, hrounds,
          ?_, fun _ => (by decide : Even (2 ^ 53 / 2))⟩
        have hhalf : (2 ^ 53 / 2 : ℕ) = 2 ^ 52 := by norm_num
        simp only [toRat, hhalf]
        rw [show place + 1 = place + (1 : ℕ) from rfl, two_zpow_add]
        push_cast
        ring
      · cases h

/-- What a quotient is rounded to is what the rule says. -/
theorem rounds_of_ofRatio? (hden : 0 < den) (h : ofRatio? false num den = some x) :
    Rounds ((num : ℚ) / den) x.toRat := by
  obtain ⟨-, -, units, hunits, hvalue, -⟩ := exists_units hden h
  exact ⟨units, hunits, hvalue⟩

/-- A number of the format is on the grid of a quotient, or below a number on the grid that is
still below the quotient. -/
theorem multiple_or_below {r : ℚ} (hr : 0 < r) {y : Binary64} (hy : y.InFormat) :
    (∃ k : ℤ, y.toRat = k * 2 ^ lastPlace r) ∨
      ∃ k : ℤ, y.toRat < k * 2 ^ lastPlace r ∧ k * 2 ^ lastPlace r ≤ r := by
  rcases Int.lt_or_le y.exponent (lastPlace r) with hfiner | hcoarser
  · right
    have habove : minExponent < lastPlace r := lt_of_le_of_lt hy.minExponent hfiner
    refine ⟨2 ^ 52, ?_, by exact_mod_cast le_of_lastPlace hr habove⟩
    have hsignificand : (y.significand : ℚ) < 2 ^ 53 := by exact_mod_cast hy.significand
    have hmagnitude : (y.significand : ℚ) * 2 ^ y.exponent < 2 ^ 52 * 2 ^ lastPlace r := by
      calc (y.significand : ℚ) * 2 ^ y.exponent
          < 2 ^ 53 * 2 ^ y.exponent := mul_lt_mul_of_pos_right hsignificand (two_zpow_pos _)
        _ = 2 ^ 52 * 2 ^ (y.exponent + (1 : ℕ)) := by rw [two_zpow_add]; ring
        _ ≤ 2 ^ 52 * 2 ^ lastPlace r := by
            refine mul_le_mul_of_nonneg_left (two_zpow_le ?_) (by norm_num)
            omega
    have hnonneg : (0 : ℚ) ≤ y.significand * 2 ^ y.exponent := by positivity
    have hvalue : y.toRat ≤ y.significand * 2 ^ y.exponent := by
      unfold toRat
      split <;> linarith
    push_cast
    exact hvalue.trans_lt hmagnitude
  · left
    obtain ⟨shift, hshift⟩ : ∃ shift : ℕ, y.exponent = lastPlace r + shift :=
      ⟨(y.exponent - lastPlace r).toNat, by omega⟩
    refine ⟨(if y.negative then -1 else 1) * (y.significand * 2 ^ shift), ?_⟩
    unfold toRat
    rw [hshift, two_zpow_add]
    split <;> push_cast <;> ring

/-- What a quotient is rounded to is the nearest number of the format. -/
theorem nearest_of_ofRatio? (hden : 0 < den) (h : ofRatio? false num den = some x) :
    Nearest ((num : ℚ) / den) x := by
  obtain ⟨-, hformat, units, hunits, hvalue, heven⟩ := exists_units hden h
  have hrounds := rounds_of_ofRatio? hden h
  have hnonneg : (0 : ℚ) ≤ num / den := by positivity
  generalize (num : ℚ) / den = r at hunits hvalue hrounds hnonneg ⊢
  rcases hnonneg.eq_or_lt with rfl | hpos
  · have hzero : x.toRat = 0 := by
      have h0 : Rounds ((0 : ℕ) * 2 ^ lastPlace 0) x.toRat := by simpa using hrounds
      simpa using h0.eq_self (by simp)
    refine ⟨hformat, fun y _ => ?_, fun y _ hne heq => ?_⟩
    · rw [hzero, sub_self, abs_zero]
      exact abs_nonneg _
    · rw [hzero, sub_self, abs_zero, abs_eq_zero, zero_sub, neg_eq_zero] at heq
      exact absurd (heq.trans hzero.symm) hne
  · -- A number below the grid is strictly farther.
    have hbelow : ∀ (y : Binary64) (k : ℤ), y.toRat < k * 2 ^ lastPlace r →
        k * 2 ^ lastPlace r ≤ r → |r - x.toRat| < |r - y.toRat| := by
      intro y k hlt hle
      calc |r - x.toRat| ≤ |r - k * 2 ^ lastPlace r| := hrounds.abs_sub_le_multiple k
        _ = r - k * 2 ^ lastPlace r := abs_of_nonneg (by linarith)
        _ < r - y.toRat := by linarith
        _ ≤ |r - y.toRat| := le_abs_self _
    refine ⟨hformat, fun y hy => ?_, fun y hy hne heq => ?_⟩
    · rcases multiple_or_below hpos hy with ⟨k, hk⟩ | ⟨k, hlt, hle⟩
      · rw [hk]
        exact hrounds.abs_sub_le_multiple k
      · exact (hbelow y k hlt hle).le
    · rcases multiple_or_below hpos hy with ⟨k, hk⟩ | ⟨k, hlt, hle⟩
      · rw [hk, hvalue, Rounds.abs_sub_mul, Rounds.abs_sub_mul] at heq
        have hother : k ≠ units := by
          rintro rfl
          exact hne (by rw [hk, hvalue]; push_cast; rfl)
        exact heven (hunits.even_of_abs_sub_eq hother
          (mul_right_cancel₀ (two_zpow_pos _).ne' heq))
      · exact absurd heq (hbelow y k hlt hle).ne'

end Quotients

end LineCoverage.Binary64
