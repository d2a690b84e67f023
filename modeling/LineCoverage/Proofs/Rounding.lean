import LineCoverage.Binary64
import Mathlib.Algebra.Order.Field.Rat
import Mathlib.Data.Int.ModEq
import Mathlib.Tactic.FieldSimp
import Mathlib.Tactic.Linarith
import Mathlib.Tactic.NormNum
import Mathlib.Tactic.Positivity
import Mathlib.Tactic.Ring

/-!
# `LineCoverage.Proofs.Rounding`: rounding to whole numbers

`RoundsTo` says which whole number a rational one is rounded to: the nearest,
and from the middle between two the even one. It says so without a quotient or
a rest, and `roundsTo_roundHalfEven` is the bridge from the one rounding rule of
the library to it.

Everything else is about the relation. It goes up with what is rounded
(`RoundsTo.mono`), so it has one answer at most, and what it answers is at least
as near as any other whole number (`RoundsTo.abs_sub_le`).

`RoundsTo.near_of_close` is about a number that was moved a little before it is
rounded. A fraction `num / den` is either in the middle between two whole numbers
or at least `1 / (2 * den)` away from there. So, where it was moved by less than
that, it did not come past the middle.
-/

set_option autoImplicit false

namespace LineCoverage

/-- `n` is the whole number nearest to `q`, and of two equally near ones the even one. -/
structure RoundsTo (q : ℚ) (n : ℕ) : Prop where
  near : |q - n| ≤ 1 / 2
  even : |q - n| = 1 / 2 → Even n

namespace RoundsTo

variable {q r : ℚ} {n m : ℕ}

/-- Rounding keeps the order. -/
theorem mono (hn : RoundsTo q n) (hm : RoundsTo r m) (h : q ≤ r) : n ≤ m := by
  by_contra hlt
  have hstep : (m : ℚ) + 1 ≤ n := by exact_mod_cast Nat.lt_of_not_le hlt
  have hq := (abs_le.mp hn.near).1
  have hr := (abs_le.mp hm.near).2
  -- There is no room but for both of them in the middle between `m` and `n = m + 1`.
  have hnext : (n : ℚ) = m + 1 := by linarith
  have hqmid : |q - n| = 1 / 2 := by
    rw [show q - n = -(1 / 2) by linarith, abs_neg]
    norm_num
  have hrmid : |r - m| = 1 / 2 := by
    rw [show r - m = 1 / 2 by linarith]
    norm_num
  have hodd : Even (m + 1) := by
    have hsucc : n = m + 1 := by exact_mod_cast hnext
    exact hsucc ▸ hn.even hqmid
  exact (Nat.even_add_one.mp hodd) (hm.even hrmid)

/-- There is one answer at most. -/
theorem unique (hn : RoundsTo q n) (hm : RoundsTo q m) : n = m :=
  Nat.le_antisymm (hn.mono hm le_rfl) (hm.mono hn le_rfl)

/-- A whole number stays as it is. -/
theorem natCast (n : ℕ) : RoundsTo n n where
  near := by simp
  even h := by simp at h

/-- Two whole numbers are at least one apart. -/
private theorem one_le_abs_sub {k : ℤ} (hne : k ≠ n) : 1 ≤ |q - n| + |q - k| := by
  have hint : (1 : ℤ) ≤ |(k : ℤ) - n| := Int.one_le_abs (sub_ne_zero.mpr hne)
  have hrat : (1 : ℚ) ≤ |(k : ℚ) - n| := by exact_mod_cast hint
  calc (1 : ℚ) ≤ |(k : ℚ) - n| := hrat
    _ = |(q - n) - (q - k)| := by congr 1; ring
    _ ≤ |q - n| + |q - k| := abs_sub _ _

/-- No whole number is nearer. -/
theorem abs_sub_le (h : RoundsTo q n) (k : ℤ) : |q - n| ≤ |q - k| := by
  by_cases hne : k = n
  · rw [hne]
    exact_mod_cast le_rfl
  · have hfar := one_le_abs_sub (q := q) hne
    have hnear := h.near
    linarith

/-- If another one is as near, the answer is even. -/
theorem even_of_abs_sub_eq (h : RoundsTo q n) {k : ℤ} (hne : k ≠ n)
    (heq : |q - k| = |q - n|) : Even n := by
  have hfar := one_le_abs_sub (q := q) hne
  exact h.even (le_antisymm h.near (by linarith))

/-- Where a fraction was moved by less than the least distance that it can have from the middle
between two whole numbers, the answer is still at most a half away from it. -/
theorem near_of_close {num den : ℕ} (hden : 0 < den) (h : RoundsTo q n)
    (hclose : |q - num / den| < 1 / (2 * den)) : |(num : ℚ) / den - n| ≤ 1 / 2 := by
  have hpos : (0 : ℚ) < den := by exact_mod_cast hden
  have hreach : |(num : ℚ) / den - n| < 1 / 2 + 1 / (2 * den) := by
    calc |(num : ℚ) / den - n| = |(q - n) - (q - num / den)| := by congr 1; ring
      _ ≤ |q - n| + |q - num / den| := abs_sub _ _
      _ < 1 / 2 + 1 / (2 * den) := add_lt_add_of_le_of_lt h.near hclose
  -- In units of `1 / (2 * den)` all of this is about integers.
  have hscaled : (num : ℚ) / den - n = ((2 * num - 2 * n * den : ℤ) : ℚ) / (2 * den) := by
    push_cast
    field_simp
  have habs : |(num : ℚ) / den - n| = ((|2 * num - 2 * n * den| : ℤ) : ℚ) / (2 * den) := by
    rw [hscaled, abs_div, abs_of_pos (by positivity : (0 : ℚ) < 2 * den), Int.cast_abs]
  rw [habs] at hreach ⊢
  have hlt : ((|2 * num - 2 * n * den| : ℤ) : ℚ) < den + 1 := by
    rw [div_lt_iff₀ (by positivity)] at hreach
    calc ((|2 * num - 2 * n * den| : ℤ) : ℚ) < (1 / 2 + 1 / (2 * den)) * (2 * den) := hreach
      _ = den + 1 := by field_simp
  have hle : |2 * (num : ℤ) - 2 * n * den| ≤ den := by
    have hint : |2 * (num : ℤ) - 2 * n * den| < den + 1 := by exact_mod_cast hlt
    omega
  rw [div_le_iff₀ (by positivity)]
  calc ((|2 * num - 2 * n * den| : ℤ) : ℚ) ≤ den := by exact_mod_cast hle
    _ = 1 / 2 * (2 * den) := by ring

end RoundsTo

/-- Rounding a quotient is rounding the rational number. -/
theorem roundsTo_roundHalfEven (num : ℕ) {den : ℕ} (hden : 0 < den) :
    RoundsTo ((num : ℚ) / den) (roundHalfEven num den) where
  near := by
    have hpos : (0 : ℚ) < den := by exact_mod_cast hden
    obtain ⟨hlow, hhigh⟩ := roundHalfEven_bounds num den hden
    have hlow' : 2 * (num : ℚ) ≤ 2 * (roundHalfEven num den * den) + den := by exact_mod_cast hlow
    have hhigh' : 2 * (roundHalfEven num den * den : ℚ) ≤ 2 * num + den := by exact_mod_cast hhigh
    have hscaled : (num : ℚ) / den - roundHalfEven num den
        = (num - roundHalfEven num den * den) / den := by
      field_simp
    rw [hscaled, abs_div, abs_of_pos hpos, div_le_iff₀ hpos, abs_le]
    constructor <;> linarith
  even hhalf := by
    have hpos : (0 : ℚ) < den := by exact_mod_cast hden
    rw [Nat.even_iff]
    refine roundHalfEven_tie num den ?_
    -- Twice the quotient is odd, so that half of the divisor is left.
    have hscaled : |(num : ℚ) - roundHalfEven num den * den| = den / 2 := by
      have hdiff : (num : ℚ) - roundHalfEven num den * den
          = ((num : ℚ) / den - roundHalfEven num den) * den := by
        field_simp
      rw [hdiff, abs_mul, hhalf, abs_of_pos hpos]
      ring
    have hint : 2 * (num : ℤ) = (2 * roundHalfEven num den + 1) * den ∨
        2 * (num : ℤ) = (2 * roundHalfEven num den - 1) * den := by
      rcases abs_eq (by positivity : (0 : ℚ) ≤ den / 2) |>.mp hscaled with hup | hdown
      · left
        have hrat : 2 * (num : ℚ) = (2 * roundHalfEven num den + 1) * den := by linarith
        exact_mod_cast hrat
      · right
        have hrat : 2 * (num : ℚ) = (2 * roundHalfEven num den - 1) * den := by linarith
        exact_mod_cast hrat
    have hmod : (2 * (num : ℤ)) % (2 * den) = den := by
      have hrest : (den : ℤ) % (2 * den) = den := Int.emod_eq_of_lt (by omega) (by omega)
      rcases hint with hup | hdown
      · rw [hup, show (2 * (roundHalfEven num den : ℤ) + 1) * den
          = den + 2 * den * roundHalfEven num den by ring, Int.add_mul_emod_self_left, hrest]
      · rw [hdown, show (2 * (roundHalfEven num den : ℤ) - 1) * den
          = den + 2 * den * (roundHalfEven num den - 1) by ring, Int.add_mul_emod_self_left, hrest]
    have hnat : (2 * num) % (2 * den) = den := by exact_mod_cast hmod
    rwa [Nat.mul_mod_mul_left] at hnat

end LineCoverage
