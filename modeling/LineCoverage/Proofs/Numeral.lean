import LineCoverage.Numeral
import Mathlib.Data.List.Induction
import Mathlib.Data.Nat.Digits.Defs

/-!
# `LineCoverage.Proofs.Numeral`: what a numeral is worth

A numeral is read from the left, one digit after another. `positional` says what
it stands for in the decimal system, where every digit counts by its place, and
`value_eq_positional` that this is what is read. Of a numeral that is too long
nothing is read (`read_eq_ok_iff`), and a number that is too long is not written
(`write_eq_ok_iff`). What was read can be written: `lt_firstTooLong_of_read`.
-/

set_option autoImplicit false

namespace LineCoverage.Numeral

open Text

/-- The number that a run of digits stands for in the decimal system. -/
def positional (digits : List Char) : Nat :=
  Nat.ofDigits 10 (digits.reverse.map fun c => (digitValue? c).getD 0)

/-- A numeral is worth its digits, each at its place. -/
theorem value_eq_positional (digits : List Char) : value digits = positional digits := by
  -- The digits are read from the left, so the last one is added to ten times the others.
  induction digits using List.reverseRecOn with
  | nil => rfl
  | append_singleton digits c ih =>
      have hvalue : value (digits ++ [c]) = 10 * value digits + (digitValue? c).getD 0 := by
        simp [value]
      have hpositional :
          positional (digits ++ [c]) = (digitValue? c).getD 0 + 10 * positional digits := by
        simp [positional, Nat.ofDigits_cons]
      rw [hvalue, hpositional, ih, Nat.add_comm]

/-- A numeral is read if it is not too long. -/
theorem read_eq_ok_iff (digits : List Char) (number : Nat) :
    read digits = .ok number ↔ digits.length ≤ maxDigits ∧ number = positional digits := by
  unfold read
  split
  · rename_i hlong
    simp [Nat.not_le.mpr hlong]
  · rename_i hshort
    rw [value_eq_positional, Except.ok.injEq, eq_comm]
    simp [Nat.not_lt.mp hshort]

/-- A number is written in decimal if it is not too long. -/
theorem write_eq_ok_iff (n : Int) (text : String) :
    write n = .ok text ↔ n.natAbs < firstTooLong ∧ text = toString n := by
  unfold write
  split
  · rename_i hlong
    simp [Nat.not_lt.mpr hlong]
  · rename_i hshort
    rw [Except.ok.injEq, eq_comm]
    simp [Nat.not_le.mp hshort]

/-- The value of a digit is less than ten. -/
private theorem getD_digitValue?_lt (c : Char) : (digitValue? c).getD 0 < 10 := by
  unfold digitValue?
  cases hzero : digitZeros.find? fun z => z ≤ c.toNat && c.toNat < z + 10 with
  | none => simp
  | some z =>
      have hrange := List.find?_some hzero
      simp only [Bool.and_eq_true, decide_eq_true_eq] at hrange
      simp only [Option.map_some, Option.getD_some]
      omega

/-- A numeral is worth less than the power of ten with as many zeros. -/
theorem positional_lt {digits : List Char} {places : Nat} (h : digits.length ≤ places) :
    positional digits < 10 ^ places := by
  have hdigits : ∀ digit ∈ digits.reverse.map fun c => (digitValue? c).getD 0, digit < 10 := by
    intro digit hdigit
    obtain ⟨c, -, rfl⟩ := List.mem_map.mp hdigit
    exact getD_digitValue?_lt c
  calc positional digits < 10 ^ (digits.reverse.map fun c => (digitValue? c).getD 0).length :=
        Nat.ofDigits_lt_base_pow_length (by decide) hdigits
    _ ≤ 10 ^ places := by
        rw [List.length_map, List.length_reverse]
        exact Nat.pow_le_pow_right (by decide) h

/-- So many nines are worth one less than the power of ten with as many zeros. -/
theorem positional_nines (places : Nat) :
    positional (List.replicate places '9') + 1 = 10 ^ places := by
  have hdigits : positional (List.replicate places '9')
      = Nat.ofDigits 10 (List.replicate places 9) := by
    unfold positional
    rw [List.reverse_replicate, List.map_replicate]
    rfl
  rw [hdigits]
  clear hdigits
  induction places with
  | zero => rfl
  | succ places ih =>
      rw [List.replicate_succ, Nat.ofDigits_cons, Nat.pow_succ]
      omega

/-- The greatest number that can be read is the last one that is not too long to be written. -/
theorem read_nines : read (List.replicate maxDigits '9') = .ok (firstTooLong - 1) := by
  refine (read_eq_ok_iff _ _).mpr ⟨List.length_replicate.le, ?_⟩
  unfold firstTooLong
  -- The limit is no number to compute with.
  generalize maxDigits = places
  exact Nat.sub_eq_of_eq_add (positional_nines places).symm

/-- A number of one digit is not too long to be written. -/
theorem ten_le_firstTooLong : 10 ≤ firstTooLong := by
  have hplaces : 1 ≤ maxDigits := by decide
  unfold firstTooLong
  generalize maxDigits = places at hplaces ⊢
  exact Nat.pow_le_pow_right (show 0 < 10 by decide) hplaces

/-- A number that was read is not too long to be written. -/
theorem lt_firstTooLong_of_read {digits : List Char} {number : Nat} (h : read digits = .ok number) :
    number < firstTooLong := by
  obtain ⟨hlength, rfl⟩ := (read_eq_ok_iff digits number).mp h
  unfold firstTooLong
  -- The limit is no number to compute with.
  generalize maxDigits = places at hlength ⊢
  exact positional_lt hlength

end LineCoverage.Numeral
