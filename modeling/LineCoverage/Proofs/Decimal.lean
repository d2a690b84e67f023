import LineCoverage.Proofs.Binary64

/-!
# `LineCoverage.Proofs.Decimal`: what a decimal text stands for

A report shows a number as a text with a fixed number of decimal places.
`value?` reads such a text: a minus or none, digits, and after a point more of
them. It knows nothing of how the text was made. `value?_fixed` says that it
reads the number that was to be written, the exact value in units of the last
place after one rounding (`roundsTo_scaled`), whatever the number of places.

So texts to the same number of places are in the order of the numbers that they
show (`scaled_mono`).
-/

set_option autoImplicit false

namespace LineCoverage

namespace Decimal

/-! ### Reading -/

/-- Whether a text is a run of digits, of one at least. -/
def isNumeral (text : List Char) : Bool := !text.isEmpty && text.all Char.isDigit

/-- The number that a text without a sign stands for. The digits behind the point count as many
places less as there are of them. -/
def magnitude? (text : List Char) : Option ℚ :=
  match text.splitOn '.' with
  | [whole] => if isNumeral whole then some (Nat.ofDigitChars 10 whole 0 : ℚ) else none
  | [whole, rest] =>
    if isNumeral whole && isNumeral rest then
      some ((Nat.ofDigitChars 10 whole 0 : ℚ)
        + (Nat.ofDigitChars 10 rest 0 : ℚ) / 10 ^ rest.length)
    else none
  | _ => none

/-- The number that a text stands for. -/
def value? (text : String) : Option ℚ :=
  match text.toList with
  | '-' :: magnitude => (magnitude? magnitude).map fun value => -value
  | magnitude => magnitude? magnitude

/-! ### Runs of digits -/

/-- A run of digits is neither a sign nor a point. -/
private theorem not_mem_of_isNumeral {text : List Char} (h : isNumeral text = true) {c : Char}
    (hc : c.isDigit = false) : c ∉ text := by
  intro hmem
  have hall := (Bool.and_eq_true_iff.mp h).2
  have hdigit : c.isDigit = true := List.all_eq_true.mp hall c hmem
  rw [hc] at hdigit
  cases hdigit

/-- Digits without a point stand for a whole number. -/
theorem magnitude?_whole {whole : List Char} (h : isNumeral whole = true) :
    magnitude? whole = some (Nat.ofDigitChars 10 whole 0 : ℚ) := by
  have hpoint : '.' ∉ whole := not_mem_of_isNumeral h (by decide)
  unfold magnitude?
  rw [List.splitOn_eq_singleton hpoint]
  exact if_pos h

/-- Digits on both sides of a point. -/
theorem magnitude?_point {whole rest : List Char} (hwhole : isNumeral whole = true)
    (hrest : isNumeral rest = true) :
    magnitude? (whole ++ '.' :: rest)
      = some ((Nat.ofDigitChars 10 whole 0 : ℚ)
          + (Nat.ofDigitChars 10 rest 0 : ℚ) / 10 ^ rest.length) := by
  have hleft : '.' ∉ whole := not_mem_of_isNumeral hwhole (by decide)
  have hright : '.' ∉ rest := not_mem_of_isNumeral hrest (by decide)
  unfold magnitude?
  rw [List.splitOn_append_cons_self, List.splitOn_eq_singleton hleft,
    List.splitOn_eq_singleton hright]
  show (if (isNumeral whole && isNumeral rest) = true then _ else _) = _
  rw [if_pos (by rw [hwhole, hrest]; rfl)]

/-- A text that starts with a digit has no sign. -/
theorem value?_of_isNumeral {whole rest : List Char} (h : isNumeral whole = true) :
    value? (String.ofList (whole ++ rest)) = magnitude? (whole ++ rest) := by
  cases whole with
  | nil => cases h
  | cons c more =>
      have hsign : '-' ≠ c := by
        rintro rfl
        exact not_mem_of_isNumeral h (by decide) List.mem_cons_self
      unfold value?
      rw [String.toList_ofList, List.cons_append]
      split
      · rename_i heq
        exact absurd (List.cons.inj heq).1.symm hsign
      · rfl

/-- What is written of a number is a run of digits. -/
theorem isNumeral_toDigits (n : ℕ) : isNumeral (Nat.toDigits 10 n) = true := by
  have hdigits : ∀ c ∈ Nat.toDigits 10 n, c.isDigit = true :=
    fun c hc => Nat.isDigit_of_mem_toDigits (by norm_num) (by norm_num) hc
  simp only [isNumeral, Bool.and_eq_true, Bool.not_eq_true', List.isEmpty_eq_false_iff,
    List.all_eq_true]
  exact ⟨Nat.toDigits_ne_nil, hdigits⟩

/-- The digits behind the point, with zeros before them up to the number of places. -/
def placeDigits (places n : ℕ) : List Char :=
  List.replicate (places - (Nat.toDigits 10 n).length) '0' ++ Nat.toDigits 10 n

/-- They are a run of digits. -/
theorem isNumeral_placeDigits (places n : ℕ) : isNumeral (placeDigits places n) = true := by
  obtain ⟨hne, hall⟩ := Bool.and_eq_true_iff.mp (isNumeral_toDigits n)
  have hzeros : (List.replicate (places - (Nat.toDigits 10 n).length) '0').all Char.isDigit
      = true := by
    rw [List.all_eq_true]
    intro c hc
    rw [List.eq_of_mem_replicate hc]
    decide
  rw [isNumeral, placeDigits, List.all_append, hzeros, hall]
  simp

/-- There are as many as there are places. -/
theorem length_placeDigits {places n : ℕ} (hplaces : 0 < places) (h : n < 10 ^ places) :
    (placeDigits places n).length = places := by
  have hlength : (Nat.toDigits 10 n).length ≤ places :=
    (Nat.length_toDigits_le_iff (by norm_num) hplaces).mpr h
  rw [placeDigits, List.length_append, List.length_replicate]
  omega

/-- The zeros are worth nothing. -/
theorem ofDigitChars_placeDigits (places n : ℕ) :
    Nat.ofDigitChars 10 (placeDigits places n) 0 = n := by
  rw [placeDigits, Nat.ofDigitChars_append, Nat.ofDigitChars_replicate_zero, Nat.mul_zero,
    Nat.ofDigitChars_ten_toDigits]

end Decimal

/-! ### Numbers to a fixed number of places -/

namespace Binary64

open Decimal

/-- The units of the last place without a sign, as they are written. -/
def digitsOf (units places : ℕ) : List Char :=
  if places = 0 then Nat.toDigits 10 units
  else Nat.toDigits 10 (units / 10 ^ places) ++ '.' :: placeDigits places (units % 10 ^ places)

/-- A number is written as its sign and its digits. -/
theorem toList_fixed (x : Binary64) (places : ℕ) :
    (x.fixed places).toList
      = (if x.negative then ['-'] else []) ++ digitsOf (x.scaled places) places := by
  have hsign : (if x.negative then "-" else "").toList = if x.negative then ['-'] else [] := by
    split <;> rfl
  have hdigits : ∀ n : ℕ, (toString n).toList = Nat.toDigits 10 n := fun n => Nat.toList_repr
  have hlength : ∀ n : ℕ, (toString n).length = (Nat.toDigits 10 n).length := fun n => by
    rw [← String.length_toList, hdigits]
  have hpoint : ".".toList = ['.'] := by decide
  unfold fixed digitsOf
  dsimp only
  by_cases hplaces : places = 0
  · rw [if_pos hplaces, if_pos hplaces, String.toList_append, hsign, hdigits, hplaces]
    rw [show pow10 0 = 1 from rfl, Nat.div_one]
  · rw [if_neg hplaces, if_neg hplaces]
    simp only [String.toList_append, String.toList_ofList, hsign, hdigits, hlength, hpoint,
      placeDigits, List.append_assoc, List.singleton_append]
    rfl

/-- The digits stand for the units, each of them one of the last place. -/
theorem magnitude?_digitsOf (units places : ℕ) :
    magnitude? (digitsOf units places) = some ((units : ℚ) / 10 ^ places) := by
  unfold digitsOf
  by_cases hplaces : places = 0
  · rw [if_pos hplaces, magnitude?_whole (isNumeral_toDigits units),
      Nat.ofDigitChars_ten_toDigits, hplaces]
    simp
  · rw [if_neg hplaces, magnitude?_point (isNumeral_toDigits _) (isNumeral_placeDigits _ _),
      Nat.ofDigitChars_ten_toDigits, ofDigitChars_placeDigits,
      length_placeDigits (Nat.pos_of_ne_zero hplaces) (Nat.mod_lt _ (by positivity))]
    have hsplit : (units : ℚ)
        = 10 ^ places * ((units / 10 ^ places : ℕ) : ℚ) + ((units % 10 ^ places : ℕ) : ℚ) := by
      exact_mod_cast (Nat.div_add_mod units (10 ^ places)).symm
    congr 1
    rw [hsplit]
    field_simp

/-- The digits start with a digit. -/
theorem exists_digitsOf (units places : ℕ) :
    ∃ whole rest, isNumeral whole = true ∧ digitsOf units places = whole ++ rest := by
  unfold digitsOf
  split
  · exact ⟨_, [], isNumeral_toDigits units, (List.append_nil _).symm⟩
  · exact ⟨_, _, isNumeral_toDigits _, rfl⟩

/-- The text of a number stands for its magnitude in units of the last place, with its sign. -/
theorem value?_fixed (x : Binary64) (places : ℕ) :
    value? (x.fixed places)
      = some ((if x.negative then -1 else 1) * ((x.scaled places : ℚ) / 10 ^ places)) := by
  have htext : x.fixed places
      = String.ofList ((if x.negative then ['-'] else []) ++ digitsOf (x.scaled places) places) := by
    rw [← toList_fixed, String.ofList_toList]
  have hmagnitude := magnitude?_digitsOf (x.scaled places) places
  rw [htext]
  cases x.negative with
  | true =>
      show value? (String.ofList ('-' :: digitsOf (x.scaled places) places)) = _
      unfold value?
      rw [String.toList_ofList]
      show (magnitude? (digitsOf (x.scaled places) places)).map _ = _
      rw [hmagnitude, Option.map_some, if_pos rfl, neg_one_mul]
  | false =>
      obtain ⟨whole, rest, hwhole, heq⟩ := exists_digitsOf (x.scaled places) places
      rw [heq] at hmagnitude ⊢
      show value? (String.ofList (whole ++ rest)) = _
      rw [value?_of_isNumeral hwhole, hmagnitude, if_neg Bool.false_ne_true, one_mul]

/-- The exact value is rounded once. -/
theorem roundsTo_scaled {x : Binary64} (h : x.negative = false) (places : ℕ) :
    RoundsTo (x.toRat * 10 ^ places) (x.scaled places) := by
  have hvalue : x.toRat = x.significand * 2 ^ x.exponent := by simp [toRat, h]
  rw [hvalue]
  unfold scaled
  dsimp only
  split
  · rename_i he
    obtain ⟨n, hn⟩ := Int.eq_ofNat_of_zero_le he
    rw [hn, Int.toNat_natCast, zpow_natCast]
    have hwhole : (x.significand : ℚ) * 2 ^ n * 10 ^ places
        = ((x.significand * pow10 places * pow2 n : ℕ) : ℚ) := by
      show _ = ((x.significand * 10 ^ places * 2 ^ n : ℕ) : ℚ)
      push_cast
      ring
    rw [hwhole]
    exact RoundsTo.natCast _
  · rename_i he
    obtain ⟨n, hn⟩ : ∃ n : ℕ, x.exponent = -n := ⟨(-x.exponent).toNat, by omega⟩
    rw [hn, neg_neg, Int.toNat_natCast, zpow_neg, zpow_natCast]
    have hquotient : (x.significand : ℚ) * (2 ^ n)⁻¹ * 10 ^ places
        = ((x.significand * pow10 places : ℕ) : ℚ) / ((pow2 n : ℕ) : ℚ) := by
      show _ = ((x.significand * 10 ^ places : ℕ) : ℚ) / ((2 ^ n : ℕ) : ℚ)
      push_cast
      field_simp
    rw [hquotient]
    exact roundsTo_roundHalfEven _ (Nat.two_pow_pos n)

/-- Texts to the same number of places are in the order of the numbers that they show. -/
theorem scaled_mono {x y : Binary64} (hx : x.negative = false) (hy : y.negative = false)
    (h : x.toRat ≤ y.toRat) (places : ℕ) : x.scaled places ≤ y.scaled places :=
  (roundsTo_scaled hx places).mono (roundsTo_scaled hy places)
    (mul_le_mul_of_nonneg_right h (by positivity))

end Binary64

end LineCoverage
