/-!
# `LineCoverage.Binary64`: binary floating point numbers as integers

A percentage is a number of the 64-bit binary format: a whole significand of 53
bits times a power of two. Here such a number is that pair, with its sign, so
what is computed and printed is exact arithmetic on integers.

* `ofRatio?` is the number nearest to a quotient, and of two equally near ones
  that with the even significand. A quotient beyond the largest number has none;
  one below the smallest becomes a zero.
* `fixed` is the decimal text of the exact value, to a fixed number of places,
  again to nearest with ties to even.
* `bits` is the layout of the format.

`roundHalfEven` is the one rounding rule behind both. `roundHalfEven_bounds`
says that it is off by at most half a unit, and `roundHalfEven_tie` that an
exact half goes to the even neighbour.
-/

set_option autoImplicit false

namespace LineCoverage

/-- The quotient `num / den` to the nearest whole number, an exact half to the even one. -/
def roundHalfEven (num den : Nat) : Nat :=
  let quotient := num / den
  let rest := num % den
  if 2 * rest < den then quotient
  else if den < 2 * rest then quotient + 1
  else quotient + quotient % 2

/-- Rounding moves a quotient by at most half a unit. -/
theorem roundHalfEven_bounds (num den : Nat) (h : 0 < den) :
    2 * num ≤ 2 * (roundHalfEven num den * den) + den
      ∧ 2 * (roundHalfEven num den * den) ≤ 2 * num + den := by
  have hsplit := Nat.div_add_mod num den
  have hrest := Nat.mod_lt num h
  -- At an exact half the quotient moves by its own parity.
  have hparity : num / den % 2 = 0 ∨ num / den % 2 = 1 := by omega
  rw [Nat.mul_comm] at hsplit
  simp only [roundHalfEven]
  split
  · omega
  split
  · rw [Nat.add_mul, Nat.one_mul]
    omega
  · rcases hparity with heven | hodd
    · rw [heven, Nat.add_zero]
      omega
    · rw [hodd, Nat.add_mul, Nat.one_mul]
      omega

/-- An exact half goes to the even neighbour. -/
theorem roundHalfEven_tie (num den : Nat) (h : 2 * (num % den) = den) :
    roundHalfEven num den % 2 = 0 := by
  simp only [roundHalfEven, h, Nat.lt_irrefl, if_false]
  omega

/-- Two to the power of `n`. -/
def pow2 (n : Nat) : Nat := Nat.pow 2 n

/-- Ten to the power of `n`. -/
def pow10 (n : Nat) : Nat := Nat.pow 10 n

/-- A finite number of the 64-bit binary format: `± significand * 2 ^ exponent`. -/
structure Binary64 where
  negative : Bool
  significand : Nat
  exponent : Int
  deriving DecidableEq, Repr

namespace Binary64

/-- The least exponent: the smallest positive number is `2 ^ minExponent`. -/
def minExponent : Int := -1074

/-- The greatest exponent of a finite number. -/
def maxExponent : Int := 971

/-- The quotient `num / den` in units of `2 ^ exponent`, rounded. -/
def roundAt (num den : Nat) (exponent : Int) : Nat :=
  if 0 ≤ exponent then roundHalfEven num (den * pow2 exponent.toNat)
  else roundHalfEven (num * pow2 (-exponent).toNat) den

/-- The whole part of the binary logarithm of `num / den`, for positive numbers. The difference
of the two lengths is that part or one too much. -/
def logRatio (num den : Nat) : Int :=
  let guess : Int := (num.log2 : Int) - den.log2
  let reached :=
    if 0 ≤ guess then den * pow2 guess.toNat ≤ num else den ≤ num * pow2 (-guess).toNat
  if reached then guess else guess - 1

/-- The number nearest to `± num / den`, for a positive `den`; none if that is beyond the
largest finite number. The exponent leaves room for a quotient of 53 bits, and does not fall
below the least one. Rounding up to 54 bits gives a power of two, which the next exponent
holds. -/
def ofRatio? (negative : Bool) (num den : Nat) : Option Binary64 :=
  if num = 0 then some ⟨negative, 0, minExponent⟩
  else
    let exponent := max (logRatio num den - 52) minExponent
    let significand := roundAt num den exponent
    -- Halving is exact here, since the significand is a power of two.
    let rounded : Binary64 :=
      if significand < pow2 53 then ⟨negative, significand, exponent⟩
      else ⟨negative, significand / 2, exponent + 1⟩
    if rounded.exponent ≤ maxExponent then some rounded else none

/-- The magnitude in units of `10 ^ -places`, rounded: the exact value to nearest, an exact half
to the even digit. -/
def scaled (x : Binary64) (places : Nat) : Nat :=
  let num := x.significand * pow10 places
  if 0 ≤ x.exponent then num * pow2 x.exponent.toNat
  else roundHalfEven num (pow2 (-x.exponent).toNat)

/-- The value in decimal notation with a fixed number of places after the point, and with no
point if there are none. The sign stays even where all digits are zero. -/
def fixed (x : Binary64) (places : Nat) : String :=
  let sign := if x.negative then "-" else ""
  let units := x.scaled places
  let whole := toString (units / pow10 places)
  if places = 0 then sign ++ whole
  else
    let digits := toString (units % pow10 places)
    sign ++ whole ++ "." ++ String.ofList (List.replicate (places - digits.length) '0') ++ digits

/-- The sixty-four bits: the sign, eleven bits of exponent, and the significand without its
leading bit. A significand of less than 53 bits belongs to the least exponent, whose eleven
bits are zero. -/
def bits (x : Binary64) : Nat :=
  let magnitude :=
    if x.significand < pow2 52 then x.significand
    else (x.exponent - minExponent + 1).toNat * pow2 52 + (x.significand - pow2 52)
  (if x.negative then pow2 63 else 0) + magnitude

/-- The machine's number of the same value. -/
def toFloat (x : Binary64) : Float := Float.ofBits (UInt64.ofNat x.bits)

end Binary64

end LineCoverage
