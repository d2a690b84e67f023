import LineCoverage.Binary64

/-!
# `LineCoverage.Report.Heat`: how hot a line is

A page shades every line by how often it ran, in ten steps on a logarithmic
scale up to the most frequent count of the file. The step is computed in the
machine's floating point numbers. Counts are not limited in size, so a count
beyond those numbers is split into a fraction and a power of two first.
-/

set_option autoImplicit false

namespace LineCoverage

/-- A positive number as a fraction `x` of at least a half and less than one, and an exponent
`e`: the nearest `x * 2 ^ e` with a significand of 53 bits. -/
def splitPower (n : Nat) : Binary64 × Nat :=
  let length := n.log2 + 1
  match Binary64.ofRatio? false n (pow2 length) with
  | none => (⟨false, 0, Binary64.minExponent⟩, 0)
  | some x =>
    -- Rounding up to one moves the point.
    if x.significand * pow2 52 = pow2 (52 - x.exponent).toNat then
      ({ x with exponent := x.exponent - 1 }, length + 1)
    else (x, length)

/-- The natural logarithm of a positive whole number. -/
def naturalLog (n : Nat) : Float :=
  match Binary64.ofRatio? false n 1 with
  | some x => x.toFloat.log
  | none =>
    let (x, exponent) := splitPower n
    x.toFloat.log + (2.0 : Float).log * Float.ofNat exponent

/-- The greatest of some counts, and zero if there are none. -/
def greatest (counts : List Int) : Int := counts.max?.getD 0

/-- The hottest step. -/
def maxHeat : Nat := 9

/-- The step of a line whose instructions have these counts, in a file whose greatest count is
`hottest`. A line that never ran is cold, and so is every line where nothing ran twice. -/
def heat (counts : List Int) (hottest : Int) : Nat :=
  let count := greatest counts
  if count ≤ 0 || hottest ≤ 1 then 0
  else
    let ratio := 10 * naturalLog (1 + count).toNat / naturalLog (1 + hottest).toNat
    min maxHeat ratio.toUInt64.toNat

end LineCoverage
