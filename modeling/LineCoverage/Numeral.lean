import LineCoverage.Fault
import LineCoverage.Text.DecimalDigit

/-!
# `LineCoverage.Numeral`: reading and writing decimal numbers

A numeral is a run of decimal digits of any scripts, mixed as they come, leading
zeros allowed. Its length is limited, its value is not: `read` refuses a numeral
by its number of digits alone.

A number may grow beyond that length after it was read, when it is added to
another. It can be counted with as before, but `write` refuses it.
-/

set_option autoImplicit false

namespace LineCoverage.Numeral

open LineCoverage.Text

/-- The value of a run of digits, most significant digit first. -/
def value (digits : List Char) : Nat :=
  digits.foldl (fun total c => 10 * total + (digitValue? c).getD 0) 0

/-- The value of a run of at most `maxDigits` digits. -/
def read (digits : List Char) : Except Fault Nat :=
  if maxDigits < digits.length then .error (.numberTooLong digits.length)
  else .ok (value digits)

/-- A numeral is refused exactly for its length. -/
theorem read_eq_error_iff (digits : List Char) (fault : Fault) :
    read digits = .error fault
      ↔ maxDigits < digits.length ∧ fault = .numberTooLong digits.length := by
  unfold read
  split
  · rename_i h
    simp [h, eq_comm]
  · rename_i h
    simp [h]

/-- The least number with more than `maxDigits` digits. -/
def firstTooLong : Nat := Nat.pow 10 maxDigits

/-- The decimal text of a number of at most `maxDigits` digits, a sign not counted. -/
def write (n : Int) : Except Fault String :=
  if firstTooLong ≤ n.natAbs then .error .numberTooLongToWrite else .ok (toString n)

end LineCoverage.Numeral
