import Mathlib.Algebra.Order.Ring.Int
import Mathlib.Tactic.Linarith
import Mathlib.Tactic.Ring

/-!
# Fixed-point decimals

`sdk.Dec`, the decimal of the Cosmos SDK with 18 digits after the point, as far as this repository
computes with it. A value is its number of units of 10⁻¹⁸. Products are rounded half to even.

* `mul_ofInt`, `mul_ofInt_right`: a product with a whole number is exact, no rounding takes place.
-/

namespace Smartdoge

/-- A decimal, in units of 10⁻¹⁸. -/
@[ext] structure Dec where
  units : ℤ
deriving DecidableEq

namespace Dec

/-- Units in one. -/
def precision : ℤ := 10 ^ 18

/-- Source: `sdk.NewDec`, `sdk.NewDecFromBigInt` -/
def ofInt (n : ℤ) : Dec := ⟨n * precision⟩

/-- Divide by the precision, rounding half to even.
Source: `sdk.chopPrecisionAndRound`, on a non-negative number -/
def chopPrecision (x : ℤ) : ℤ :=
  let quo := x / precision
  let rem := x % precision
  if 2 * rem < precision then quo
  else if precision < 2 * rem then quo + 1
  else if quo % 2 = 0 then quo
  else quo + 1

/-- Source: `sdk.chopPrecisionAndRound` -/
def chopPrecisionAndRound (x : ℤ) : ℤ := if x < 0 then -chopPrecision (-x) else chopPrecision x

/-- Source: `sdk.Dec.Mul` -/
def mul (a b : Dec) : Dec := ⟨chopPrecisionAndRound (a.units * b.units)⟩

/-- Source: `sdk.MaxDec` -/
def max (a b : Dec) : Dec := if a.units < b.units then b else a

/-- Source: `sdk.Dec.LT` -/
def lt (a b : Dec) : Bool := a.units < b.units

/-- Source: `sdk.Dec.IsZero` -/
def isZero (a : Dec) : Bool := a.units = 0

/-- Source: `sdk.Dec.TruncateInt` -/
def truncateInt (a : Dec) : ℤ := a.units.tdiv precision

/-- The precision is not zero. -/
theorem precision_pos : 0 < precision := by decide

/-- A multiple of the precision is not rounded. -/
theorem chopPrecision_mul (x : ℤ) : chopPrecision (x * precision) = x := by
  have hpos := precision_pos
  simp only [chopPrecision, Int.mul_emod_left, Int.mul_ediv_cancel x hpos.ne', mul_zero, if_pos hpos]

/-- Multiplying by an integer is exact. -/
theorem mul_ofInt (n : ℤ) (m : Dec) : mul (ofInt n) m = ⟨n * m.units⟩ := by
  have hcomm : n * precision * m.units = n * m.units * precision := by ring
  ext1
  show chopPrecisionAndRound (n * precision * m.units) = n * m.units
  rw [hcomm, chopPrecisionAndRound]
  split_ifs
  · rw [← neg_mul, chopPrecision_mul, neg_neg]
  · exact chopPrecision_mul _

/-- So it is from the other side. -/
theorem mul_ofInt_right (m : Dec) (n : ℤ) : mul m (ofInt n) = ⟨m.units * n⟩ := by
  have hcomm : mul m (ofInt n) = mul (ofInt n) m := by
    unfold mul
    rw [mul_comm]
  rw [hcomm, mul_ofInt, mul_comm]

end Dec

end Smartdoge
