import Mathlib.Tactic.Common

/-!
# The gas meter of a transaction

`types/gasmeter.go`: a meter that counts gas and never runs out. It panics where the count leaves the range of
`uint64`.

* `resetGasMeterAndConsumeGas_eq`: whatever was metered before, a reset leaves the amount that is consumed
  after it.
-/

namespace Smartdoge

/-- The panics of the meter. -/
inductive GasPanic where
  /-- `ErrorGasOverflow`. -/
  | gasOverflow
  /-- `ErrorNegativeGasConsumed`. -/
  | negativeGasConsumed
deriving DecidableEq

/-- Source: `types/gasmeter.go` `infiniteGasMeterWithLimit` -/
structure GasMeter where
  consumed : UInt64
  limit : UInt64
deriving DecidableEq

/-- Source: `types/gasmeter.go` `addUint64Overflow` -/
def addUint64Overflow (a b : UInt64) : UInt64 × Bool :=
  if 18446744073709551615 - a < b then (0, true) else (a + b, false)

namespace GasMeter

/-- Source: `types/gasmeter.go` `ConsumeGas` -/
def consumeGas (g : GasMeter) (amount : UInt64) : Except GasPanic GasMeter :=
  match addUint64Overflow g.consumed amount with
  | (_, true) => .error .gasOverflow
  | (consumed, false) => .ok { g with consumed := consumed }

/-- Source: `types/gasmeter.go` `RefundGas` -/
def refundGas (g : GasMeter) (amount : UInt64) : Except GasPanic GasMeter :=
  if g.consumed < amount then .error .negativeGasConsumed
  else .ok { g with consumed := g.consumed - amount }

end GasMeter

/-- Source: `state_transition.go` `ResetGasMeterAndConsumeGas` -/
def resetGasMeterAndConsumeGas (g : GasMeter) (gasUsed : UInt64) : Except GasPanic GasMeter := do
  let g ← g.refundGas g.consumed
  g.consumeGas gasUsed

/-- **A reset forgets what was metered**, and does not panic. -/
theorem resetGasMeterAndConsumeGas_eq (g : GasMeter) (gasUsed : UInt64) :
    resetGasMeterAndConsumeGas g gasUsed = .ok { g with consumed := gasUsed } := by
  have hrefund : g.refundGas g.consumed = .ok { g with consumed := 0 } := by
    unfold GasMeter.refundGas
    rw [if_neg (UInt64.lt_irrefl _), UInt64.sub_self]
  have hadd : addUint64Overflow 0 gasUsed = (gasUsed, false) := by
    have hle : ¬18446744073709551615 - 0 < gasUsed := by
      rw [UInt64.sub_zero, UInt64.lt_iff_toNat_lt]
      have hlt := gasUsed.toNat_lt
      show ¬18446744073709551615 < gasUsed.toNat
      omega
    unfold addUint64Overflow
    rw [if_neg hle, UInt64.zero_add]
  have hconsume : GasMeter.consumeGas { g with consumed := 0 } gasUsed =
      .ok { g with consumed := gasUsed } := by
    unfold GasMeter.consumeGas
    rw [hadd]
  unfold resetGasMeterAndConsumeGas
  rw [hrefund]
  exact hconsume

end Smartdoge
