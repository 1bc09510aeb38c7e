import Mathlib.Algebra.Ring.Int.Defs
import Mathlib.Algebra.Ring.Nat
import Mathlib.Tactic.Common

/-!
# Go panics

The panics the modelled code can raise, and Go's checked indexing. A function that may panic
returns `Except Panic α`.
-/

namespace Smartdoge

/-- A run-time panic. -/
inductive Panic where
  /-- `StateDB.SubRefund`: "Refund counter below zero (gas: %d > refund: %d)". -/
  | refundBelowZero (gas refund : UInt64)
  /-- `StateDB.RevertToSnapshot`: "revision id %v cannot be reverted". -/
  | revisionNotReverted (id : ℤ)
  /-- `accessList.DeleteSlot`: "reverting slot change, address not present in list". -/
  | slotAddressNotPresent
  /-- An index or slice bound out of range. -/
  | indexOutOfRange
  /-- A method call on a nil pointer. -/
  | nilDereference
  /-- `sdk.NewIntFromBigInt`: "NewIntFromBigInt() out of bound". -/
  | intOutOfBound
  /-- `sdk.Int.Uint64`: "Uint64() out of bounds". -/
  | uint64OutOfBounds
  /-- `sdk.NewCoin`: "negative coin amount: %v". -/
  | negativeCoinAmount
  /-- A gas meter with a limit ran out of gas. -/
  | outOfGas
deriving DecidableEq

/-- `xs[i]` for a Go slice `xs` and an `int` index `i`. -/
def goIndex {α : Type} (xs : List α) (i : ℤ) : Except Panic α :=
  if 0 ≤ i then
    match xs[i.toNat]? with
    | some x => .ok x
    | none => .error .indexOutOfRange
  else .error .indexOutOfRange

/-- An index that is in range does not panic. -/
theorem goIndex_ok_iff {α : Type} {xs : List α} {i : ℕ} {x : α} :
    goIndex xs (i : ℤ) = .ok x ↔ xs[i]? = some x := by
  cases h : xs[i]? <;> simp [goIndex, h]

/-- The last element of a non-empty slice cut off: `xs[:len(xs)-1]`. -/
def goDropLast {α : Type} (xs : List α) : Except Panic (List α) :=
  if xs = [] then .error .indexOutOfRange else .ok xs.dropLast

/-! ## Integers of the SDK -/

/-- Source: `sdk.NewIntFromBigInt` -/
def newIntFromBigInt (x : ℤ) : Except Panic ℤ :=
  if x.natAbs < 2 ^ 256 then .ok x else .error .intOutOfBound

/-- Source: `sdk.Int.Uint64` -/
def intUint64 (x : ℤ) : Except Panic UInt64 :=
  if 0 ≤ x ∧ x < 2 ^ 64 then .ok (.ofNat x.toNat) else .error .uint64OutOfBounds

/-- `int64(x)` for a `uint64`, which wraps. -/
def goInt64 (x : UInt64) : ℤ := if x.toNat < 2 ^ 63 then x.toNat else x.toNat - 2 ^ 64

/-- The amount of a new coin; a negative one panics.
Source: `sdk.NewCoin` -/
def newCoin (amount : ℤ) : Except Panic ℕ :=
  if 0 ≤ amount then .ok amount.toNat else .error .negativeCoinAmount

end Smartdoge
