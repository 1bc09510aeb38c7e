import Mathlib.Tactic.Ring
import Smartdoge.Lib.Writes
import Smartdoge.Types.GasMeter

/-!
# The gas meter after panics

Code that recovers a panic of the gas meter goes on with the meter as the panic left it. `RefundGas` checks
before it assigns. `ConsumeGas` assigns what `addUint64Overflow` returned and checks after it, and where the sum
overflows that is 0.

* `GasCall.run`: a call with the meter it leaves behind, also where it panics.
* `consumeGas_panics`, `refundGas_panics`: the two panics.
* **`neverForgets_iff`**: the meter reads what was consumed less what was refunded, over all calls that returned,
  and a call that panics leaves the reading alone, if and only if no sum overflows.
-/

namespace Smartdoge

open Smartdoge.Lib.Writes

/-! ## Calls -/

namespace GasMeter

/-- `ConsumeGas` with the meter that it leaves behind.
Source: `types/gasmeter.go` `ConsumeGas` -/
def consumeGasM (amount : UInt64) : EStateM GasPanic GasMeter PUnit := fun g =>
  -- `g.consumed` is assigned before the overflow is looked at.
  let sum := addUint64Overflow g.consumed amount
  let g := { g with consumed := sum.1 }
  if sum.2 then .error .gasOverflow g else .ok () g

/-- `RefundGas` with the meter that it leaves behind.
Source: `types/gasmeter.go` `RefundGas` -/
def refundGasM (amount : UInt64) : EStateM GasPanic GasMeter PUnit := fun g =>
  if g.consumed < amount then .error .negativeGasConsumed g
  else .ok () { g with consumed := g.consumed - amount }

end GasMeter

/-- A call on the meter. -/
inductive GasCall where
  | consumeGas (amount : UInt64)
  | refundGas (amount : UInt64)
deriving DecidableEq

namespace GasCall

/-- The call, and what it leaves behind. -/
def run : GasCall → EStateM GasPanic GasMeter PUnit
  | .consumeGas amount => GasMeter.consumeGasM amount
  | .refundGas amount => GasMeter.refundGasM amount

/-- The amount by which the call should change the reading. -/
def change : GasCall → ℤ
  | .consumeGas amount => amount.toNat
  | .refundGas amount => -amount.toNat

/-- The call panics. -/
def Panics (call : GasCall) (g : GasMeter) : Prop := ∃ err g', call.run g = .error err g'

end GasCall

/-! ## One call -/

/-- The comparison that detects an overflow does. -/
theorem addUint64Overflow_iff (a b : UInt64) :
    18446744073709551615 - a < b ↔ ¬a.toNat + b.toNat < 2 ^ 64 := by
  have ha := a.toNat_lt
  have hmax : (18446744073709551615 : UInt64).toNat = 18446744073709551615 := by decide +kernel
  have hle : a ≤ 18446744073709551615 := by
    rw [UInt64.le_iff_toNat_le, hmax]
    omega
  rw [UInt64.lt_iff_toNat_lt, UInt64.toNat_sub_of_le _ _ hle, hmax]
  omega

/-- A sum that fits is returned. -/
theorem addUint64Overflow_fits {a b : UInt64} (h : a.toNat + b.toNat < 2 ^ 64) :
    addUint64Overflow a b = (a + b, false) := by
  have hnot : ¬18446744073709551615 - a < b := fun hover => (addUint64Overflow_iff a b).mp hover h
  unfold addUint64Overflow
  rw [if_neg hnot]

/-- One that does not is reported, with zero in its place. -/
theorem addUint64Overflow_overflows {a b : UInt64} (h : ¬a.toNat + b.toNat < 2 ^ 64) :
    addUint64Overflow a b = (0, true) := by
  have hover := (addUint64Overflow_iff a b).mpr h
  unfold addUint64Overflow
  rw [if_pos hover]

namespace GasMeter

variable (g : GasMeter) (amount : UInt64)

/-- Gas that fits onto the reading is added to it. -/
theorem consumeGas_returns (h : g.consumed.toNat + amount.toNat < 2 ^ 64) :
    (GasCall.consumeGas amount).run g = .ok () { g with consumed := g.consumed + amount } := by
  show consumeGasM amount g = _
  unfold consumeGasM
  rw [addUint64Overflow_fits h]
  rfl

/-- **`ConsumeGas` forgets**: where it panics the meter is back at 0. -/
theorem consumeGas_panics (h : ¬g.consumed.toNat + amount.toNat < 2 ^ 64) :
    (GasCall.consumeGas amount).run g = .error .gasOverflow { g with consumed := 0 } := by
  show consumeGasM amount g = _
  unfold consumeGasM
  rw [addUint64Overflow_overflows h]
  rfl

/-- Gas that was consumed is taken off the reading. -/
theorem refundGas_returns (h : amount.toNat ≤ g.consumed.toNat) :
    (GasCall.refundGas amount).run g = .ok () { g with consumed := g.consumed - amount } := by
  have hnot : ¬g.consumed < amount := by
    rw [UInt64.lt_iff_toNat_lt]
    omega
  show refundGasM amount g = _
  unfold refundGasM
  rw [if_neg hnot]

/-- Where `RefundGas` panics the meter is as it was. -/
theorem refundGas_panics (h : ¬amount.toNat ≤ g.consumed.toNat) :
    (GasCall.refundGas amount).run g = .error .negativeGasConsumed g := by
  have hlt : g.consumed < amount := by
    rw [UInt64.lt_iff_toNat_lt]
    omega
  show refundGasM amount g = _
  unfold refundGasM
  rw [if_pos hlt]

end GasMeter

-- The equation is stated without its arguments: the kernel would compute the overflow test of variables.
/-! ## Runs -/

/-- Source: `types/gasmeter.go` `NewInfiniteGasMeterWithLimit` -/
def newInfiniteGasMeterWithLimit (limit : UInt64) : GasMeter := ⟨0, limit⟩

namespace GasMeter

/-- The meter after some calls, whose panics were recovered. -/
def after (g : GasMeter) (calls : List GasCall) : GasMeter :=
  calls.foldl (fun g call => finalState (call.run g)) g

/-- What the calls that returned should have changed. -/
def returnedChange : GasMeter → List GasCall → ℤ
  | _, [] => 0
  | g, call :: calls =>
    match call.run g with
    | .ok _ g' => call.change + returnedChange g' calls
    | .error _ g' => returnedChange g' calls

/-- The meter reads what was consumed less what was refunded, and panics leave the reading alone. -/
structure NeverForgets (g : GasMeter) (calls : List GasCall) : Prop where
  reading : ((g.after calls).consumed.toNat : ℤ) = g.consumed.toNat + g.returnedChange calls
  panics : ∀ pre call post, calls = pre ++ call :: post → call.Panics (g.after pre) →
    (g.after (pre ++ [call])).consumed = (g.after pre).consumed

end GasMeter

/-- Starting from a reading, no sum exceeds a `uint64`. A refund of more than the reading is not made. -/
def SumsFit : ℕ → List GasCall → Prop
  | _, [] => True
  | n, .consumeGas amount :: calls => n + amount.toNat < 2 ^ 64 ∧ SumsFit (n + amount.toNat) calls
  | n, .refundGas amount :: calls => SumsFit (if amount.toNat ≤ n then n - amount.toNat else n) calls

namespace GasMeter

/-- **One call.** Either it returns and changes the reading by its amount, or it panics and leaves the reading
alone, unless a sum overflows. -/
theorem run_cases (g : GasMeter) (call : GasCall) (calls : List GasCall)
    (h : SumsFit g.consumed.toNat (call :: calls)) :
    (∃ g', call.run g = .ok () g' ∧ (g'.consumed.toNat : ℤ) = g.consumed.toNat + call.change ∧
      SumsFit g'.consumed.toNat calls) ∨
    (∃ err, call.run g = .error err g) ∧ SumsFit g.consumed.toNat calls := by
  cases call with
  | consumeGas amount =>
      obtain ⟨hfits, hrest⟩ := h
      have hsum : (g.consumed + amount).toNat = g.consumed.toNat + amount.toNat := by
        rw [UInt64.toNat_add]
        exact Nat.mod_eq_of_lt hfits
      refine Or.inl ⟨_, g.consumeGas_returns amount hfits, ?_, ?_⟩
      · simp [hsum, GasCall.change]
      · rw [hsum]
        exact hrest
  | refundGas amount =>
      by_cases hle : amount.toNat ≤ g.consumed.toNat
      · have hdiff : (g.consumed - amount).toNat = g.consumed.toNat - amount.toNat := by
          apply UInt64.toNat_sub_of_le
          rw [UInt64.le_iff_toNat_le]
          exact hle
        refine Or.inl ⟨_, g.refundGas_returns amount hle, ?_, ?_⟩
        · simp only [hdiff, GasCall.change]
          omega
        · simp only [SumsFit, if_pos hle] at h
          rw [hdiff]
          exact h
      · simp only [SumsFit, if_neg hle] at h
        exact Or.inr ⟨⟨_, g.refundGas_panics amount hle⟩, h⟩

/-- The first call runs before the others. -/
theorem after_cons (g : GasMeter) (call : GasCall) (calls : List GasCall) :
    g.after (call :: calls) = (finalState (call.run g)).after calls := rfl

/-- If all sums fit, the reading changes by what the calls that return change. -/
theorem reading_of_sumsFit {g : GasMeter} {calls : List GasCall} (h : SumsFit g.consumed.toNat calls) :
    ((g.after calls).consumed.toNat : ℤ) = g.consumed.toNat + g.returnedChange calls := by
  induction calls generalizing g with
  | nil => exact (add_zero _).symm
  | cons call calls ih =>
      rcases g.run_cases call calls h with ⟨g', hrun, hchange, hrest⟩ | ⟨⟨err, hrun⟩, hrest⟩
      · simp only [after_cons, returnedChange, hrun, finalState]
        rw [ih hrest, hchange]
        ring
      · simp only [after_cons, returnedChange, hrun, finalState]
        exact ih hrest

/-- If all sums fit, a call that panics leaves the reading as it is. -/
theorem panics_of_sumsFit {g : GasMeter} {calls : List GasCall} (h : SumsFit g.consumed.toNat calls)
    (pre : List GasCall) (call : GasCall) (post : List GasCall) (hsplit : calls = pre ++ call :: post)
    (hpanics : call.Panics (g.after pre)) : (g.after (pre ++ [call])).consumed = (g.after pre).consumed := by
  subst hsplit
  induction pre generalizing g with
  | nil =>
      obtain ⟨err, g', hpanic⟩ := hpanics
      have hpanic' : call.run g = .error err g' := hpanic
      rcases g.run_cases call post h with ⟨g'', hrun, -⟩ | ⟨⟨err', hrun⟩, -⟩
      · rw [hpanic'] at hrun
        cases hrun
      · show (finalState (call.run g)).consumed = g.consumed
        rw [hrun]
        rfl
  | cons first pre ih =>
      rcases g.run_cases first (pre ++ call :: post) h with ⟨g', hrun, -, hrest⟩ | ⟨⟨err, hrun⟩, hrest⟩
      · simp only [List.cons_append, after_cons, hrun, finalState] at hpanics ⊢
        exact ih hpanics hrest
      · simp only [List.cons_append, after_cons, hrun, finalState] at hpanics ⊢
        exact ih hpanics hrest

/-- The clause about panics, from the second call on. -/
theorem NeverForgets.panics_tail {g : GasMeter} {call : GasCall} {calls : List GasCall}
    (h : ∀ pre c post, call :: calls = pre ++ c :: post → c.Panics (g.after pre) →
      (g.after (pre ++ [c])).consumed = (g.after pre).consumed) :
    ∀ pre c post, calls = pre ++ c :: post → c.Panics ((finalState (call.run g)).after pre) →
      ((finalState (call.run g)).after (pre ++ [c])).consumed = ((finalState (call.run g)).after pre).consumed := by
  intro pre c post hsplit hpanics
  exact h (call :: pre) c post (by rw [hsplit, List.cons_append]) hpanics

/-- The first sum that overflows is one that the meter forgets. -/
theorem sumsFit_of_panics {g : GasMeter} {calls : List GasCall}
    (h : ∀ pre c post, calls = pre ++ c :: post → c.Panics (g.after pre) →
      (g.after (pre ++ [c])).consumed = (g.after pre).consumed) : SumsFit g.consumed.toNat calls := by
  induction calls generalizing g with
  | nil => trivial
  | cons call calls ih =>
      have htail := ih (NeverForgets.panics_tail h)
      cases call with
      | consumeGas amount =>
          by_cases hfits : g.consumed.toNat + amount.toNat < 2 ^ 64
          · have hsum : (g.consumed + amount).toNat = g.consumed.toNat + amount.toNat := by
              rw [UInt64.toNat_add]
              exact Nat.mod_eq_of_lt hfits
            rw [g.consumeGas_returns amount hfits] at htail
            refine ⟨hfits, ?_⟩
            rw [← hsum]
            exact htail
          · -- A meter at 0 takes every amount, so this one is not at 0, and its reading was lost.
            have hkept := h [] (.consumeGas amount) calls rfl ⟨_, _, g.consumeGas_panics amount hfits⟩
            rw [List.nil_append, after_cons, g.consumeGas_panics amount hfits] at hkept
            have hzero : (0 : UInt64) = g.consumed := hkept
            have hreading : g.consumed.toNat = 0 := by
              rw [← hzero]
              rfl
            have hlt := amount.toNat_lt
            exact absurd (by omega : g.consumed.toNat + amount.toNat < 2 ^ 64) hfits
      | refundGas amount =>
          by_cases hle : amount.toNat ≤ g.consumed.toNat
          · have hdiff : (g.consumed - amount).toNat = g.consumed.toNat - amount.toNat := by
              apply UInt64.toNat_sub_of_le
              rw [UInt64.le_iff_toNat_le]
              exact hle
            rw [g.refundGas_returns amount hle] at htail
            simp only [SumsFit, if_pos hle]
            rw [← hdiff]
            exact htail
          · rw [g.refundGas_panics amount hle] at htail
            simp only [SumsFit, if_neg hle]
            exact htail

end GasMeter

/-- **The gas meter never forgets**, if and only if no sum of what it reads and what is consumed exceeds a
`uint64`. This is for every sequence of calls, of which any may panic. -/
theorem neverForgets_iff (limit : UInt64) (calls : List GasCall) :
    (newInfiniteGasMeterWithLimit limit).NeverForgets calls ↔ SumsFit 0 calls := by
  constructor
  · intro h
    exact GasMeter.sumsFit_of_panics h.panics
  · intro h
    exact ⟨GasMeter.reading_of_sumsFit h, GasMeter.panics_of_sumsFit h⟩

/-- Five units are consumed, then so many that the sum overflows, and one more: the meter reads 1 where six units
were consumed. -/
theorem neverForgets_overflow :
    let g := newInfiniteGasMeterWithLimit 100
    let calls := [GasCall.consumeGas 5, .consumeGas 18446744073709551615, .consumeGas 1]
    (g.after (calls.take 2)).consumed = 0 ∧ (g.after calls).consumed = 1 ∧ g.returnedChange calls = 6 ∧
      ¬g.NeverForgets calls := by
  intro g calls
  have hreading : (g.after calls).consumed = 1 := by decide +kernel
  have hchange : g.returnedChange calls = 6 := by decide +kernel
  refine ⟨by decide +kernel, hreading, hchange, ?_⟩
  intro h
  have hsum := h.reading
  rw [hreading, hchange] at hsum
  exact absurd hsum (by decide +kernel)

end Smartdoge
