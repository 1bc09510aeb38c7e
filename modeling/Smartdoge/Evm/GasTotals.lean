import Smartdoge.Evm.Logs
import Smartdoge.Types.GasMeter

/-!
# Gas totals

`ApplyTransaction` ends with the gas totals: it adds the gas used to a counter in the transient store, and sets
the gas meter of the Cosmos transaction to the sum. The sum is of `uint64`, and wrapped if it is smaller than a
summand.

* `addTransientGasUsed_ok_iff`, `addTransientGasUsed_error_iff`: the comparison finds every overflow.
* **`applyTransaction_total`**: what a transaction adds to the counter.
* **`applyTransaction_overflow_iff`**: when it returns `ErrGasOverflow` for the sum.
-/

set_option linter.unusedSectionVars false

namespace Smartdoge.Evm

open Smartdoge.Lib
open Smartdoge.Lib.Writes
open Smartdoge.Statedb

/-! ## The counter -/

/-- The stores after the totals. -/
def Store.withTotal (st : Store) (total : UInt64) : Store :=
  { st with transient := { st.transient with gasUsed := total }, gasConsumed := total }

/-- A sum of `uint64` is smaller than a summand if and only if it wrapped. -/
theorem add_lt_right_iff (a b : UInt64) : a + b < b ↔ 2 ^ 64 ≤ a.toNat + b.toNat := by
  have ha := a.toNat_lt
  have hb := b.toNat_lt
  rw [UInt64.lt_iff_toNat_lt, UInt64.toNat_add]
  omega

/-- The gas of a transaction is added if the sum is a `uint64`. -/
theorem addTransientGasUsed_ok_iff {gasUsed : UInt64} {st st' : Store} :
    addTransientGasUsed gasUsed st = .ok () st' ↔
      st.transient.gasUsed.toNat + gasUsed.toNat < 2 ^ 64 ∧
        st' = st.withTotal (st.transient.gasUsed + gasUsed) := by
  simp only [addTransientGasUsed, add_lt_right_iff]
  split_ifs with hwrapped
  · simp only [false_iff, not_and]
    intro hfits
    exact absurd hwrapped (not_le.mpr hfits)
  · simp only [EStateM.Result.ok.injEq, true_and, not_le.mp hwrapped, eq_comm (b := st')]
    rfl

/-- If it is not, the transaction fails and the total is left as it is. -/
theorem addTransientGasUsed_error_iff {gasUsed : UInt64} {st st' : Store} {err : TxError} :
    addTransientGasUsed gasUsed st = .error err st' ↔
      2 ^ 64 ≤ st.transient.gasUsed.toNat + gasUsed.toNat ∧ err = .transientGasOverflow ∧ st' = st := by
  simp only [addTransientGasUsed, add_lt_right_iff]
  split_ifs with hwrapped
  · simp only [EStateM.Result.error.injEq, hwrapped, true_and, eq_comm]
  · simp only [false_iff, not_and]
    intro h
    exact absurd h hwrapped

section totals

variable [Keccak] (app : App) (ctx : Context)

/-- `ApplyTransaction` up to the totals.
Source: `ApplyTransaction`, without `AddTransientGasUsed` and `ResetGasMeterAndConsumeGas` -/
def App.applyBeforeTotals (tx : TxData) : TxM Response := do
  let cfg ← ofExcept ctx.evmConfig
  let st ← get
  let txConfig := st.txConfig ctx (app.geth.txHash tx)
  let msg ← ofExcept ((app.asMessage ctx tx cfg.baseFee).elim (.error .invalidSender) .ok)
  let (res, receipt) ← app.process ctx tx msg cfg txConfig
  app.refundGas msg (msg.gas - res.gasUsed)
  modify (publish txConfig receipt)
  pure res

/-- The total is counted at the end of `ApplyTransaction`. -/
theorem App.applyTransaction_eq (tx : TxData) : app.applyTransaction ctx tx = (do
    let res ← app.applyBeforeTotals ctx tx
    addTransientGasUsed res.gasUsed
    pure res) := by
  simp only [applyTransaction, applyBeforeTotals, bind_assoc, pure_bind]

/-- The hooks do not write the counter. It is in the transient store of this module, which has no method that
a hook is meant to call on it. -/
def App.HooksKeepGasUsed (app : App) : Prop :=
  ∀ hooks, app.hooks = some hooks → ∀ msg st receipt st' receipt',
    multiPostTxProcessing hooks msg (st, receipt) = .ok () (st', receipt') →
      st'.transient.gasUsed = st.transient.gasUsed

variable {app ctx}

/-- An application without hooks keeps the total. -/
theorem App.hooksKeepGasUsed_of_none (h : app.hooks = none) : app.HooksKeepGasUsed := by
  intro hooks hhooks
  rw [h] at hhooks
  exact absurd hhooks (by simp)

/-! ## What comes before the totals -/

/-- Executing a message does not count its gas. -/
theorem App.process_gasUsed (hhooks : app.HooksKeepGasUsed) {tx : TxData} {msg : Message} {cfg : EvmConfig}
    {txConfig : TxConfig} {st st' : Store} {res : Response} {receipt : Receipt}
    (h : app.process ctx tx msg cfg txConfig st = .ok (res, receipt) st') :
    st'.transient.gasUsed = st.transient.gasUsed := by
  cases process_ended h with
  | noHooks happly _ => rw [(applyMessage_transient happly).1]
  | vmError _ _ _ => rfl
  | rejected _ _ _ _ => rfl
  | accepted happly hsome _ hpost =>
      rw [hhooks _ hsome _ _ _ _ _ hpost, (applyMessage_transient happly).1]

/-- Neither does publishing its logs. -/
theorem publish_gasUsed (txConfig : TxConfig) (receipt : Receipt) (st : Store) :
    (publish txConfig receipt st).transient.gasUsed = st.transient.gasUsed := by
  simp only [publish]
  split_ifs
  · rfl
  · rfl

/-- **Nothing before the totals** writes the counter. -/
theorem App.applyBeforeTotals_gasUsed (hhooks : app.HooksKeepGasUsed) {tx : TxData} {st st' : Store}
    {res : Response} (h : app.applyBeforeTotals ctx tx st = .ok res st') :
    st'.transient.gasUsed = st.transient.gasUsed := by
  obtain ⟨cfg, st₁, h₁, h⟩ := bind_ok.mp h
  obtain ⟨-, rfl⟩ := ofExcept_ok.mp h₁
  obtain ⟨st₂, st₃, h₂, h⟩ := bind_ok.mp h
  obtain ⟨rfl, rfl⟩ := get_ok.mp h₂
  obtain ⟨msg, st₄, h₃, h⟩ := bind_ok.mp h
  obtain ⟨-, rfl⟩ := ofExcept_ok.mp h₃
  obtain ⟨⟨res', receipt⟩, st₅, hprocess, h⟩ := bind_ok.mp h
  obtain ⟨⟨⟩, st₆, hrefund, h⟩ := bind_ok.mp h
  obtain ⟨⟨⟩, st₇, h₄, h⟩ := bind_ok.mp h
  obtain rfl := modify_ok.mp h₄
  obtain ⟨rfl, rfl⟩ := pure_ok.mp h
  obtain ⟨amount, -, hmoves⟩ := refundGas_ok hrefund
  rw [publish_gasUsed, hmoves.transient, process_gasUsed hhooks hprocess]

/-- A refund does not fail on the total. -/
theorem App.refundGas_error {msg : Message} {leftoverGas : UInt64} {st st' : Store} {err : TxError}
    (h : app.refundGas msg leftoverGas st = .error err st') : err ≠ .transientGasOverflow := by
  rintro rfl
  simp only [refundGas] at h
  split_ifs at h
  · cases h
  · rcases bind_error.mp h with h | ⟨amount, st₁, -, h⟩
    · obtain ⟨h, -⟩ := ofExcept_error.mp h
      obtain ⟨p, -, h⟩ := mapError_error.mp h
      exact absurd h (by simp)
    · obtain ⟨e, -, h⟩ := adaptExcept_error.mp h
      exact absurd h (by simp)
  · cases h

/-- **Nothing before the totals** fails with their error. -/
theorem App.applyBeforeTotals_error {tx : TxData} {st st' : Store} {err : TxError}
    (h : app.applyBeforeTotals ctx tx st = .error err st') : err ≠ .transientGasOverflow := by
  rcases bind_error.mp h with h | ⟨cfg, st₁, -, h⟩
  · obtain ⟨h, -⟩ := ofExcept_error.mp h
    rintro rfl
    unfold Context.evmConfig at h
    split at h
    · exact absurd h (by simp)
    · exact absurd h (by simp)
  rcases bind_error.mp h with h | ⟨st₂, st₃, -, h⟩
  · cases h
  rcases bind_error.mp h with h | ⟨msg, st₄, -, h⟩
  · obtain ⟨h, -⟩ := ofExcept_error.mp h
    rintro rfl
    cases hmsg : app.asMessage ctx tx cfg.baseFee with
    | none => simp [hmsg] at h
    | some msg => simp [hmsg] at h
  rcases bind_error.mp h with h | ⟨⟨res, receipt⟩, st₅, -, h⟩
  · rintro rfl
    exact absurd (process_error h) Bool.false_ne_true
  rcases bind_error.mp h with h | ⟨⟨⟩, st₆, -, h⟩
  · exact refundGas_error h
  rcases bind_error.mp h with h | ⟨⟨⟩, st₇, -, h⟩
  · exact absurd h modify_ne_error
  · cases h

/-! ## The totals -/

/-- **What a transaction adds to the counter**: the gas it used, which is also what the meter reads on top. -/
theorem App.applyTransaction_total (hhooks : app.HooksKeepGasUsed) {tx : TxData} {st st' : Store}
    {res : Response} (h : app.applyTransaction ctx tx st = .ok res st') :
    st'.transient.gasUsed.toNat = st.transient.gasUsed.toNat + res.gasUsed.toNat ∧
      st'.gasConsumed = st'.transient.gasUsed := by
  rw [applyTransaction_eq] at h
  obtain ⟨res', st₁, hbefore, h⟩ := bind_ok.mp h
  obtain ⟨⟨⟩, st₂, htotal, h⟩ := bind_ok.mp h
  obtain ⟨rfl, rfl⟩ := pure_ok.mp h
  obtain ⟨hfits, rfl⟩ := addTransientGasUsed_ok_iff.mp htotal
  rw [applyBeforeTotals_gasUsed hhooks hbefore] at hfits
  refine ⟨?_, rfl⟩
  show (st₁.transient.gasUsed + res'.gasUsed).toNat = _
  rw [applyBeforeTotals_gasUsed hhooks hbefore, UInt64.toNat_add, Nat.mod_eq_of_lt hfits]

/-- **`ErrGasOverflow` for the totals** is returned if and only if the sum does not fit in a `uint64`. -/
theorem App.applyTransaction_overflow_iff (hhooks : app.HooksKeepGasUsed) {tx : TxData} {st : Store} :
    (∃ st', app.applyTransaction ctx tx st = .error .transientGasOverflow st') ↔
      ∃ res st', app.applyBeforeTotals ctx tx st = .ok res st' ∧
        2 ^ 64 ≤ st.transient.gasUsed.toNat + res.gasUsed.toNat := by
  rw [applyTransaction_eq]
  constructor
  · rintro ⟨st', h⟩
    rcases bind_error.mp h with h | ⟨res, st₁, hbefore, h⟩
    · exact absurd rfl (applyBeforeTotals_error h)
    rcases bind_error.mp h with h | ⟨⟨⟩, st₂, -, h⟩
    · obtain ⟨hwrapped, -, -⟩ := addTransientGasUsed_error_iff.mp h
      rw [applyBeforeTotals_gasUsed hhooks hbefore] at hwrapped
      exact ⟨res, st₁, hbefore, hwrapped⟩
    · cases h
  · rintro ⟨res, st₁, hbefore, hwrapped⟩
    rw [← applyBeforeTotals_gasUsed hhooks hbefore] at hwrapped
    have herror := addTransientGasUsed_error_iff.mpr ⟨hwrapped, rfl, rfl⟩
    exact ⟨st₁, bind_error.mpr (Or.inr ⟨res, st₁, hbefore, bind_error.mpr (Or.inl herror)⟩)⟩

end totals

end Smartdoge.Evm
