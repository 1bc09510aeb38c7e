import Smartdoge.Evm.StateTransition

/-!
# Fees

`x/evm/keeper/utils.go`: the ante handler deducts the fee of the whole gas limit from the sender
before a transaction runs. Where the base fee is enabled a dynamic-fee transaction pays its effective
price; every other transaction pays its gas price, which for a dynamic-fee transaction is the fee cap.

The price the gas is refunded at is the one `AsMessage` gives, computed elsewhere and from another
base fee.

* `deductTxCosts_ok`: what a deduction that returned did; `deductTxCosts_iff`: when it returns.
* **`feeAmount_eq_iff`**: the two prices agree, except for a dynamic-fee transaction after the London
  fork without enabled base fee that does not use up its fee cap.
-/

set_option linter.unusedSectionVars false

namespace Smartdoge.Evm

open Smartdoge.Lib
open Smartdoge.Lib.Writes
open Smartdoge.Statedb

/-- Why the costs of a transaction could not be deducted, or are not covered. -/
inductive FeeError where
  /-- "account not found for sender %s". -/
  | accountNotFound
  /-- "failed to retrieve intrinsic gas". -/
  | intrinsicGasFailed
  /-- "gas limit too low: %d (gas limit) < %d (intrinsic gas)". -/
  | outOfGas
  /-- "the tx gasfeecap is lower than the tx baseFee". -/
  | insufficientFee
  /-- "failed to deduct full gas cost %s from the user %s balance". -/
  | deductFees (err : KeeperError)
  /-- "tx cost (%s) is negative and invalid". -/
  | invalidCoins
  /-- "sender balance < tx cost (%s < %s)". -/
  | insufficientFunds
  | panic (p : Panic)
deriving DecidableEq

/-- The fee of the whole gas limit.
Source: `DeductTxCostsFromUserBalance`, `feeAmt` -/
def Context.feeAmount (ctx : Context) (txData : TxData) : Except FeeError ℤ :=
  if ctx.isLondon && ctx.isBaseFeeEnabled && txData.txType = .dynamicFee then
    match txData.getGasFeeCap, ctx.feeMarketBaseFee with
    | some feeCap, some baseFee =>
      if feeCap < baseFee then .error .insufficientFee
      else (txData.effectiveFee ctx.feeMarketBaseFee).mapError .panic
    | _, _ => .error (.panic .nilDereference)
  else txData.fee.mapError .panic

/-- Source: `authante.GetSignerAcc` -/
def Store.getSignerAcc (st : Store) (sender : Option Address) : Except FeeError Address :=
  match sender with
  | none => .error .accountNotFound
  | some a => if (st.accounts.get a).isSome then .ok a else .error .accountNotFound

section fees

variable [Keccak] (app : App) (ctx : Context)

/-- Source: `DeductTxCostsFromUserBalance`, the intrinsic gas -/
def App.checkIntrinsicGas (txData : TxData) : Except FeeError PUnit :=
  match app.geth.intrinsicGas txData.getData txData.getAccessList txData.getTo.isNone
      ctx.isHomestead ctx.isIstanbul with
  | none => .error .intrinsicGasFailed
  | some intrinsicGas =>
    if ctx.isCheckTx && txData.getGas < intrinsicGas then .error .outOfGas else .ok ()

/-- Move a fee to the fee collector; nothing is done for a fee of zero.
Source: `DeductTxCostsFromUserBalance`, from `feeAmt.Sign()` -/
def App.deductFee (signer : Address) (feeAmt : ℤ) : EStateM FeeError Store ℕ :=
  if feeAmt = 0 then pure 0
  else do
    let amount ← ofExcept ((newIntFromBigInt feeAmt).mapError .panic)
    let fees ← ofExcept ((newCoin amount).mapError .panic)
    EStateM.adaptExcept .deductFees (sendCoinsFromAccountToModule app.env signer .feeCollector fees)
    pure fees

/-- The amount that was deducted.
Source: `DeductTxCostsFromUserBalance` -/
def App.deductTxCosts (sender : Option Address) (txData : TxData) : EStateM FeeError Store ℕ := do
  let st ← get
  let signer ← ofExcept (st.getSignerAcc sender)
  ofExcept (app.checkIntrinsicGas ctx txData)
  let feeAmt ← ofExcept (ctx.feeAmount txData)
  app.deductFee signer feeAmt

/-- Source: `CheckSenderBalance` -/
def checkSenderBalance (balance : ℤ) (txData : TxData) : Except FeeError PUnit := do
  let cost ← txData.cost.mapError .panic
  if cost < 0 then .error .invalidCoins
  else if balance < 0 ∨ balance < cost then .error .insufficientFunds
  else .ok ()

/-! ## What a deduction does -/

variable {app ctx}

/-- A fee that was deducted went from the signer to the fee collector, whose account is a module account after it. -/
theorem App.deductFee_ok {signer : Address} {feeAmt : ℤ} {st st' : Store} {fees : ℕ}
    (h : app.deductFee signer feeAmt st = .ok fees st') :
    (fees : ℤ) = feeAmt ∧ fees < 2 ^ 256 ∧
      (0 < fees → st'.IsModule (app.env.moduleAddress .feeCollector)) ∧
      Moves [app.env.moduleAddress .feeCollector] (fun b => amountAt signer (-fees) b +
        amountAt (app.env.moduleAddress .feeCollector) fees b) 0 st st' := by
  unfold deductFee at h
  split_ifs at h with hzero
  · obtain ⟨rfl, rfl⟩ := pure_ok.mp h
    refine ⟨hzero.symm, by norm_num, by simp, (Moves.refl st).congr (by simp) ?_ rfl⟩
    intro b
    simp [amountAt_zero]
  · obtain ⟨amount, st₁, h₁, h⟩ := bind_ok.mp h
    obtain ⟨hint, rfl⟩ := ofExcept_ok.mp h₁
    obtain ⟨fees', st₂, h₂, h⟩ := bind_ok.mp h
    obtain ⟨hcoin, rfl⟩ := ofExcept_ok.mp h₂
    obtain ⟨⟨⟩, st₃, h₃, h⟩ := bind_ok.mp h
    obtain ⟨rfl, rfl⟩ := pure_ok.mp h
    obtain ⟨-, hmodule, hmoves⟩ := sendCoinsFromAccountToModule_ok app.env (adaptExcept_ok.mp h₃)
    rw [mapError_ok, newIntFromBigInt] at hint
    split_ifs at hint with hbound
    obtain rfl := Except.ok.inj hint
    rw [mapError_ok, newCoin] at hcoin
    split_ifs at hcoin with hneg
    obtain rfl := Except.ok.inj hcoin
    exact ⟨by omega, by omega, fun _ => hmodule, hmoves⟩

/-- **A deduction that returned** moved the fee of the gas limit from the sender, who has an account,
to the fee collector, whose account is a module account unless the fee was zero. -/
theorem App.deductTxCosts_ok {sender : Option Address} {txData : TxData} {st st' : Store} {fees : ℕ}
    (h : app.deductTxCosts ctx sender txData st = .ok fees st') :
    ∃ signer, sender = some signer ∧ (st.accounts.get signer).isSome ∧
      ctx.feeAmount txData = .ok (fees : ℤ) ∧ fees < 2 ^ 256 ∧
      (0 < fees → st'.IsModule (app.env.moduleAddress .feeCollector)) ∧
      Moves [app.env.moduleAddress .feeCollector] (fun b => amountAt signer (-fees) b +
        amountAt (app.env.moduleAddress .feeCollector) fees b) 0 st st' := by
  obtain ⟨st₁, st₂, h₁, h⟩ := bind_ok.mp h
  obtain ⟨rfl, rfl⟩ := get_ok.mp h₁
  obtain ⟨signer, st₃, h₂, h⟩ := bind_ok.mp h
  obtain ⟨hsigner, rfl⟩ := ofExcept_ok.mp h₂
  obtain ⟨⟨⟩, st₄, h₃, h⟩ := bind_ok.mp h
  obtain ⟨-, rfl⟩ := ofExcept_ok.mp h₃
  obtain ⟨feeAmt, st₅, h₄, h⟩ := bind_ok.mp h
  obtain ⟨hfee, rfl⟩ := ofExcept_ok.mp h₄
  obtain ⟨hamount, hbound, hmodule, hmoves⟩ := deductFee_ok h
  have hsender : sender = some signer ∧ (st.accounts.get signer).isSome := by
    unfold Store.getSignerAcc at hsigner
    split at hsigner
    · exact absurd hsigner (by simp)
    · split_ifs at hsigner with hsome
      obtain rfl := Except.ok.inj hsigner
      exact ⟨rfl, hsome⟩
  rw [← hamount] at hfee
  exact ⟨signer, hsender.1, hsender.2, hfee, hbound, hmodule, hmoves⟩

/-! ## When a deduction returns -/

/-- The gas of a transaction is bought at the price it is refunded at. -/
def Context.RefundsAtPrice (ctx : Context) (txData : TxData) : Prop :=
  txData.getGas = 0 ∨ txData.txType ≠ .dynamicFee ∨ ctx.isLondon = false ∨
    ctx.isBaseFeeEnabled = true ∨
    txData.getGasFeeCap.getD 0 ≤ txData.getGasTipCap.getD 0 + ctx.feeMarketBaseFee.getD 0

omit [Keccak] in
/-- The fee is the price times the gas limit, where both branches take the price from `Fee`. -/
theorem fee_ok {txData : TxData} {fee : ℤ} (h : txData.fee = .ok fee) :
    fee = txData.getGasPrice.getD 0 * txData.getGas.toNat := by
  unfold TxData.fee Evm.fee at h
  split at h
  · rename_i price hprice
    rw [hprice]
    exact (Except.ok.inj h).symm
  · exact absurd h (by simp)

omit [Keccak] in
/-- The effective fee of a dynamic-fee transaction, if none of its numbers is `nil`. -/
theorem effectiveFee_ok {tx : DynamicFeeTx} {baseFee : Option ℕ} {fee : ℤ}
    (h : (TxData.dynamicFee tx).effectiveFee baseFee = .ok fee) :
    ∃ tip feeCap : ℤ, ∃ base : ℕ, tx.gasTipCap = some tip ∧ tx.gasFeeCap = some feeCap ∧
      baseFee = some base ∧ fee = min (tip + base) feeCap * tx.gasLimit.toNat := by
  obtain ⟨price, hprice, hfee⟩ := except_bind_ok.mp h
  unfold DynamicFeeTx.getEffectiveGasPrice at hprice
  split at hprice
  · rename_i tip base feeCap htip hcap
    obtain rfl := Except.ok.inj hprice
    exact ⟨tip, feeCap, base, htip, hcap, rfl, (Except.ok.inj hfee).symm⟩
  · exact absurd hprice (by simp)

omit [Keccak] in
/-- A dynamic-fee transaction after the London fork with enabled base fee. -/
theorem feeAmount_effective {tx : DynamicFeeTx} {fee : ℤ} (hlondon : ctx.isLondon = true)
    (henabled : ctx.isBaseFeeEnabled = true) (h : ctx.feeAmount (.dynamicFee tx) = .ok fee) :
    ∃ tip feeCap : ℤ, ∃ baseFee : ℕ, tx.gasTipCap = some tip ∧ tx.gasFeeCap = some feeCap ∧
      ctx.feeMarketBaseFee = some baseFee ∧
      fee = min (tip + baseFee) feeCap * tx.gasLimit.toNat := by
  have hcond : (ctx.isLondon && ctx.isBaseFeeEnabled &&
      decide ((TxData.dynamicFee tx).txType = .dynamicFee)) = true := by
    rw [hlondon, henabled]
    rfl
  rw [Context.feeAmount, if_pos hcond] at h
  split at h
  · split_ifs at h
    exact effectiveFee_ok (mapError_ok.mp h)
  · exact absurd h (by simp)

omit [Keccak] in
/-- Every other transaction. -/
theorem feeAmount_static {txData : TxData} {fee : ℤ}
    (hcond : (ctx.isLondon && ctx.isBaseFeeEnabled && decide (txData.txType = .dynamicFee)) = false)
    (h : ctx.feeAmount txData = .ok fee) :
    fee = txData.getGasPrice.getD 0 * txData.getGas.toNat := by
  rw [Context.feeAmount, hcond] at h
  exact fee_ok (mapError_ok.mp h)

/-- **The fee is the gas limit at the price of the message**, if and only if the transaction refunds
at its price. -/
theorem feeAmount_eq_iff {txData : TxData} {fee : ℤ} (h : ctx.feeAmount txData = .ok fee)
    (sender : Address) :
    fee = txData.getGas.toNat * (txData.asMessage sender ctx.getBaseFee).gasPrice ↔
      ctx.RefundsAtPrice txData := by
  by_cases hdynamic : txData.txType = .dynamicFee
  · cases txData with
    | legacy tx => exact absurd hdynamic (by simp [TxData.txType])
    | accessList tx => exact absurd hdynamic (by simp [TxData.txType])
    | dynamicFee tx =>
        cases hlondon : ctx.isLondon with
        | false =>
            -- There is no base fee, and both prices are the fee cap.
            have hbase : ctx.getBaseFee = none := by simp [Context.getBaseFee, hlondon]
            have hfee := feeAmount_static (by simp [hlondon]) h
            refine iff_of_true ?_ (by simp [Context.RefundsAtPrice, hlondon])
            rw [hfee, hbase, mul_comm]
            rfl
        | true =>
            have hbase : ctx.getBaseFee = some (ctx.feeMarketBaseFee.getD 0) := by
              simp [Context.getBaseFee, hlondon]
            cases henabled : ctx.isBaseFeeEnabled with
            | true =>
                obtain ⟨tip, feeCap, baseFee, htip, hcap, hmarket, hfee⟩ :=
                  feeAmount_effective hlondon henabled h
                refine iff_of_true ?_ (by simp [Context.RefundsAtPrice, henabled])
                rw [hfee, hbase, hmarket, mul_comm]
                simp [TxData.asMessage, TxData.getGas, TxData.getGasTipCap, TxData.getGasFeeCap,
                  htip, hcap]
            | false =>
                have hfee := feeAmount_static (by simp [henabled]) h
                have hprice : ((TxData.dynamicFee tx).asMessage sender ctx.getBaseFee).gasPrice =
                    min (tx.gasTipCap.getD 0 + (ctx.feeMarketBaseFee.getD 0 : ℕ))
                      (tx.gasFeeCap.getD 0) := by
                  rw [hbase]
                  rfl
                have hrefunds : ctx.RefundsAtPrice (.dynamicFee tx) ↔ tx.gasLimit = 0 ∨
                    tx.gasFeeCap.getD 0 ≤ tx.gasTipCap.getD 0 +
                      (ctx.feeMarketBaseFee.getD 0 : ℕ) := by
                  simp [Context.RefundsAtPrice, hlondon, henabled, TxData.txType, TxData.getGas,
                    TxData.getGasTipCap, TxData.getGasFeeCap]
                rw [hfee, hprice, hrefunds]
                show tx.gasFeeCap.getD 0 * (tx.gasLimit.toNat : ℤ) = tx.gasLimit.toNat * _ ↔ _
                rw [mul_comm, mul_eq_mul_left_iff, eq_comm, min_eq_right_iff, or_comm]
                refine or_congr_left ?_
                rw [Nat.cast_eq_zero]
                exact UInt64.toNat_inj (b := 0)
  · refine iff_of_true ?_ (Or.inr (Or.inl hdynamic))
    rw [gasPrice_of_static hdynamic, feeAmount_static (by simp [hdynamic]) h, mul_comm]

end fees

end Smartdoge.Evm
