import Smartdoge.Evm.Encoding
import Smartdoge.Evm.Fees

/-!
# Validation of transactions

`Validate` of the three transaction types: the checks a transaction passes before anything is known about
its sender. The three functions make almost the same checks, in three different orders. A fee that is
accepted has at most 256 bits, although price and gas limit are checked one by one in no other place.

A sender is admitted if the balance covers `Cost`, the worst case. What is deducted then depends on the
fork, on the fee market and on the type of the transaction.

* `validate_priced`: what the three functions make sure of.
* `Priced.feeAmount_le`: the fee that is deducted is at most `Fee`.
* **`admitted_sender_pays`**: an admitted sender has the fee and the amount.
-/

set_option linter.unusedSectionVars false

namespace Smartdoge.Evm

open Smartdoge.Lib
open Smartdoge.Lib.Writes
open Smartdoge.Statedb

/-- Why a transaction is not valid: a registered error, and what it is wrapped in. -/
inductive ValidateError where
  /-- `ErrInvalidGasPrice`. -/
  | invalidGasPrice (description : String)
  /-- `ErrInvalidGasCap`. -/
  | invalidGasCap (description : String)
  /-- `ErrInvalidGasFee`. -/
  | invalidGasFee (description : String)
  /-- `ErrInvalidAmount`. -/
  | invalidAmount (description : String)
  /-- `sdkerrors.ErrInvalidAddress`. -/
  | invalidAddress (description : String)
  /-- `sdkerrors.ErrInvalidChainID`. -/
  | invalidChainID (description : String)
  | panic (p : Panic)
deriving DecidableEq

/-- One check. -/
def require (holds : Bool) (err : ValidateError) : Except ValidateError PUnit :=
  if holds then .ok () else .error err

/-- A requirement passes if it holds. -/
@[simp] theorem require_ok {holds : Bool} {err : ValidateError} {u : PUnit} :
    require holds err = .ok u ↔ holds = true := by
  cases holds <;> simp [require]

/-! ## The checks that are shared -/

/-- Source: `Validate`, `IsValidInt256(tx.Fee())` -/
def validateFee (fee : Except Panic ℤ) : Except ValidateError PUnit := do
  let fee ← fee.mapError .panic
  require (isValidInt256 fee) (.invalidGasFee "out of bound")

/-- No amount is fine.
Source: `Validate`, `amount` -/
def validateAmount (amount : Option SdkInt) : Except ValidateError PUnit :=
  match amount with
  | none => .ok ()
  | some ⟨amount, _⟩ => do
    require (0 ≤ amount) (.invalidAmount s!"amount cannot be negative {amount}")
    require (isValidInt256 amount) (.invalidAmount "out of bound")

/-- Source: `types/validation.go` `ValidateAddress`, wrapped by `Validate` -/
def validateTo (toAddr : String) : Except ValidateError PUnit :=
  require (toAddr = "" || isHexAddress toAddr)
    (.invalidAddress s!"invalid to address: address '{toAddr}' is not a valid ethereum hex address")

/-- The text is the same for both types with a chain id.
Source: `Validate`, `tx.GetChainID() == nil` -/
def validateChainID (chainID : Option SdkInt) : Except ValidateError PUnit :=
  require chainID.isSome (.invalidChainID "chain ID must be present on AccessList txs")

/-! ## The three types -/

/-- Source: `legacy_tx.go` `Validate` -/
def ProtoLegacyTx.validate (tx : ProtoLegacyTx) : Except ValidateError PUnit :=
  match tx.gasPrice with
  | none => .error (.invalidGasPrice "gas price cannot be nil")
  | some ⟨gasPrice, _⟩ => do
    require (0 ≤ gasPrice) (.invalidGasPrice s!"gas price cannot be negative {gasPrice}")
    require (isValidInt256 gasPrice) (.invalidGasPrice "out of bound")
    validateFee (fee (some gasPrice) tx.gasLimit)
    validateAmount tx.amount
    validateTo tx.toAddr

/-- The bound of the price is checked before its sign, and the amount before the fee.
Source: `access_list_tx.go` `Validate` -/
def ProtoAccessListTx.validate (tx : ProtoAccessListTx) : Except ValidateError PUnit :=
  match tx.gasPrice with
  | none => .error (.invalidGasPrice "cannot be nil")
  | some ⟨gasPrice, _⟩ => do
    require (isValidInt256 gasPrice) (.invalidGasPrice "out of bound")
    require (0 ≤ gasPrice) (.invalidGasPrice s!"gas price cannot be negative {gasPrice}")
    validateAmount tx.amount
    validateFee (fee (some gasPrice) tx.gasLimit)
    validateTo tx.toAddr
    validateChainID tx.chainID

/-- Source: `dynamic_fee_tx.go` `Validate` -/
def ProtoDynamicFeeTx.validate (tx : ProtoDynamicFeeTx) : Except ValidateError PUnit :=
  match tx.gasTipCap, tx.gasFeeCap with
  | none, _ => .error (.invalidGasCap "gas tip cap cannot nil")
  | _, none => .error (.invalidGasCap "gas fee cap cannot nil")
  | some ⟨gasTipCap, _⟩, some ⟨gasFeeCap, _⟩ => do
    require (0 ≤ gasTipCap) (.invalidGasCap s!"gas tip cap cannot be negative {gasTipCap}")
    require (0 ≤ gasFeeCap) (.invalidGasCap s!"gas fee cap cannot be negative {gasFeeCap}")
    require (isValidInt256 gasTipCap) (.invalidGasCap "out of bound")
    require (isValidInt256 gasFeeCap) (.invalidGasCap "out of bound")
    require (gasTipCap ≤ gasFeeCap) (.invalidGasCap
      s!"max priority fee per gas higher than max fee per gas ({gasTipCap} > {gasFeeCap})")
    validateFee (fee (some gasFeeCap) tx.gasLimit)
    validateAmount tx.amount
    validateTo tx.toAddr
    validateChainID tx.chainID

/-- Source: `tx_data.go` `TxData.Validate` -/
def ProtoTxData.validate : ProtoTxData → Except ValidateError PUnit
  | .legacy tx => tx.validate
  | .accessList tx => tx.validate
  | .dynamicFee tx => tx.validate

/-! ## What a valid transaction has -/

/-- There are prices, none of the integers is negative, and the fee has at most 256 bits. -/
structure Priced (data : TxData) : Prop where
  tip : ∃ tip, data.getGasTipCap = some tip ∧ 0 ≤ tip
  cap : ∃ cap, data.getGasFeeCap = some cap ∧ 0 ≤ cap ∧ cap * data.getGas.toNat < 2 ^ 256
  amount : 0 ≤ data.getValue.getD 0

/-- A fee that was validated has at most 256 bits. -/
theorem validateFee_ok {price : ℤ} {gas : UInt64} {u : PUnit} (hprice : 0 ≤ price)
    (h : validateFee (fee (some price) gas) = .ok u) : price * gas.toNat < 2 ^ 256 := by
  obtain ⟨amount, hamount, h⟩ := except_bind_ok.mp h
  obtain rfl := Except.ok.inj (mapError_ok.mp hamount)
  have hbits := of_decide_eq_true (require_ok.mp h)
  have hnonneg : 0 ≤ price * (gas.toNat : ℤ) := mul_nonneg hprice (Int.natCast_nonneg _)
  omega

/-- An amount that was validated is not negative. -/
theorem validateAmount_ok {amount : Option SdkInt} {u : PUnit} (h : validateAmount amount = .ok u) :
    0 ≤ (amount.map SdkInt.toInt).getD 0 := by
  cases amount with
  | none => exact le_rfl
  | some amount =>
      obtain ⟨⟨⟩, hsign, -⟩ := except_bind_ok.mp h
      exact of_decide_eq_true (require_ok.mp hsign)

/-- A valid legacy transaction has a price, and a fee of at most 256 bits. -/
theorem ProtoLegacyTx.validate_priced {tx : ProtoLegacyTx} (h : tx.validate = .ok ()) :
    Priced (ProtoTxData.legacy tx).txData := by
  unfold validate at h
  split at h
  · exact absurd h (by simp)
  · rename_i gasPrice bits hprice
    obtain ⟨⟨⟩, hsign, h⟩ := except_bind_ok.mp h
    obtain ⟨⟨⟩, -, h⟩ := except_bind_ok.mp h
    obtain ⟨⟨⟩, hfee, h⟩ := except_bind_ok.mp h
    obtain ⟨⟨⟩, hamount, -⟩ := except_bind_ok.mp h
    have hnonneg : 0 ≤ gasPrice := of_decide_eq_true (require_ok.mp hsign)
    have hget : tx.gasPrice.map SdkInt.toInt = some gasPrice := by rw [hprice]; rfl
    exact ⟨⟨gasPrice, hget, hnonneg⟩, ⟨gasPrice, hget, hnonneg, validateFee_ok hnonneg hfee⟩,
      validateAmount_ok hamount⟩

/-- So has one with an access list. -/
theorem ProtoAccessListTx.validate_priced {tx : ProtoAccessListTx} (h : tx.validate = .ok ()) :
    Priced (ProtoTxData.accessList tx).txData := by
  unfold validate at h
  split at h
  · exact absurd h (by simp)
  · rename_i gasPrice bits hprice
    obtain ⟨⟨⟩, -, h⟩ := except_bind_ok.mp h
    obtain ⟨⟨⟩, hsign, h⟩ := except_bind_ok.mp h
    obtain ⟨⟨⟩, hamount, h⟩ := except_bind_ok.mp h
    obtain ⟨⟨⟩, hfee, -⟩ := except_bind_ok.mp h
    have hnonneg : 0 ≤ gasPrice := of_decide_eq_true (require_ok.mp hsign)
    have hget : tx.gasPrice.map SdkInt.toInt = some gasPrice := by rw [hprice]; rfl
    exact ⟨⟨gasPrice, hget, hnonneg⟩, ⟨gasPrice, hget, hnonneg, validateFee_ok hnonneg hfee⟩,
      validateAmount_ok hamount⟩

/-- So has one with a dynamic fee. -/
theorem ProtoDynamicFeeTx.validate_priced {tx : ProtoDynamicFeeTx} (h : tx.validate = .ok ()) :
    Priced (ProtoTxData.dynamicFee tx).txData := by
  unfold validate at h
  split at h
  · exact absurd h (by simp)
  · exact absurd h (by simp)
  · rename_i gasTipCap _ gasFeeCap _ htip hcap
    obtain ⟨⟨⟩, htipSign, h⟩ := except_bind_ok.mp h
    obtain ⟨⟨⟩, hcapSign, h⟩ := except_bind_ok.mp h
    obtain ⟨⟨⟩, -, h⟩ := except_bind_ok.mp h
    obtain ⟨⟨⟩, -, h⟩ := except_bind_ok.mp h
    obtain ⟨⟨⟩, -, h⟩ := except_bind_ok.mp h
    obtain ⟨⟨⟩, hfee, h⟩ := except_bind_ok.mp h
    obtain ⟨⟨⟩, hamount, -⟩ := except_bind_ok.mp h
    have hnonneg : 0 ≤ gasFeeCap := of_decide_eq_true (require_ok.mp hcapSign)
    refine ⟨⟨gasTipCap, ?_, of_decide_eq_true (require_ok.mp htipSign)⟩,
      ⟨gasFeeCap, ?_, hnonneg, validateFee_ok hnonneg hfee⟩, validateAmount_ok hamount⟩
    · show tx.gasTipCap.map SdkInt.toInt = some gasTipCap
      rw [htip]
      rfl
    · show tx.gasFeeCap.map SdkInt.toInt = some gasFeeCap
      rw [hcap]
      rfl

/-- **The three functions make sure of the same.** -/
theorem validate_priced {d : ProtoTxData} (h : d.validate = .ok ()) : Priced d.txData := by
  cases d with
  | legacy tx => exact ProtoLegacyTx.validate_priced h
  | accessList tx => exact ProtoAccessListTx.validate_priced h
  | dynamicFee tx => exact ProtoDynamicFeeTx.validate_priced h

/-! ## Fees and costs -/

/-- The gas price of every type is its fee cap. -/
theorem getGasPrice_eq_getGasFeeCap (data : TxData) : data.getGasPrice = data.getGasFeeCap := by
  cases data <;> rfl

namespace Priced

variable {data : TxData}

/-- There is a fee. -/
theorem fee_ok (h : Priced data) : ∃ fee, data.fee = .ok fee ∧ 0 ≤ fee ∧ fee < 2 ^ 256 := by
  obtain ⟨cap, hcap, hnonneg, hbits⟩ := h.cap
  refine ⟨cap * data.getGas.toNat, ?_, mul_nonneg hnonneg (Int.natCast_nonneg _), hbits⟩
  unfold TxData.fee
  rw [getGasPrice_eq_getGasFeeCap, hcap]
  rfl

/-- **An effective fee is a fee, and not above the fee of the worst case.** -/
theorem effectiveFee_ok (h : Priced data) (baseFee : ℕ) : ∃ fee effectiveFee, data.fee = .ok fee ∧
    data.effectiveFee (some baseFee) = .ok effectiveFee ∧ 0 ≤ effectiveFee ∧ effectiveFee ≤ fee := by
  obtain ⟨fee, hfee, hnonneg, -⟩ := h.fee_ok
  cases data with
  | legacy tx => exact ⟨fee, fee, hfee, hfee, hnonneg, le_rfl⟩
  | accessList tx => exact ⟨fee, fee, hfee, hfee, hnonneg, le_rfl⟩
  | dynamicFee tx =>
      obtain ⟨tip, htip, htipNonneg⟩ := h.tip
      obtain ⟨cap, hcap, hcapNonneg, -⟩ := h.cap
      change tx.gasTipCap = some tip at htip
      change tx.gasFeeCap = some cap at hcap
      have hgas : (0 : ℤ) ≤ tx.gasLimit.toNat := Int.natCast_nonneg _
      have hprice : 0 ≤ min (tip + (baseFee : ℤ)) cap :=
        le_min (add_nonneg htipNonneg (Int.natCast_nonneg _)) hcapNonneg
      refine ⟨cap * tx.gasLimit.toNat, min (tip + (baseFee : ℤ)) cap * tx.gasLimit.toNat, ?_, ?_,
        mul_nonneg hprice hgas, mul_le_mul_of_nonneg_right (min_le_right _ _) hgas⟩
      · simp [TxData.fee, TxData.getGasPrice, TxData.getGas, Evm.fee, hcap]
      · simp [TxData.effectiveFee, DynamicFeeTx.getEffectiveGasPrice, Evm.fee, htip, hcap, bind, Except.bind]

/-- Costs differ as the fees do. -/
theorem effectiveCost_ok (h : Priced data) (baseFee : ℕ) : ∃ cost effectiveCost, data.cost = .ok cost ∧
    data.effectiveCost (some baseFee) = .ok effectiveCost ∧ effectiveCost ≤ cost := by
  obtain ⟨fee, effectiveFee, hfee, heffective, -, hle⟩ := h.effectiveFee_ok baseFee
  have hcost : data.cost = .ok (Evm.cost fee data.getValue) := by
    unfold TxData.cost
    rw [hfee]
    rfl
  cases data with
  | legacy tx => exact ⟨_, _, hcost, hcost, le_rfl⟩
  | accessList tx => exact ⟨_, _, hcost, hcost, le_rfl⟩
  | dynamicFee tx =>
      refine ⟨_, Evm.cost effectiveFee tx.amount, hcost, ?_, ?_⟩
      · show ((TxData.dynamicFee tx).effectiveFee (some baseFee) >>= _) = _
        rw [heffective]
        rfl
      · rw [cost_eq, cost_eq]
        exact add_le_add_left hle _

/-- **The fee that is deducted is at most the fee of the worst case**, on every fork and in every state of
the fee market. -/
theorem feeAmount_le (h : Priced data) {ctx : Context} {feeAmt : ℤ} (hfee : ctx.feeAmount data = .ok feeAmt) :
    ∃ fee, data.fee = .ok fee ∧ 0 ≤ feeAmt ∧ feeAmt ≤ fee ∧ fee < 2 ^ 256 := by
  obtain ⟨fee, hok, hnonneg, hbits⟩ := h.fee_ok
  unfold Context.feeAmount at hfee
  split_ifs at hfee with hdynamic
  · split at hfee
    · rename_i feeCap baseFee _ hbase
      split_ifs at hfee
      obtain ⟨fee', effectiveFee, hok', heffective, heffectiveNonneg, hle⟩ := h.effectiveFee_ok baseFee
      rw [hbase, mapError_ok, heffective] at hfee
      obtain rfl := Except.ok.inj hfee
      obtain rfl := Except.ok.inj (hok.symm.trans hok')
      exact ⟨fee, hok, heffectiveNonneg, hle, hbits⟩
    · exact absurd hfee (by simp)
  · rw [mapError_ok, hok] at hfee
    obtain rfl := Except.ok.inj hfee
    exact ⟨fee, hok, hnonneg, le_rfl, hbits⟩

/-- Where there is a base fee, computing the fee does not panic. -/
theorem feeAmount_ne_panic (h : Priced data) {ctx : Context} (hbase : ctx.feeMarketBaseFee.isSome)
    (p : Panic) : ctx.feeAmount data ≠ .error (.panic p) := by
  obtain ⟨baseFee, hbase⟩ := Option.isSome_iff_exists.mp hbase
  obtain ⟨cap, hcap, -⟩ := h.cap
  obtain ⟨fee, effectiveFee, hok, heffective, -⟩ := h.effectiveFee_ok baseFee
  unfold Context.feeAmount
  rw [hcap, hbase, hok, heffective]
  simp only [Except.mapError]
  split_ifs <;> simp

variable [Keccak]

/-- **A deduction does not panic.** -/
theorem deductTxCosts_ne_panic (h : Priced data) {app : App} {ctx : Context}
    (hbase : ctx.feeMarketBaseFee.isSome) {sender : Option Address} {st st' : Store} (p : Panic) :
    app.deductTxCosts ctx sender data st ≠ .error (.panic p) st' := by
  intro hrun
  rcases bind_error.mp hrun with hrun | ⟨st₁, st₂, -, hrun⟩
  · cases hrun
  rcases bind_error.mp hrun with hrun | ⟨signer, st₃, -, hrun⟩
  · have hsigner := (ofExcept_error.mp hrun).1
    unfold Store.getSignerAcc at hsigner
    split at hsigner
    · exact absurd hsigner (by simp)
    · split_ifs at hsigner
      exact absurd hsigner (by simp)
  rcases bind_error.mp hrun with hrun | ⟨⟨⟩, st₄, -, hrun⟩
  · have hgas := (ofExcept_error.mp hrun).1
    unfold App.checkIntrinsicGas at hgas
    split at hgas
    · exact absurd hgas (by simp)
    · split_ifs at hgas
      exact absurd hgas (by simp)
  rcases bind_error.mp hrun with hrun | ⟨feeAmt, st₅, hfee, hrun⟩
  · exact h.feeAmount_ne_panic hbase p (ofExcept_error.mp hrun).1
  · obtain ⟨fee, -, hnonneg, hle, hbits⟩ := h.feeAmount_le (ofExcept_ok.mp hfee).1
    have hint : Smartdoge.newIntFromBigInt feeAmt = .ok feeAmt := if_pos (by omega)
    have hcoin : newCoin feeAmt = .ok feeAmt.toNat := if_pos hnonneg
    unfold App.deductFee at hrun
    split_ifs at hrun
    · cases hrun
    · rw [hint] at hrun
      rcases bind_error.mp hrun with hrun | ⟨amount, st₆, hamount, hrun⟩
      · exact absurd (ofExcept_error.mp hrun).1 (by simp [Except.mapError])
      obtain rfl := Except.ok.inj (mapError_ok.mp (ofExcept_ok.mp hamount).1)
      rw [hcoin] at hrun
      rcases bind_error.mp hrun with hrun | ⟨fees, st₇, -, hrun⟩
      · exact absurd (ofExcept_error.mp hrun).1 (by simp [Except.mapError])
      rcases bind_error.mp hrun with hrun | ⟨⟨⟩, st₈, -, hrun⟩
      · obtain ⟨err, -, herr⟩ := adaptExcept_error.mp hrun
        exact absurd herr (by simp)
      · cases hrun

end Priced

/-- What `CheckSenderBalance` makes sure of. -/
theorem checkSenderBalance_ok {balance : ℤ} {data : TxData} (h : checkSenderBalance balance data = .ok ()) :
    ∃ fee, data.fee = .ok fee ∧ fee + data.getValue.getD 0 ≤ balance := by
  obtain ⟨cost, hcost, h⟩ := except_bind_ok.mp h
  split_ifs at h with hneg hless
  obtain ⟨fee, hfee, hcost⟩ := except_bind_ok.mp (mapError_ok.mp hcost)
  refine ⟨fee, hfee, ?_⟩
  have hsum : cost = fee + data.getValue.getD 0 := by rw [← Except.ok.inj hcost, cost_eq]
  omega

/-- **An admitted sender can pay.** If `Validate` accepts a transaction and `CheckSenderBalance` a balance,
the fee that is computed is not negative, has at most 256 bits, and leaves the amount that is transferred;
no deduction panics; and for every base fee the effective fee and cost are at most fee and cost. -/
theorem admitted_sender_pays [Keccak] {d : ProtoTxData} (hvalid : d.validate = .ok ()) :
    (∀ (ctx : Context) (balance feeAmt : ℤ), checkSenderBalance balance d.txData = .ok () →
      ctx.feeAmount d.txData = .ok feeAmt →
      0 ≤ feeAmt ∧ feeAmt < 2 ^ 256 ∧ Smartdoge.newIntFromBigInt feeAmt = .ok feeAmt ∧
        d.txData.getValue.getD 0 ≤ balance - feeAmt) ∧
    (∀ (app : App) (ctx : Context) (sender : Option Address) (st st' : Store) (p : Panic),
      ctx.feeMarketBaseFee.isSome → app.deductTxCosts ctx sender d.txData st ≠ .error (.panic p) st') ∧
    (∀ baseFee : ℕ,
      (∃ fee effectiveFee, d.txData.fee = .ok fee ∧ d.txData.effectiveFee (some baseFee) = .ok effectiveFee ∧
        effectiveFee ≤ fee) ∧
      ∃ cost effectiveCost, d.txData.cost = .ok cost ∧
        d.txData.effectiveCost (some baseFee) = .ok effectiveCost ∧ effectiveCost ≤ cost) := by
  have hpriced := validate_priced hvalid
  refine ⟨?_, ?_, ?_⟩
  · intro ctx balance feeAmt hbalance hfeeAmt
    obtain ⟨fee, hfee, hnonneg, hle, hbits⟩ := hpriced.feeAmount_le hfeeAmt
    obtain ⟨fee', hfee', hcovered⟩ := checkSenderBalance_ok hbalance
    obtain rfl := Except.ok.inj (hfee.symm.trans hfee')
    exact ⟨hnonneg, by omega, if_pos (by omega), by omega⟩
  · intro app ctx sender st st' p hbase
    exact hpriced.deductTxCosts_ne_panic hbase p
  · intro baseFee
    obtain ⟨fee, effectiveFee, hfee, heffective, -, hle⟩ := hpriced.effectiveFee_ok baseFee
    exact ⟨⟨fee, effectiveFee, hfee, heffective, hle⟩, hpriced.effectiveCost_ok baseFee⟩

/-- A dynamic-fee transaction whose fee cap has 241 bits. The sender has just its cost, and pays the tip over
the base fee of 7. -/
theorem admitted_sender_pays_large :
    letI := sampleKeccak
    let d : ProtoTxData := .dynamicFee
      { chainID := some ⟨9000, by decide⟩, nonce := 0, gasTipCap := some ⟨2, by decide⟩,
        gasFeeCap := some ⟨2 ^ 240, by decide⟩, gasLimit := 21000,
        toAddr := "0x00000000000000000000000000000000000000Ab", amount := some ⟨5, by decide⟩,
        data := [], accesses := none, v := [1], r := [1], s := [1] }
    let balance : ℤ := 2 ^ 240 * 21000 + 5
    d.validate = .ok () ∧ checkSenderBalance balance d.txData = .ok () ∧
      sampleContext.feeAmount d.txData = .ok 189000 ∧ 5 ≤ balance - 189000 := by
  let _ := sampleKeccak
  intro d balance
  have hvalid : d.validate = .ok () := by decide +kernel
  have hbalance : checkSenderBalance balance d.txData = .ok () := by decide +kernel
  have hfee : sampleContext.feeAmount d.txData = .ok 189000 := by decide +kernel
  obtain ⟨-, -, -, hcovered⟩ := (admitted_sender_pays hvalid).1 sampleContext balance 189000 hbalance hfee
  exact ⟨hvalid, hbalance, hfee, hcovered⟩

end Smartdoge.Evm
