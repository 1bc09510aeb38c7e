import Smartdoge.Ante.FeePrice

/-!
# Minimum fees

Two decorators reject a transaction that pays too little. `EthMinGasPriceDecorator` asks for the minimum gas
price of the fee market, in every mode; it looks at the fee a message is going to pay. `EthMempoolFeeDecorator`
asks for the minimum gas price of the node, in CheckTx and where there is no base fee. Both multiply a decimal
with the gas limit, which is exact; the second one converts the gas limit to an `int64` before.

* **`deducted_ge_minimum`**: what is deducted for a message of an accepted transaction is at least the minimum
  gas price of the fee market for its gas limit.
* `ethMempoolFee_iff`: what the decorator compares.
* **`mempoolFee_enforced_iff`**: a transaction in which a message pays less than the minimum of the node is
  rejected, unless every such message has a gas limit of 2⁶³ or more.
-/

set_option linter.unusedSectionVars false

namespace Smartdoge.Ante

open Smartdoge.Lib
open Smartdoge.Lib.Writes
open Smartdoge.Evm

/-! ## The minimum of the fee market -/

/-- A message that passed pays the minimum with its effective fee, which for a legacy transaction is the fee. -/
theorem checkMinGasPrice_ok {ctx : Context} {eth : MsgEthereumTx} {u : PUnit}
    (h : checkMinGasPrice ctx eth = .ok u) :
    ∃ feeAmt, eth.data.effectiveFee ctx.getBaseFee = .ok feeAmt ∧
      ctx.feeMarketParams.minGasPrice.units * eth.data.getGas.toNat ≤ feeAmt * Dec.precision := by
  obtain ⟨fee, hfee, h⟩ := except_bind_ok.mp h
  have hcompared : ∃ feeAmt, eth.data.effectiveFee ctx.getBaseFee = .ok feeAmt ∧
      (if (Dec.ofInt feeAmt).lt
          (ctx.feeMarketParams.minGasPrice.mul (Dec.ofInt eth.data.getGas.toNat)) then
        .error .belowMinimumGlobalFee else .ok () : Except AnteError PUnit) = .ok u := by
    cases hdata : eth.data with
    | legacy tx =>
        rw [hdata] at hfee h
        exact ⟨fee, mapError_ok.mp hfee, h⟩
    | accessList tx =>
        rw [hdata] at h
        obtain ⟨feeAmt, hamount, h⟩ := except_bind_ok.mp h
        exact ⟨feeAmt, mapError_ok.mp hamount, h⟩
    | dynamicFee tx =>
        rw [hdata] at h
        obtain ⟨feeAmt, hamount, h⟩ := except_bind_ok.mp h
        exact ⟨feeAmt, mapError_ok.mp hamount, h⟩
  obtain ⟨feeAmt, hamount, h⟩ := hcompared
  refine ⟨feeAmt, hamount, ?_⟩
  rw [Dec.mul_ofInt_right] at h
  split_ifs at h with hlt
  exact not_lt.mp fun hless => hlt (decide_eq_true hless)

/-- The effective fee is not more than the fee that is deducted. The two take the base fee from different
places, and the deduction uses the fee cap where the base fee is not enabled. -/
theorem effectiveFee_le {ctx : Context} {txData : TxData} {feeAmt fee : ℤ}
    (heffective : txData.effectiveFee ctx.getBaseFee = .ok feeAmt)
    (hdeducted : ctx.feeAmount txData = .ok fee) : feeAmt ≤ fee := by
  cases txData with
  | legacy tx =>
      have hfee : (TxData.legacy tx).fee = .ok feeAmt := heffective
      rw [fee_ok hfee, feeAmount_static (by simp [TxData.txType]) hdeducted]
  | accessList tx =>
      have hfee : (TxData.accessList tx).fee = .ok feeAmt := heffective
      rw [fee_ok hfee, feeAmount_static (by simp [TxData.txType]) hdeducted]
  | dynamicFee tx =>
      obtain ⟨tip, feeCap, base, htip, hcap, hbase, rfl⟩ := effectiveFee_ok heffective
      have hlondon : ctx.isLondon = true := by
        by_contra hnot
        simp [Context.getBaseFee, hnot] at hbase
      cases henabled : ctx.isBaseFeeEnabled with
      | true =>
          obtain ⟨tip', feeCap', base', htip', hcap', hbase', rfl⟩ :=
            feeAmount_effective hlondon henabled hdeducted
          have hsame : base' = base := by simpa [Context.getBaseFee, hlondon, hbase'] using hbase
          rw [htip, Option.some.injEq] at htip'
          rw [hcap, Option.some.injEq] at hcap'
          rw [hsame, htip', hcap']
      | false =>
          have hfee := feeAmount_static (by simp [henabled]) hdeducted
          have hprice : (TxData.dynamicFee tx).getGasPrice.getD 0 = feeCap := by
            rw [TxData.getGasPrice, hcap]
            rfl
          rw [hfee, hprice]
          exact mul_le_mul_of_nonneg_right (min_le_right _ _) (Int.natCast_nonneg _)

section chain

variable [Keccak] {app : App} {ctx : Context}

/-- **The minimum gas price is charged.** For every transaction the ante handler accepts and each of its
messages, the fee that was deducted is at least the minimum gas price of the fee market times the gas limit. -/
theorem deducted_ge_minimum {sdk : Sdk} {tx : CosmosTx} {simulate : Bool} {st st' : Store} {out : EthAnte}
    (h : newEthAnteHandler app ctx sdk tx simulate st = .ok out st') :
    List.Forall₂ (Signed app ctx) tx.msgs out.msgs ∧
    List.Forall₂ (fun eth fee =>
      (∃ st₁ st₂, app.deductTxCosts ctx eth.sender eth.data st₁ = .ok fee st₂) ∧
      ctx.feeMarketParams.minGasPrice.units * eth.data.getGas.toNat ≤ fee * Dec.precision)
      out.msgs out.fees := by
  obtain ⟨-, hminimum, -⟩ := newEthAnteHandler_iff.mp h
  obtain ⟨hsigned, st₁, st₂, -, hdeduct, -⟩ := newEthAnteHandler_ok h
  refine ⟨hsigned, ?_⟩
  have hall := deductAll_forall₂ hdeduct
  rw [List.forall₂_iff_zip] at hall ⊢
  refine ⟨hall.1, ?_⟩
  intro eth fee hmem
  obtain ⟨st₃, st₄, hrun⟩ := hall.2 hmem
  refine ⟨⟨st₃, st₄, hrun⟩, ?_⟩
  obtain ⟨-, -, -, hfee, -⟩ := App.deductTxCosts_ok hrun
  unfold ethMinGasPrice at hminimum
  split_ifs at hminimum with hzero
  · have hunits : ctx.feeMarketParams.minGasPrice.units = 0 := of_decide_eq_true hzero
    rw [hunits, zero_mul]
    exact mul_nonneg (Int.natCast_nonneg fee) Dec.precision_pos.le
  · obtain ⟨us, hus, -⟩ := except_bind_ok.mp hminimum
    obtain ⟨msg, hmsg, eth₀, rfl, hdata, -⟩ := signed_mem hsigned (List.of_mem_zip hmem).1
    obtain ⟨eth₁, u, heq, hcheck⟩ := forEthMsgs_iff.mp ⟨us, hus⟩ _ hmsg
    obtain rfl := Msg.ethereumTx.inj heq
    obtain ⟨feeAmt, heffective, hbound⟩ := checkMinGasPrice_ok hcheck
    rw [← hdata] at heffective hbound
    calc ctx.feeMarketParams.minGasPrice.units * eth.data.getGas.toNat
        ≤ feeAmt * Dec.precision := hbound
      _ ≤ fee * Dec.precision :=
        mul_le_mul_of_nonneg_right (effectiveFee_le heffective hfee) Dec.precision_pos.le

end chain

/-- A minimum of 2.5 and an effective price of 8. -/
theorem deducted_ge_minimum_dynamic :
    letI := sampleKeccak
    let a : Address := .ofNat 20 1
    let st : Store :=
      { accounts := GoMap.empty.set a (.eth 3 emptyCodeHash),
        balances := GoMap.empty.set a 2000000, supply := 2000000, kv := GoMap.empty,
        transient := ⟨0, 0, 0, 0⟩ }
    let app := sampleApp a transferCall transferCall
    let ctx := { sampleContext with feeMarketParams := ⟨false, 0, ⟨25 * 10 ^ 17⟩, ⟨5 * 10 ^ 17⟩⟩ }
    let tx := dynamicTransfer 3 (.ofNat 20 2)
    ∃ out st', newEthAnteHandler app ctx sampleSdk (ethCosmosTx [tx] 1000000 100000) false st =
        .ok out st' ∧ out.fees = [800000] ∧
      List.Forall₂ (fun eth fee =>
        (∃ st₁ st₂, app.deductTxCosts ctx eth.sender eth.data st₁ = .ok fee st₂) ∧
        ctx.feeMarketParams.minGasPrice.units * eth.data.getGas.toNat ≤ fee * Dec.precision)
        out.msgs out.fees := by
  let _ := sampleKeccak
  intro a st app ctx tx
  obtain ⟨out, st', hrun, hfees⟩ := exists_of_endsWith (by decide +kernel :
    endsWith (newEthAnteHandler app ctx sampleSdk (ethCosmosTx [tx] 1000000 100000) false st)
      (fun out _ => decide (out.fees = [800000])) = true)
  exact ⟨out, st', hrun, of_decide_eq_true hfees, (deducted_ge_minimum hrun).2⟩

/-! ## The minimum of the node -/

/-- The fee of the message is at least the minimum gas price of the node times the gas limit. -/
def PaysMinimum (ctx : Context) (eth : MsgEthereumTx) : Prop :=
  ∃ fee, eth.data.fee = .ok fee ∧ ctx.minGasPrice.units * eth.data.getGas.toNat ≤ fee * Dec.precision

/-- The gas price is below the minimum of the node, and there is gas to pay for. -/
def Underpriced (ctx : Context) (eth : MsgEthereumTx) : Prop :=
  0 < eth.data.getGas.toNat ∧ eth.data.getGasPrice.getD 0 * Dec.precision < ctx.minGasPrice.units

instance (ctx : Context) (eth : MsgEthereumTx) : Decidable (Underpriced ctx eth) :=
  inferInstanceAs (Decidable (_ ∧ _))

section mempool

variable {ctx : Context}

/-- The fee of a message with a gas price. -/
theorem fee_of_price {eth : MsgEthereumTx} {price : ℤ} (hprice : eth.data.getGasPrice = some price) :
    eth.data.fee = .ok (price * eth.data.getGas.toNat) := by
  unfold TxData.fee
  rw [hprice]
  rfl

/-- In exact arithmetic the gas limit does not matter, unless it is zero. -/
theorem paysMinimum_iff {eth : MsgEthereumTx} {price : ℤ} (hprice : eth.data.getGasPrice = some price) :
    PaysMinimum ctx eth ↔ ¬Underpriced ctx eth := by
  unfold PaysMinimum Underpriced
  rw [fee_of_price hprice, hprice, Option.getD_some]
  have hcomm : ∀ gas : ℤ, price * gas * Dec.precision = price * Dec.precision * gas := by
    intro gas
    ring
  rcases Nat.eq_zero_or_pos eth.data.getGas.toNat with hzero | hpos
  · refine iff_of_true ⟨_, rfl, ?_⟩ ?_
    · simp [hzero]
    · rw [hzero]
      exact fun h => absurd h.1 (lt_irrefl 0)
  · have hgas : (0 : ℤ) < eth.data.getGas.toNat := Int.natCast_pos.mpr hpos
    constructor
    · rintro ⟨fee, hfee, hle⟩ ⟨-, hlt⟩
      obtain rfl := Except.ok.inj hfee
      rw [hcomm] at hle
      exact absurd (le_of_mul_le_mul_right hle hgas) (not_le.mpr hlt)
    · intro hnot
      refine ⟨_, rfl, ?_⟩
      rw [hcomm]
      exact mul_le_mul_of_nonneg_right (not_lt.mp fun hlt => hnot ⟨hpos, hlt⟩) hgas.le

/-- The comparison of the decorator, with the gas limit as an `int64`. -/
theorem checkMempoolFee_iff {eth : MsgEthereumTx} {price : ℤ}
    (hprice : eth.data.getGasPrice = some price) : checkMempoolFee ctx eth = .ok () ↔
      ctx.minGasPrice.units * goInt64 eth.data.getGas ≤ price * eth.data.getGas.toNat * Dec.precision := by
  unfold checkMempoolFee
  rw [fee_of_price hprice, Dec.mul_ofInt_right]
  show (if decide (price * eth.data.getGas.toNat * Dec.precision <
    ctx.minGasPrice.units * goInt64 eth.data.getGas) = true then _ else _) = _ ↔ _
  split_ifs with hlt
  · exact iff_of_false (by simp) (not_le.mpr (of_decide_eq_true hlt))
  · exact iff_of_true rfl (not_lt.mp fun hless => hlt (decide_eq_true hless))

/-- **What a message has to meet**: a gas limit of 2⁶³ or more is negative as an `int64`, and so is the fee that
is asked for. -/
theorem checkMempoolFee_ok_iff {eth : MsgEthereumTx} {price : ℤ}
    (hprice : eth.data.getGasPrice = some price) (hnonneg : 0 ≤ price) (hmin : 0 ≤ ctx.minGasPrice.units) :
    checkMempoolFee ctx eth = .ok () ↔ (eth.data.getGas.toNat < 2 ^ 63 → ¬Underpriced ctx eth) := by
  rw [checkMempoolFee_iff hprice]
  by_cases hgas : eth.data.getGas.toNat < 2 ^ 63
  · have hint : goInt64 eth.data.getGas = eth.data.getGas.toNat := if_pos hgas
    rw [hint, forall_prop_of_true hgas, ← paysMinimum_iff hprice, PaysMinimum, fee_of_price hprice]
    simp
  · refine iff_of_true ?_ (absurd · hgas)
    have hint : goInt64 eth.data.getGas ≤ 0 := by
      have hlt := eth.data.getGas.toNat_lt
      rw [goInt64, if_neg hgas]
      omega
    calc ctx.minGasPrice.units * goInt64 eth.data.getGas
        ≤ 0 := mul_nonpos_of_nonneg_of_nonpos hmin hint
      _ ≤ price * eth.data.getGas.toNat * Dec.precision :=
        mul_nonneg (mul_nonneg hnonneg (Int.natCast_nonneg _)) Dec.precision_pos.le

/-- In CheckTx without a base fee the decorator looks at every message. -/
theorem ethMempoolFee_iff {tx : CosmosTx} {eths : List MsgEthereumTx}
    (hmsgs : tx.msgs = eths.map .ethereumTx) (hcheck : ctx.isCheckTx = true)
    (hbase : ctx.getBaseFee = none) :
    ethMempoolFee ctx tx false = .ok () ↔ ∀ eth ∈ eths, checkMempoolFee ctx eth = .ok () := by
  have hloop : ethMempoolFee ctx tx false = .ok () ↔
      ∃ us, forEthMsgs tx.msgs (checkMempoolFee ctx) = .ok us := by
    unfold ethMempoolFee
    rw [hcheck, hbase]
    constructor
    · intro h
      obtain ⟨us, hus, -⟩ := except_bind_ok.mp h
      exact ⟨us, hus⟩
    · rintro ⟨us, hus⟩
      exact except_bind_ok.mpr ⟨us, hus, rfl⟩
  rw [hloop, forEthMsgs_iff, hmsgs, List.forall_mem_map]
  refine forall₂_congr fun eth _ => ?_
  constructor
  · rintro ⟨eth', ⟨⟩, heq, h⟩
    obtain rfl := Msg.ethereumTx.inj heq
    exact h
  · intro h
    exact ⟨eth, (), rfl, h⟩

/-- **The minimum of the node is enforced** on a transaction, if and only if none of its messages with a gas
limit of 2⁶³ or more is underpriced, or some other message is. This is for every list of messages whose gas
prices are not negative, in CheckTx without a base fee. -/
theorem mempoolFee_enforced_iff {tx : CosmosTx} {eths : List MsgEthereumTx}
    (hmsgs : tx.msgs = eths.map .ethereumTx) (hcheck : ctx.isCheckTx = true)
    (hbase : ctx.getBaseFee = none)
    (hprices : ∀ eth ∈ eths, ∃ price, eth.data.getGasPrice = some price ∧ 0 ≤ price) :
    (ethMempoolFee ctx tx false = .ok () → ∀ eth ∈ eths, PaysMinimum ctx eth) ↔
      (∀ eth ∈ eths, 2 ^ 63 ≤ eth.data.getGas.toNat → ¬Underpriced ctx eth) ∨
        ∃ eth ∈ eths, eth.data.getGas.toNat < 2 ^ 63 ∧ Underpriced ctx eth := by
  have hpays : ∀ eth ∈ eths, (PaysMinimum ctx eth ↔ ¬Underpriced ctx eth) := by
    intro eth heth
    obtain ⟨price, hprice, -⟩ := hprices eth heth
    exact paysMinimum_iff hprice
  rcases lt_or_ge ctx.minGasPrice.units 0 with hneg | hmin
  · -- No price that is not negative is below a negative minimum.
    have hnone : ∀ eth ∈ eths, ¬Underpriced ctx eth := by
      rintro eth heth ⟨-, hlt⟩
      obtain ⟨price, hprice, hnonneg⟩ := hprices eth heth
      rw [hprice, Option.getD_some] at hlt
      have hproduct := mul_nonneg hnonneg Dec.precision_pos.le
      omega
    refine iff_of_true ?_ (Or.inl fun eth heth _ => hnone eth heth)
    intro _ eth heth
    exact (hpays eth heth).mpr (hnone eth heth)
  · have hpasses : ethMempoolFee ctx tx false = .ok () ↔
        ∀ eth ∈ eths, eth.data.getGas.toNat < 2 ^ 63 → ¬Underpriced ctx eth := by
      rw [ethMempoolFee_iff hmsgs hcheck hbase]
      refine forall₂_congr fun eth heth => ?_
      obtain ⟨price, hprice, hnonneg⟩ := hprices eth heth
      exact checkMempoolFee_ok_iff hprice hnonneg hmin
    rw [hpasses]
    constructor
    · intro henforced
      by_cases hsmall : ∀ eth ∈ eths, eth.data.getGas.toNat < 2 ^ 63 → ¬Underpriced ctx eth
      · exact Or.inl fun eth heth _ => (hpays eth heth).mp (henforced hsmall eth heth)
      · push Not at hsmall
        exact Or.inr hsmall
    · rintro (hlarge | ⟨eth, heth, hgas, hunder⟩) hsmall eth' heth'
      · rw [hpays eth' heth']
        rcases lt_or_ge eth'.data.getGas.toNat (2 ^ 63) with hgas | hgas
        · exact hsmall eth' heth' hgas
        · exact hlarge eth' heth' hgas
      · exact absurd hunder (hsmall eth heth hgas)

end mempool

/-! ## Concrete checks -/

/-- CheckTx before the London fork, with a minimum gas price of 2 at the node. -/
def mempoolContext : Context :=
  { sampleContext with
    isCheckTx := true
    minGasPrice := ⟨2 * 10 ^ 18⟩
    params := ⟨"asdoge", true, true, ⟨some 0, some 0, some 0, none⟩, true⟩ }

/-- A transfer with a given gas price and gas limit. -/
def pricedTx (price : ℤ) (gas : UInt64) : MsgEthereumTx :=
  ⟨.legacy ⟨3, some price, gas, some (.ofNat 20 2), some 5, [], [], [], []⟩, none, ""⟩

/-- One message at a price of 1 for 100000 gas is rejected, next to one that pays the price of 2. -/
theorem mempoolFee_enforced_small :
    let eths := [pricedTx 2 100000, pricedTx 1 100000]
    let tx := ethCosmosTx (eths.map MsgEthereumTx.data) 300000 200000
    ethMempoolFee mempoolContext tx false = .error .insufficientFees ∧
      ¬(∀ eth ∈ eths, ¬Underpriced mempoolContext eth) ∧
      (ethMempoolFee mempoolContext tx false = .ok () → ∀ eth ∈ eths, PaysMinimum mempoolContext eth) := by
  intro eths tx
  refine ⟨by decide +kernel, by decide +kernel, ?_⟩
  have hprices : ∀ eth ∈ eths, ∃ price, eth.data.getGasPrice = some price ∧ 0 ≤ price := by
    intro eth heth
    rcases List.mem_cons.mp heth with rfl | heth
    · exact ⟨2, rfl, by decide⟩
    · obtain rfl := List.mem_singleton.mp heth
      exact ⟨1, rfl, by decide⟩
  apply (mempoolFee_enforced_iff rfl rfl rfl hprices).mpr
  exact Or.inr ⟨pricedTx 1 100000, by decide +kernel, by decide +kernel, by decide +kernel⟩

/-- A message with a gas limit of 2⁶³ gets through for nothing. -/
theorem mempoolFee_dodged :
    let eth := pricedTx 0 (.ofNat (2 ^ 63))
    let tx := ethCosmosTx [eth.data] 0 (.ofNat (2 ^ 63))
    ethMempoolFee mempoolContext tx false = .ok () ∧ eth.data.fee = .ok 0 ∧
      ¬PaysMinimum mempoolContext eth := by
  intro eth tx
  refine ⟨by decide +kernel, (fee_of_price rfl).trans (by rw [zero_mul]), ?_⟩
  rw [paysMinimum_iff (rfl : eth.data.getGasPrice = some 0), not_not]
  decide +kernel

end Smartdoge.Ante
