import Smartdoge.Ante.Eth

/-!
# The price gas is bought at

The ante handler deducts the fee of the gas limit, `RefundGas` pays unused gas back at the price of the
core message. The first branches on the fee market's `IsBaseFeeEnabled`, the second on
`Keeper.GetBaseFee`, which turns a fee market without base fee into a base fee of zero.

* **`deducted_iff`**: for every transaction the ante handler accepts and each of its messages, the
  amount deducted is the gas limit at the price of the core message, if and only if
  `Context.RefundsAtPrice` holds.
* `deducted_feeCap`: with the London fork and `NoBaseFee`, a dynamic-fee transaction buys its gas at
  the fee cap and is refunded at the tip.
-/

set_option linter.unusedSectionVars false

namespace Smartdoge.Ante

open Smartdoge.Lib
open Smartdoge.Lib.Writes
open Smartdoge.Evm

section price

variable [Keccak] {app : App} {ctx : Context}

/-- A message whose deduction returned, and whose sender was recovered. -/
theorem deductTxCosts_price {eth : MsgEthereumTx} {st st' : Store} {fee : ℕ}
    (hsender : eth.sender = app.geth.sender ctx eth.data)
    (h : app.deductTxCosts ctx eth.sender eth.data st = .ok fee st') :
    ∃ coreMsg, app.asMessage ctx eth.data ctx.getBaseFee = some coreMsg ∧
      ((fee : ℤ) = coreMsg.gas.toNat * coreMsg.gasPrice ↔ ctx.RefundsAtPrice eth.data) := by
  obtain ⟨signer, hsigner, -, hfee, -⟩ := App.deductTxCosts_ok h
  refine ⟨eth.data.asMessage signer ctx.getBaseFee, ?_, feeAmount_eq_iff hfee signer⟩
  rw [App.asMessage, ← hsender, hsigner]
  rfl

/-- Every message of an accepted transaction had its fee deducted in some state. -/
theorem deductAll_forall₂ {eths : List MsgEthereumTx} {st st' : Store} {fees : List ℕ}
    (h : deductAll app ctx eths st = .ok fees st') :
    List.Forall₂ (fun eth fee => ∃ st₁ st₂,
      app.deductTxCosts ctx eth.sender eth.data st₁ = .ok fee st₂) eths fees := by
  refine mapM_forall₂ ?_ h
  intro eth _ st₁ fee st₂ hdeduct
  exact ⟨st₁, st₂, adaptExcept_ok.mp hdeduct⟩

/-- A message after the ante handler is one of those before, with the recovered sender. -/
theorem signed_mem {msgs : List Msg} {eths : List MsgEthereumTx}
    (h : List.Forall₂ (Signed app ctx) msgs eths) {eth : MsgEthereumTx} (heth : eth ∈ eths) :
    ∃ msg ∈ msgs, Signed app ctx msg eth := by
  induction h with
  | nil => simp at heth
  | @cons msg eth' msgs eths hsigned _ ih =>
      rcases List.mem_cons.mp heth with rfl | hmem
      · exact ⟨msg, List.mem_cons_self, hsigned⟩
      · obtain ⟨msg', hmsg', hsigned'⟩ := ih hmem
        exact ⟨msg', List.mem_cons_of_mem msg hmsg', hsigned'⟩

/-- The sender of a message after the ante handler is the one that go-ethereum recovers. -/
theorem signed_sender {msgs : List Msg} {eths : List MsgEthereumTx}
    (h : List.Forall₂ (Signed app ctx) msgs eths) {eth : MsgEthereumTx} (heth : eth ∈ eths) :
    eth.sender = app.geth.sender ctx eth.data := by
  obtain ⟨msg, -, eth₀, -, -, hsender, -⟩ := signed_mem h heth
  exact hsender

/-- **Gas is refunded at the price it was bought at, if and only if** the message has no gas, or has a
single gas price, or the London fork is not active, or the base fee is enabled, or the tip and the
base fee use up the fee cap. This is for every transaction the ante handler accepts, and every message
of it. -/
theorem deducted_iff {sdk : Sdk} {tx : CosmosTx} {simulate : Bool} {st st' : Store} {out : EthAnte}
    (h : newEthAnteHandler app ctx sdk tx simulate st = .ok out st') :
    List.Forall₂ (Signed app ctx) tx.msgs out.msgs ∧
    List.Forall₂ (fun eth fee =>
      (∃ st₁ st₂, app.deductTxCosts ctx eth.sender eth.data st₁ = .ok fee st₂) ∧
      ∃ coreMsg, app.asMessage ctx eth.data ctx.getBaseFee = some coreMsg ∧
        ((fee : ℤ) = coreMsg.gas.toNat * coreMsg.gasPrice ↔ ctx.RefundsAtPrice eth.data))
      out.msgs out.fees := by
  obtain ⟨hsigned, st₁, st₂, -, hdeduct, -⟩ := newEthAnteHandler_ok h
  refine ⟨hsigned, ?_⟩
  have hsenders : ∀ eth ∈ out.msgs, eth.sender = app.geth.sender ctx eth.data :=
    fun eth heth => signed_sender hsigned heth
  have hall := deductAll_forall₂ hdeduct
  generalize out.msgs = eths at hsenders hall
  generalize out.fees = fees at hall
  induction hall with
  | nil => exact List.Forall₂.nil
  | @cons eth fee eths fees hstep _ ih =>
      obtain ⟨st₁, st₂, hrun⟩ := hstep
      refine List.Forall₂.cons ⟨⟨st₁, st₂, hrun⟩, ?_⟩
        (ih fun eth' h' => hsenders eth' (List.mem_cons_of_mem eth h'))
      exact deductTxCosts_price (hsenders eth List.mem_cons_self) hrun

end price

/-! ## Concrete runs -/

/-- A transfer of 5 by `a` in a dynamic-fee transaction with tip 1 and fee cap 10. -/
def dynamicTransfer (nonce : UInt64) (dst : Address) : TxData :=
  .dynamicFee ⟨some 1, nonce, some 1, some 10, 100000, some dst, some 5, [], none, [], [], []⟩

/-- With the base fee 7 enabled, 100000 gas are bought at the price of 8 they are refunded at. -/
theorem deducted_iff_enabled :
    letI := sampleKeccak
    let a : Address := .ofNat 20 1
    let st : Store :=
      { accounts := GoMap.empty.set a (.eth 3 emptyCodeHash),
        balances := GoMap.empty.set a 2000000, supply := 2000000, kv := GoMap.empty,
        transient := ⟨0, 0, 0, 0⟩ }
    let app := sampleApp a transferCall transferCall
    let tx := dynamicTransfer 3 (.ofNat 20 2)
    ∃ out st', newEthAnteHandler app sampleContext sampleSdk (ethCosmosTx [tx] 1000000 100000) false st =
        .ok out st' ∧ out.fees = [800000] ∧ sampleContext.RefundsAtPrice tx ∧
      List.Forall₂ (fun eth fee =>
        (∃ st₁ st₂, app.deductTxCosts sampleContext eth.sender eth.data st₁ = .ok fee st₂) ∧
        ∃ coreMsg, app.asMessage sampleContext eth.data sampleContext.getBaseFee = some coreMsg ∧
          ((fee : ℤ) = coreMsg.gas.toNat * coreMsg.gasPrice ↔
            sampleContext.RefundsAtPrice eth.data)) out.msgs out.fees := by
  let _ := sampleKeccak
  intro a st app tx
  obtain ⟨out, st', hrun, hfees⟩ := exists_of_endsWith (by decide +kernel :
    endsWith (newEthAnteHandler app sampleContext sampleSdk (ethCosmosTx [tx] 1000000 100000) false st)
      (fun out _ => decide (out.fees = [800000])) = true)
  refine ⟨out, st', hrun, of_decide_eq_true hfees, ?_, (deducted_iff hrun).2⟩
  exact Or.inr (Or.inr (Or.inr (Or.inl rfl)))

/-- With `NoBaseFee` after the London fork, the same transaction buys its gas at 10 and is refunded at
1: each unit of gas that is not used costs its sender 9. -/
theorem deducted_feeCap :
    letI := sampleKeccak
    let a : Address := .ofNat 20 1
    let st : Store :=
      { accounts := GoMap.empty.set a (.eth 3 emptyCodeHash),
        balances := GoMap.empty.set a 2000000, supply := 2000000, kv := GoMap.empty,
        transient := ⟨0, 0, 0, 0⟩ }
    let app := sampleApp a transferCall transferCall
    let ctx := { sampleContext with
      feeMarketParams := ⟨true, 0, ⟨0⟩, ⟨5 * 10 ^ 17⟩⟩
      feeMarketBaseFee := none }
    let tx := dynamicTransfer 3 (.ofNat 20 2)
    ∃ out st' coreMsg,
      newEthAnteHandler app ctx sampleSdk (ethCosmosTx [tx] 1000000 100000) false st = .ok out st' ∧
      out.fees = [1000000] ∧ app.asMessage ctx tx ctx.getBaseFee = some coreMsg ∧
      coreMsg.gas = 100000 ∧ coreMsg.gasPrice = 1 ∧ ¬ctx.RefundsAtPrice tx := by
  let _ := sampleKeccak
  intro a st app ctx tx
  obtain ⟨out, st', hrun, hfees⟩ := exists_of_endsWith (by decide +kernel :
    endsWith (newEthAnteHandler app ctx sampleSdk (ethCosmosTx [tx] 1000000 100000) false st)
      (fun out _ => decide (out.fees = [1000000])) = true)
  refine ⟨out, st', tx.asMessage a ctx.getBaseFee, hrun, of_decide_eq_true hfees, rfl, rfl, ?_, ?_⟩
  · decide +kernel
  · unfold Context.RefundsAtPrice
    decide +kernel

end Smartdoge.Ante
