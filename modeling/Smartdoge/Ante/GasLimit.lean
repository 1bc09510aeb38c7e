import Smartdoge.Ante.Eth

/-!
# Gas limits

Two decorators add up the gas limits of the messages: `EthValidateBasicDecorator` for the comparison with
the declared gas limit, and `EthGasConsumeDecorator` for the limit of the gas meter. Both add `uint64`
numbers, and nothing bounds the summands.

* `wrappedSum_toNat`: a sum of `uint64` is the sum modulo 2⁶⁴.
* **`declaredGas_iff`**: what is declared is the sum, if and only if the sum fits.
-/

set_option linter.unusedSectionVars false

namespace Smartdoge.Ante

open Smartdoge.Lib
open Smartdoge.Lib.Writes
open Smartdoge.Evm

/-! ## Sums -/

/-- The gas limit of an Ethereum message; other messages have none. -/
def Msg.gasLimit : Msg → ℕ
  | .ethereumTx msg => msg.data.getGas.toNat
  | _ => 0

/-- The gas limits of a transaction, added without a bound. -/
def CosmosTx.totalGas (tx : CosmosTx) : ℕ := (tx.msgs.map Msg.gasLimit).sum

/-- The same for messages that have been read. -/
def totalGas (msgs : List MsgEthereumTx) : ℕ := (msgs.map fun msg => msg.data.getGas.toNat).sum

/-- A sum of `uint64` numbers is the sum modulo 2⁶⁴. -/
theorem wrappedSum_toNat (l : List UInt64) (acc : UInt64) :
    (l.foldl (· + ·) acc).toNat = (acc.toNat + (l.map UInt64.toNat).sum) % 2 ^ 64 := by
  induction l generalizing acc with
  | nil => exact (Nat.mod_eq_of_lt acc.toNat_lt).symm
  | cons x l ih =>
      rw [List.foldl_cons, ih, List.map_cons, List.sum_cons, UInt64.toNat_add]
      omega

/-- A message that is not an Ethereum one ends the loop. -/
theorem asEthereumTx_gasLimit {α : Type} {msg : Msg} {body : MsgEthereumTx → Except AnteError α} {a : α}
    (h : (msg.asEthereumTx >>= body) = .ok a) :
    ∃ eth, body eth = .ok a ∧ msg.gasLimit = eth.data.getGas.toNat := by
  obtain ⟨eth, hcast, hbody⟩ := except_bind_ok.mp h
  cases msg with
  | ethereumTx eth' =>
      obtain rfl := Except.ok.inj hcast
      exact ⟨eth', hbody, rfl⟩
  | exec grantee msgs => exact absurd hcast (by simp [Msg.asEthereumTx])
  | other typeURL signers => exact absurd hcast (by simp [Msg.asEthereumTx])

/-- The first number that the check of a message returns is its gas limit. -/
theorem validateMsg_gas {ctx : Context} {eth : MsgEthereumTx} {gas : UInt64} {fee : ℕ}
    (h : validateMsg ctx eth = .ok (gas, fee)) : gas = eth.data.getGas := by
  unfold validateMsg at h
  split_ifs at h
  obtain ⟨feeAmt, -, h⟩ := except_bind_ok.mp h
  obtain ⟨amount, -, h⟩ := except_bind_ok.mp h
  obtain ⟨fee', -, h⟩ := except_bind_ok.mp h
  exact (Prod.mk.inj (Except.ok.inj h)).1.symm

/-- **What the decorator compares**: the declared gas limit is the sum modulo 2⁶⁴. -/
theorem ethValidateBasic_gasLimit {sdk : Sdk} {ctx : Context} {tx : CosmosTx}
    (h : ethValidateBasic sdk ctx tx = .ok ()) (hcheck : ctx.isReCheckTx = false) :
    tx.gasLimit.toNat = tx.totalGas % 2 ^ 64 := by
  unfold ethValidateBasic at h
  rw [hcheck, if_neg Bool.false_ne_true] at h
  -- The checks before the loop.
  split at h
  · exact absurd h (by simp)
  split at h
  · exact absurd h (by simp)
  split at h
  · exact absurd h (by simp)
  obtain ⟨pairs, hpairs, h⟩ := except_bind_ok.mp h
  dsimp only at h
  split_ifs at h with _ _ _ hgas
  have hmap : pairs.map (fun pair => pair.1.toNat) = tx.msgs.map Msg.gasLimit := by
    refine except_mapM_map ?_ hpairs
    rintro msg - ⟨gas, fee⟩ hmsg
    obtain ⟨eth, hbody, hlimit⟩ := asEthereumTx_gasLimit hmsg
    rw [hlimit, validateMsg_gas hbody]
  rw [not_not.mp hgas, wrappedSum_toNat, List.map_map, UInt64.toNat_zero, Nat.zero_add]
  exact congrArg (fun l => l.sum % 2 ^ 64) hmap

section decorators

variable [Keccak] {app : App} {ctx : Context}

/-- Recovering the senders keeps the gas limits. -/
theorem ethSigVerification_totalGas {tx : CosmosTx} {eths : List MsgEthereumTx}
    (h : ethSigVerification app ctx tx = .ok eths) : totalGas eths = tx.totalGas := by
  have hmap : eths.map (fun eth => eth.data.getGas.toNat) = tx.msgs.map Msg.gasLimit := by
    refine except_mapM_map ?_ h
    intro msg _ eth hmsg
    obtain ⟨eth₀, hbody, hlimit⟩ := asEthereumTx_gasLimit hmsg
    obtain ⟨eth₁, heq, hdata, -⟩ := verifySignature_ok hbody
    obtain rfl := Msg.ethereumTx.inj heq
    rw [hlimit, hdata]
  exact congrArg List.sum hmap

/-- **The limit of the gas meter** in DeliverTx is the sum modulo 2⁶⁴ as well. -/
theorem ethGasConsume_gasWanted {eths : List MsgEthereumTx} {st st' : Store} {gasWanted : UInt64}
    {fees : List ℕ} (hdeliver : ctx.isCheckTx = false)
    (h : ethGasConsume app ctx eths st = .ok (gasWanted, fees) st') :
    gasWanted.toNat = totalGas eths % 2 ^ 64 := by
  obtain ⟨st₁, -, -, rfl, -⟩ := ethGasConsume_iff.mp h
  have hwanted : ∀ eth, gasWantedOf app ctx eth = eth.data.getGas := by
    intro eth
    simp [gasWantedOf, hdeliver]
  rw [wrappedSum_toNat, List.map_map, UInt64.toNat_zero, Nat.zero_add, totalGas]
  refine congrArg (fun l => List.sum l % 2 ^ 64) (List.map_congr_left ?_)
  intro eth _
  rw [Function.comp_apply, hwanted]

/-- **Declared gas is the sum of the gas limits, and so is the limit of the gas meter in DeliverTx**, if and
only if the sum is below 2⁶⁴. On a recheck the first decorator looks at nothing, and what it found before
has to hold still. -/
theorem declaredGas_iff {sdk : Sdk} {tx : CosmosTx} (haccept : ethValidateBasic sdk ctx tx = .ok ()) :
    (tx.gasLimit.toNat = tx.totalGas ∧
      ∀ (app : App) (ctx' : Context) (eths : List MsgEthereumTx) (st st' : Store) (gasWanted : UInt64)
        (fees : List ℕ), ctx'.isCheckTx = false → ethSigVerification app ctx' tx = .ok eths →
        ethGasConsume app ctx' eths st = .ok (gasWanted, fees) st' → gasWanted.toNat = tx.totalGas) ↔
      tx.totalGas < 2 ^ 64 ∧ (ctx.isReCheckTx = true → tx.gasLimit.toNat = tx.totalGas % 2 ^ 64) := by
  have hbits := tx.gasLimit.toNat_lt
  constructor
  · rintro ⟨hdeclared, -⟩
    have hlt : tx.totalGas < 2 ^ 64 := by omega
    exact ⟨hlt, fun _ => by rw [Nat.mod_eq_of_lt hlt, hdeclared]⟩
  · rintro ⟨hlt, hrecheck⟩
    constructor
    · rw [← Nat.mod_eq_of_lt hlt]
      cases hmode : ctx.isReCheckTx with
      | true => exact hrecheck hmode
      | false => exact ethValidateBasic_gasLimit haccept hmode
    · intro app ctx' eths st st' gasWanted fees hdeliver hsigned hconsume
      rw [ethGasConsume_gasWanted hdeliver hconsume, ethSigVerification_totalGas hsigned,
        Nat.mod_eq_of_lt hlt]

end decorators

/-! ## Concrete transactions -/

/-- A transfer that offers nothing for its gas. -/
def freeTransfer (nonce gas : UInt64) : TxData :=
  .legacy ⟨nonce, some 0, gas, some (.ofNat 20 2), some 5, [], [], [], []⟩

/-- The Cosmos transaction around them. -/
def freeCosmosTx (txs : List TxData) (gasLimit : UInt64) : CosmosTx :=
  { ethCosmosTx txs 0 gasLimit with feeAmount := [] }

/-- A block in which gas may be free. -/
def freeBlock : Context := { sampleContext with feeMarketBaseFee := some 0 }

/-- Two messages with 2⁶³ and 2⁶³ + 42000 gas are accepted with 42000 declared, and this is the limit of the gas
meter. -/
theorem declaredGas_wraps :
    letI := sampleKeccak
    let a : Address := .ofNat 20 1
    let app := sampleApp a transferCall transferCall
    let tx := freeCosmosTx [freeTransfer 3 (.ofNat (2 ^ 63)),
      freeTransfer 4 (.ofNat (2 ^ 63 + 42000))] 42000
    ethValidateBasic sampleSdk freeBlock tx = .ok () ∧ tx.totalGas = 2 ^ 64 + 42000 ∧
      tx.gasLimit.toNat ≠ tx.totalGas ∧
      ∃ out st', newEthAnteHandler app freeBlock sampleSdk tx false (beforeBatch a) = .ok out st' ∧
        out.gasWanted = 42000 := by
  let _ := sampleKeccak
  intro a app tx
  obtain ⟨out, st', hrun, hwanted⟩ := exists_of_endsWith (by decide +kernel :
    endsWith (newEthAnteHandler app freeBlock sampleSdk tx false (beforeBatch a))
      (fun out _ => decide (out.gasWanted = 42000)) = true)
  exact ⟨except_ok_of_isOk (by decide +kernel), by decide +kernel, by decide +kernel, out, st', hrun,
    of_decide_eq_true hwanted⟩

/-- Two messages with 21000 and 50000 gas. -/
theorem declaredGas_batch :
    let tx := freeCosmosTx [freeTransfer 3 21000, freeTransfer 4 50000] 71000
    ethValidateBasic sampleSdk freeBlock tx = .ok () ∧ tx.gasLimit.toNat = tx.totalGas := by
  let _ := sampleKeccak
  intro tx
  have haccept : ethValidateBasic sampleSdk freeBlock tx = .ok () := except_ok_of_isOk (by decide +kernel)
  have hsum : tx.totalGas < 2 ^ 64 := by decide +kernel
  exact ⟨haccept, ((declaredGas_iff haccept).mpr ⟨hsum, by simp [freeBlock, sampleContext]⟩).1⟩

end Smartdoge.Ante
