import Smartdoge.Ante.Eth
import Smartdoge.Evm.Events

/-!
# Announced transactions

At the end of its chain the ante handler announces every message with an event: the hash that is in the
`Hash` field of the message, and the index it is going to have in the block. `EthereumTx` emits an event
again, with the hash it computed from the data. `Hash` is not signed, and nothing in the chain compares it
with the data.

* **`hashes_agree_iff`**: the hash of every event is that of the transaction, if and only if the `Hash`
  fields of the messages are.
* `forged_hash`: an accepted message that is announced with the hash of another transaction.
-/

set_option linter.unusedSectionVars false

namespace Smartdoge.Ante

open Smartdoge.Lib
open Smartdoge.Lib.Writes
open Smartdoge.Statedb
open Smartdoge.Evm

/-- Source: `EthEmitEventDecorator`, the event of one message -/
def announceEvent (announced : String × ℕ) : Event :=
  ⟨"ethereum_tx", [⟨"ethereumTxHash", announced.1⟩, ⟨"txIndex", formatUint announced.2⟩]⟩

/-- Source: `EthEmitEventDecorator`, all events -/
def EthAnte.events (out : EthAnte) : List Event := out.hashes.map announceEvent

section announce

variable [Keccak] {app : App} {ctx : Context}

/-- A message after the ante handler still has its data and its `Hash`. -/
def SameContent (msg : Msg) (eth : MsgEthereumTx) : Prop :=
  ∃ eth₀ : MsgEthereumTx, msg = .ethereumTx eth₀ ∧ eth.data = eth₀.data ∧ eth.hash = eth₀.hash

/-- The signature check changes nothing but the senders. -/
theorem ethSigVerification_sameContent {tx : CosmosTx} {eths : List MsgEthereumTx}
    (h : ethSigVerification app ctx tx = .ok eths) : List.Forall₂ SameContent tx.msgs eths := by
  refine except_mapM_forall₂ ?_ h
  intro msg _ eth hmsg
  obtain ⟨eth₀, hcast, hverify⟩ := except_bind_ok.mp hmsg
  cases msg with
  | exec grantee inner => exact absurd hcast (by simp [Msg.asEthereumTx])
  | other typeURL signers => exact absurd hcast (by simp [Msg.asEthereumTx])
  | ethereumTx m =>
      obtain rfl := Except.ok.inj hcast
      unfold verifySignature at hverify
      split_ifs at hverify
      split at hverify
      · exact absurd hverify (by simp)
      · obtain rfl := Except.ok.inj hverify
        exact ⟨m, rfl, rfl, rfl⟩

/-- **What the chain announces.** -/
theorem newEthAnteHandler_announces {sdk : Sdk} {tx : CosmosTx} {simulate : Bool} {st st' : Store}
    {out : EthAnte} (h : newEthAnteHandler app ctx sdk tx simulate st = .ok out st') :
    List.Forall₂ SameContent tx.msgs out.msgs ∧ out.hashes = ethEmitEvent out.msgs st' := by
  obtain ⟨st₁, st₂, hsigned, -, -, -, hannounced⟩ := newEthAnteHandler_steps h
  exact ⟨ethSigVerification_sameContent hsigned, hannounced⟩

/-- The announcement of one message. -/
theorem ethEmitEvent_get {eths : List MsgEthereumTx} {st : Store} {i : ℕ} {eth : MsgEthereumTx}
    (h : eths[i]? = some eth) :
    (ethEmitEvent eths st)[i]? = some (eth.hash, st.transient.txIndex + i) := by
  simp [ethEmitEvent, h]

/-- The events of the messages report their hashes: those of the ante handler, and those of their
execution. -/
def HashesAgree (app : App) (json : LogJson) (ctx : Context) (out : EthAnte) : Prop :=
  ∀ (i : ℕ) (eth : MsgEthereumTx), out.msgs[i]? = some eth →
    (∃ event : Event, out.events[i]? = some event ∧
      event.get? "ethereumTxHash" = some (hashHex (app.geth.txHash eth.data))) ∧
    ∀ sender txHash st response events st',
      app.ethereumTx json ctx eth.data sender txHash st = .ok (response, events) st' →
        ∃ event ∈ events, event.type = "ethereum_tx" ∧
          event.get? "ethereumTxHash" = some (hashHex (app.geth.txHash eth.data))

/-- Of an accepted transaction, **the reported hashes are the actual ones if and only if** the `Hash`
fields of its messages are. -/
theorem hashes_agree_iff (json : LogJson) {sdk : Sdk} {tx : CosmosTx} {simulate : Bool} {st st' : Store}
    {out : EthAnte} (h : newEthAnteHandler app ctx sdk tx simulate st = .ok out st') :
    HashesAgree app json ctx out ↔
      ∀ eth, Msg.ethereumTx eth ∈ tx.msgs → eth.hash = hashHex (app.geth.txHash eth.data) := by
  obtain ⟨hcontent, hannounced⟩ := newEthAnteHandler_announces h
  have hevent : ∀ (i : ℕ) (eth : MsgEthereumTx), out.msgs[i]? = some eth →
      out.events[i]? = some (announceEvent (eth.hash, st'.transient.txIndex + i)) := by
    intro i eth heth
    rw [EthAnte.events, hannounced, List.getElem?_map, ethEmitEvent_get heth]
    rfl
  constructor
  · intro hagree eth₀ hmem
    obtain ⟨i, hi, hget⟩ := List.getElem_of_mem hmem
    obtain ⟨heth, hsame⟩ : ∃ heth : i < out.msgs.length, SameContent tx.msgs[i] out.msgs[i] :=
      ⟨hcontent.length_eq ▸ hi, List.Forall₂.get hcontent hi _⟩
    obtain ⟨eth₁, heq, hdata, hhash⟩ := hsame
    rw [hget] at heq
    obtain rfl := Msg.ethereumTx.inj heq
    have hget' := List.getElem?_eq_getElem heth
    obtain ⟨⟨event, hevent', hreported⟩, -⟩ := hagree i _ hget'
    obtain rfl := Option.some.inj ((hevent i _ hget').symm.trans hevent')
    rw [← hhash, ← hdata]
    exact Option.some.inj hreported
  · intro hhash i eth heth
    refine ⟨⟨_, hevent i eth heth, ?_⟩, ?_⟩
    · obtain ⟨hi, rfl⟩ := List.getElem?_eq_some_iff.mp heth
      obtain ⟨eth₀, heq, hdata, hsame⟩ := List.Forall₂.get hcontent (hcontent.length_eq ▸ hi) hi
      have hfield := hhash eth₀ (by rw [← heq]; exact List.getElem_mem _)
      rw [← hdata, ← hsame] at hfield
      exact congrArg some hfield
    · intro sender txHash st₁ response events st₂ hrun
      obtain ⟨happly, rfl⟩ := App.ethereumTx_ok.mp hrun
      obtain ⟨event, hmem, htype, hget, -⟩ :=
        ethereumTxEvents_get json eth.data sender st₁.transient.txIndex txHash response
      exact ⟨event, hmem, htype, by rw [hget, App.applyTransaction_hash happly]⟩

end announce

/-! ## Concrete runs -/

/-- An application in which the hash of a transaction depends on its nonce. -/
def hashingApp (a : Address) : App :=
  { sampleApp a transferCall transferCall with
    geth := { sampleGeth a transferCall transferCall with
      txHash := fun tx => .ofNat 32 (tx.getNonce.toNat + 1000) } }

/-- One Ethereum message with a given `Hash`, in a transaction with the right fee. -/
def claimingTx (data : TxData) (hash : String) : CosmosTx :=
  { ethCosmosTx [data] 900000 100000 with msgs := [.ethereumTx ⟨data, none, hash⟩] }

/-- An account that can pay for its transaction. -/
def payingStore [Keccak] (a : Address) : Store :=
  let collector := sampleEnv.moduleAddress .feeCollector
  { beforeBatch a with balances := (GoMap.empty.set a 1000000).set collector 1800000 }

/-- A message that carries its own hash. -/
theorem hashes_agree_honest :
    letI := sampleKeccak
    let a : Address := .ofNat 20 1
    let data := legacyTx 3 (some (.ofNat 20 2))
    let tx := claimingTx data (hashHex (.ofNat 32 1003))
    ∃ out st', newEthAnteHandler (hashingApp a) sampleContext sampleSdk tx false (payingStore a) = .ok out st' ∧
      out.msgs.length = 1 ∧ HashesAgree (hashingApp a) (sampleJson []) sampleContext out := by
  let _ := sampleKeccak
  intro a data tx
  obtain ⟨out, st', hrun, hlength⟩ := exists_of_endsWith (by decide +kernel :
    endsWith (newEthAnteHandler (hashingApp a) sampleContext sampleSdk tx false (payingStore a))
      (fun out _ => decide (out.msgs.length = 1)) = true)
  refine ⟨out, st', hrun, of_decide_eq_true hlength, (hashes_agree_iff (sampleJson []) hrun).mpr ?_⟩
  intro eth heth
  obtain rfl := Msg.ethereumTx.inj (List.mem_singleton.mp heth)
  rfl

/-- A message of `a` that carries the hash of another transaction is accepted, and announced with it. -/
theorem forged_hash :
    letI := sampleKeccak
    let a : Address := .ofNat 20 1
    let data := legacyTx 3 (some (.ofNat 20 2))
    let other := legacyTx 9 (some (.ofNat 20 2))
    let app := hashingApp a
    let tx := claimingTx data (hashHex (app.geth.txHash other))
    ∃ out st', newEthAnteHandler app sampleContext sampleSdk tx false (payingStore a) = .ok out st' ∧
      out.events = [announceEvent (hashHex (app.geth.txHash other), 0)] ∧
      hashHex (app.geth.txHash other) ≠ hashHex (app.geth.txHash data) ∧
      ¬HashesAgree app (sampleJson []) sampleContext out := by
  let _ := sampleKeccak
  intro a data other app tx
  obtain ⟨out, st', hrun, hout⟩ := exists_of_endsWith (by decide +kernel :
    endsWith (newEthAnteHandler app sampleContext sampleSdk tx false (payingStore a))
      (fun out _ => decide (out.events = [announceEvent (hashHex (app.geth.txHash other), 0)] ∧
        ∃ eth ∈ out.msgs.head?, eth.data = data)) = true)
  obtain ⟨hevents, eth, heth, hdata⟩ := of_decide_eq_true hout
  have hne : hashHex (app.geth.txHash other) ≠ hashHex (app.geth.txHash data) :=
    fun h => absurd (hashHex_injective h) (by decide +kernel)
  refine ⟨out, st', hrun, hevents, hne, ?_⟩
  intro hagree
  obtain ⟨⟨event, hevent, hget⟩, -⟩ := hagree 0 eth (by rw [← List.head?_eq_getElem?]; exact heth)
  rw [hevents] at hevent
  obtain rfl := Option.some.inj hevent
  rw [hdata] at hget
  exact hne (Option.some.inj hget)

end Smartdoge.Ante
