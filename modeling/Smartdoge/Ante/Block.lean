import Smartdoge.Ante.Announce
import Smartdoge.Evm.Block

/-!
# Delivering a block

The Cosmos transactions of a block, each a list of Ethereum messages, one after the other. A transaction
may be rejected before or by the ante handler; it may be aborted while its messages run, for an error of
a message or for want of gas, and then keeps what the ante handler wrote; or all its messages are
executed.

* `deliverBlock_run`: what a block keeps is a run of `ApplyTransaction`.
* **`block_numbering`**: without hooks, the logs and the transactions of a block are numbered without a
  gap, and the index the ante handler announced for a message is the one it gets.
-/

set_option linter.unusedSectionVars false

namespace Smartdoge.Ante

open Smartdoge.Lib
open Smartdoge.Lib.Writes
open Smartdoge.Statedb
open Smartdoge.Evm

/-- Why the SDK aborted a transaction after the ante handler. -/
inductive AbortReason where
  /-- "out of gas in location: block gas meter". -/
  | blockGas
  | other
deriving DecidableEq

/-- What the SDK does with a transaction, where that is not up to the transaction. -/
inductive Fate where
  /-- No gas is left in the block, or the transaction cannot be decoded. -/
  | beforeAnte
  /-- It is aborted after some of its messages. -/
  | aborts (after : ℕ) (reason : AbortReason)
  | completes
deriving DecidableEq

/-- A Cosmos transaction of a block. -/
structure BlockTx where
  ctx : Context
  tx : CosmosTx
  /-- The hash of the bytes of the transaction. -/
  txHash : Option String
  fate : Fate

/-- How a Cosmos transaction ended. -/
inductive TxEnd where
  | rejected
  | aborted (reason : AbortReason) (out : EthAnte)
  | executed (out : EthAnte) (results : List (Response × List Event))

/-- The responses of the messages that the block keeps. -/
def TxEnd.responses : TxEnd → List Response
  | .executed _ results => results.map Prod.fst
  | .rejected | .aborted _ _ => []

/-- The responses of all messages that the block keeps, in the order of execution. -/
def blockResponses (ends : List TxEnd) : List Response := ends.flatMap TxEnd.responses

section block

variable [Keccak] (app : App) (json : LogJson) (sdk : Sdk)

/-- The text of `From`. -/
def MsgEthereumTx.from (eth : MsgEthereumTx) : String := (eth.sender.map addressHex).getD ""

/-- The messages of a transaction, with the events they emit. -/
def runEthMsgs (b : BlockTx) (eths : List MsgEthereumTx) : TxM (List (Response × List Event)) :=
  eths.mapM fun eth => app.ethereumTx json b.ctx eth.data eth.from b.txHash

/-- The messages run on a copy of the stores, which is dropped if the transaction is aborted.
Source: cosmos-sdk `baseapp.runTx` -/
def deliverTx (b : BlockTx) (st : Store) : TxEnd × Store :=
  match b.fate with
  | .beforeAnte => (.rejected, st)
  | fate =>
    match newEthAnteHandler app b.ctx sdk b.tx false st with
    | .error _ _ => (.rejected, st)
    | .ok out st₁ =>
      match fate with
      | .aborts after reason =>
        match runEthMsgs app json b (out.msgs.take after) st₁ with
        | .ok _ _ => (.aborted reason out, st₁)
        | .error _ _ => (.aborted .other out, st₁)
      | _ =>
        match runEthMsgs app json b out.msgs st₁ with
        | .ok results st₂ => (.executed out results, st₂)
        | .error _ _ => (.aborted .other out, st₁)

/-- The transactions of a block. -/
def deliverBlock : List BlockTx → Store → List TxEnd × Store
  | [], st => ([], st)
  | b :: bs, st =>
    let first := deliverTx app json sdk b st
    let rest := deliverBlock bs first.2
    (first.1 :: rest.1, rest.2)

/-! ## The ante handler leaves the counters alone -/

variable {app json sdk} {ctx : Context}

/-- Fees are paid from the persistent stores. -/
theorem deductAll_transient {eths : List MsgEthereumTx} {st st' : Store} {fees : List ℕ}
    (h : deductAll app ctx eths st = .ok fees st') : st'.transient = st.transient := by
  apply mapM_keeps (g := Store.transient) ?_ h
  intro eth _ s fee s' hone
  obtain ⟨signer, -, -, -, -, -, hmoves⟩ := App.deductTxCosts_ok (adaptExcept_ok.mp hone)
  exact hmoves.transient

/-- Making accounts leaves the transient store alone. -/
theorem ethAccountVerification_transient {eths : List MsgEthereumTx} {st st' : Store} {u : PUnit}
    (h : ethAccountVerification ctx eths st = .ok u st') : st'.transient = st.transient := by
  unfold ethAccountVerification at h
  split_ifs at h
  · obtain ⟨us, st₁, h₁, h₂⟩ := bind_ok.mp h
    obtain ⟨-, rfl⟩ := pure_ok.mp h₂
    apply mapM_keeps (g := Store.transient) ?_ h₁
    intro eth _ s v s' hone
    obtain ⟨a, -, ⟨rfl, -⟩ | ⟨-, rfl⟩⟩ := verifyAccount_ok hone
    · rfl
    · rfl
  · obtain ⟨-, rfl⟩ := pure_ok.mp h
    rfl

/-- So does advancing the sequences. -/
theorem ethIncrementSenderSequence_transient {eths : List MsgEthereumTx} {st st' : Store} {u : PUnit}
    (h : ethIncrementSenderSequence app eths st = .ok u st') : st'.transient = st.transient := by
  apply forM_keeps (g := Store.transient) ?_ h
  intro eth _ s s' hone
  obtain ⟨sender, acct, acct', -, -, -, -, rfl⟩ := incrementSenderSequence_ok hone
  rfl

/-- Of the transient store, **the ante handler** writes what `EthSetupContextDecorator` does. -/
theorem newEthAnteHandler_transient {tx : CosmosTx} {simulate : Bool} {st st' : Store}
    {out : EthAnte} (h : newEthAnteHandler app ctx sdk tx simulate st = .ok out st') :
    st'.transient = (ethSetUpContext st).transient := by
  obtain ⟨st₁, st₂, -, hverify, hgas, hincrement, -⟩ := newEthAnteHandler_steps h
  obtain ⟨st₃, hdeduct, -, -, rfl⟩ := ethGasConsume_iff.mp hgas
  have hsequences := ethIncrementSenderSequence_transient hincrement
  calc st'.transient = st₃.transient := hsequences
    _ = st₁.transient := deductAll_transient hdeduct
    _ = (ethSetUpContext st).transient := ethAccountVerification_transient hverify

/-- It writes none of the counters of the block. -/
theorem newEthAnteHandler_sameCounters {tx : CosmosTx} {simulate : Bool} {st st' : Store}
    {out : EthAnte} (h : newEthAnteHandler app ctx sdk tx simulate st = .ok out st') :
    SameCounters st st' := by
  constructor <;> rw [newEthAnteHandler_transient h] <;> rfl

/-! ## The messages of a transaction -/

/-- **The messages of a transaction** extend the run of the block, and each emits the next index. -/
theorem runEthMsgs_ok {b : BlockTx} {eths : List MsgEthereumTx} {st₀ st st' : Store}
    {ress : List Response} {results : List (Response × List Event)}
    (h : runEthMsgs app json b eths st = .ok results st') (hrun : BlockRun app anyCall st₀ ress st) :
    BlockRun app anyCall st₀ (ress ++ results.map Prod.fst) st' ∧
      List.Forall₂ (fun (p : MsgEthereumTx × ℕ) r => r.2 =
        ethereumTxEvents json p.1.data p.1.from p.2 b.txHash r.1) (eths.zipIdx st.transient.txIndex) results ∧
      st'.transient.txIndex = st.transient.txIndex + results.length := by
  induction eths generalizing st ress results with
  | nil =>
      obtain ⟨rfl, rfl⟩ := mapM_nil_ok.mp h
      rw [List.map_nil, List.append_nil]
      exact ⟨hrun, List.Forall₂.nil, rfl⟩
  | cons eth eths ih =>
      obtain ⟨⟨response, events⟩, st₁, results', hone, hrest, rfl⟩ := mapM_cons_ok.mp h
      obtain ⟨happly, rfl⟩ := App.ethereumTx_ok.mp hone
      have hindex : st₁.transient.txIndex = st.transient.txIndex + 1 := by
        obtain ⟨_, _, _, _, _, -, -, -, -, hpublished⟩ := App.applyTransaction_ok happly
        exact hpublished.txIndex
      obtain ⟨hrun', hevents, hnext⟩ := ih hrest (hrun.call trivial happly)
      rw [hindex] at hevents hnext
      refine ⟨?_, ?_, ?_⟩
      · rwa [List.append_assoc, List.singleton_append] at hrun'
      · rw [List.zipIdx_cons]
        exact List.Forall₂.cons rfl hevents
      · rw [hnext, List.length_cons]
        omega

/-! ## A transaction -/

/-- How a transaction can end, with what it leaves of the block. -/
inductive Delivered (app : App) (json : LogJson) (sdk : Sdk) (b : BlockTx) (st : Store) :
    TxEnd → Store → Prop where
  | rejected : Delivered app json sdk b st .rejected st
  | aborted {reason : AbortReason} {out : EthAnte} {st₁ : Store}
      (hante : newEthAnteHandler app b.ctx sdk b.tx false st = .ok out st₁) :
      Delivered app json sdk b st (.aborted reason out) st₁
  | executed {out : EthAnte} {results : List (Response × List Event)} {st₁ st₂ : Store}
      (hante : newEthAnteHandler app b.ctx sdk b.tx false st = .ok out st₁)
      (hmsgs : runEthMsgs app json b out.msgs st₁ = .ok results st₂) :
      Delivered app json sdk b st (.executed out results) st₂

variable (app json sdk) in
/-- **Delivering a transaction** is one of the cases of `Delivered`. -/
theorem deliverTx_delivered (b : BlockTx) (st : Store) :
    Delivered app json sdk b st (deliverTx app json sdk b st).1 (deliverTx app json sdk b st).2 := by
  unfold deliverTx
  cases b.fate with
  | beforeAnte => exact .rejected
  | aborts after reason =>
      cases hante : newEthAnteHandler app b.ctx sdk b.tx false st with
      | error err st₁ => exact .rejected
      | ok out st₁ =>
          simp only
          cases runEthMsgs app json b (out.msgs.take after) st₁ with
          | ok results st₂ => exact .aborted hante
          | error err st₂ => exact .aborted hante
  | completes =>
      cases hante : newEthAnteHandler app b.ctx sdk b.tx false st with
      | error err st₁ => exact .rejected
      | ok out st₁ =>
          simp only
          cases hmsgs : runEthMsgs app json b out.msgs st₁ with
          | ok results st₂ => exact .executed hante hmsgs
          | error err st₂ => exact .aborted hante

/-- **What the block keeps of a transaction** extends the run of the block. -/
theorem Delivered.blockRun {b : BlockTx} {st₀ st st' : Store} {e : TxEnd} {ress : List Response}
    (h : Delivered app json sdk b st e st') (hrun : BlockRun app anyCall st₀ ress st) :
    BlockRun app anyCall st₀ (ress ++ e.responses) st' := by
  cases h with
  | rejected =>
      rw [TxEnd.responses, List.append_nil]
      exact hrun
  | aborted hante =>
      rw [TxEnd.responses, List.append_nil]
      exact hrun.other (newEthAnteHandler_sameCounters hante)
  | executed hante hmsgs => exact (runEthMsgs_ok hmsgs (hrun.other (newEthAnteHandler_sameCounters hante))).1

/-- The index announced for a message is the index its execution emits. -/
def TxEnd.AnnouncedAsEmitted : TxEnd → Prop
  | .executed out results => List.Forall₂ (fun (announced : Event) (r : Response × List Event) =>
      ∃ index, announced.get? "txIndex" = some index ∧ ∃ event ∈ r.2, event.type = "ethereum_tx" ∧
        event.get? "txIndex" = some index) out.events results
  | .rejected | .aborted _ _ => True

/-- The announcements, with the index at which the chain ended. -/
theorem ethEmitEvent_eq (eths : List MsgEthereumTx) (st : Store) :
    ethEmitEvent eths st =
      (eths.zipIdx st.transient.txIndex).map fun (p : MsgEthereumTx × ℕ) => (p.1.hash, p.2) := by
  unfold ethEmitEvent
  generalize st.transient.txIndex = start
  apply List.ext_getElem?
  intro i
  simp only [List.getElem?_map, List.getElem?_zipIdx, Option.map_map]
  congr 1
  funext eth
  simp

/-- A transaction that was executed was announced with the indices that its events have. -/
theorem Delivered.announcedAsEmitted {b : BlockTx} {st st' : Store} {e : TxEnd}
    (h : Delivered app json sdk b st e st') : e.AnnouncedAsEmitted := by
  cases h with
  | rejected => trivial
  | aborted _ => trivial
  | @executed out results st₁ st₂ hante hmsgs =>
      obtain ⟨-, hannounced⟩ := newEthAnteHandler_announces hante
      obtain ⟨-, hevents, -⟩ := runEthMsgs_ok hmsgs (BlockRun.start st₁)
      simp only [TxEnd.AnnouncedAsEmitted, EthAnte.events]
      rw [hannounced, ethEmitEvent_eq, List.map_map, List.forall₂_map_left_iff]
      refine hevents.imp ?_
      intro p r hr
      obtain ⟨event, hmem, htype, -, hget⟩ :=
        ethereumTxEvents_get json p.1.data p.1.from p.2 b.txHash r.1
      exact ⟨formatUint p.2, rfl, event, by rw [hr]; exact hmem, htype, hget⟩

/-! ## A block -/

/-- **What a block keeps is a run of `ApplyTransaction`.** -/
theorem deliverBlock_run (bs : List BlockTx) {st₀ st : Store} {ress : List Response}
    (hrun : BlockRun app anyCall st₀ ress st) :
    BlockRun app anyCall st₀ (ress ++ blockResponses (deliverBlock app json sdk bs st).1)
      (deliverBlock app json sdk bs st).2 := by
  induction bs generalizing st ress with
  | nil =>
      rw [deliverBlock, blockResponses, List.flatMap_nil, List.append_nil]
      exact hrun
  | cons b bs ih =>
      have hfirst := (deliverTx_delivered app json sdk b st).blockRun hrun
      have hrest := ih hfirst
      simp only [deliverBlock, blockResponses, List.flatMap_cons, List.append_assoc] at hrest ⊢
      exact hrest

/-- The same for all transactions of a block. -/
theorem deliverBlock_announcedAsEmitted (bs : List BlockTx) (st : Store) :
    ∀ e ∈ (deliverBlock app json sdk bs st).1, e.AnnouncedAsEmitted := by
  induction bs generalizing st with
  | nil => simp [deliverBlock]
  | cons b bs ih =>
      intro e he
      rcases List.mem_cons.mp he with rfl | he
      · exact (deliverTx_delivered app json sdk b st).announcedAsEmitted
      · exact ih _ e he

/-- **Indexes within a block have no gap.** Without hooks, for every block, whatever is rejected or
aborted in it: the logs of the messages it keeps are numbered from 0, each with the number of messages
kept before its own, and the announced indexes are the emitted ones. -/
theorem block_numbering (hhooks : app.hooks = none) (bs : List BlockTx) {st : Store}
    (hlogSize : st.transient.logSize = 0) (htxIndex : st.transient.txIndex = 0) :
    let ends := (deliverBlock app json sdk bs st).1
    let ress := blockResponses ends
    (blockLogs ress).map Log.index = List.range (blockLogs ress).length ∧
      (∀ (i : ℕ) (res : Response), ress[i]? = some res → ∀ log ∈ res.logs, log.txIndex = i) ∧
      ∀ e ∈ ends, e.AnnouncedAsEmitted := by
  intro ends ress
  have hrun : BlockRun app anyCall st ress (deliverBlock app json sdk bs st).2 :=
    deliverBlock_run bs (BlockRun.start st)
  obtain ⟨hindex, htx, -, -⟩ := blockRun_stamped hhooks hrun
  rw [hlogSize, ← List.range_eq_range'] at hindex
  refine ⟨hindex, ?_, deliverBlock_announcedAsEmitted bs st⟩
  intro i res hres log hlog
  rw [htx i res hres log hlog, htxIndex, Nat.zero_add]

end block

/-! ## A concrete block -/

/-- One message in a transaction with the right fee. -/
def sampleBlockTx (data : TxData) (fate : Fate) : BlockTx where
  ctx := sampleContext
  tx := ethCosmosTx [data] 900000 100000
  txHash := none
  fate := fate

/-- A transaction that is aborted after its message, and two that are executed. Every message logs
once. -/
theorem block_numbering_aborted :
    letI := sampleKeccak
    let a : Address := .ofNat 20 1
    let app := loggingApp a loggingCall none
    let st : Store :=
      { beforeBatch a with
        balances := (GoMap.empty.set a 4000000).set (sampleEnv.moduleAddress .feeCollector) 1800000 }
    let bs : List BlockTx :=
      [sampleBlockTx (legacyTx 3 (some (.ofNat 20 2))) (.aborts 1 .other),
        sampleBlockTx (legacyTx 4 (some (.ofNat 20 2))) .completes,
        sampleBlockTx (legacyTx 5 (some (.ofNat 20 2))) .completes]
    let ends := (deliverBlock app (sampleJson []) sampleSdk bs st).1
    let ress := blockResponses ends
    ress.length = 2 ∧ (blockLogs ress).map Log.index = [0, 1] ∧ ends.length = 3 ∧
      (∀ (i : ℕ) (res : Response), ress[i]? = some res → ∀ log ∈ res.logs, log.txIndex = i) ∧
      ∀ e ∈ ends, e.AnnouncedAsEmitted := by
  let _ := sampleKeccak
  intro a app st bs ends ress
  have hrun : ress.length = 2 ∧ (blockLogs ress).length = 2 ∧ ends.length = 3 := by decide +kernel
  have hnumbering : (blockLogs ress).map Log.index = List.range (blockLogs ress).length ∧
      (∀ (i : ℕ) (res : Response), ress[i]? = some res → ∀ log ∈ res.logs, log.txIndex = i) ∧
      ∀ e ∈ ends, e.AnnouncedAsEmitted :=
    block_numbering (rfl : app.hooks = none) bs rfl rfl
  refine ⟨hrun.1, ?_, hrun.2.2, hnumbering.2⟩
  exact hnumbering.1.trans (by rw [hrun.2.1]; rfl)

end Smartdoge.Ante
