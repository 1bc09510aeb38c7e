import Smartdoge.Evm.FailedTx
import Smartdoge.Lib.Bloom
import Smartdoge.Statedb.Logs

/-!
# Published logs

The logs of a transaction reach the block on three ways: in the response, whose logs are emitted as
events; in the bloom filter of the block; and in the number of logs so far, from which later logs are
numbered. The first is taken from the `StateDB`, the other two from the receipt, which hooks may have
changed.

* `applyTransaction_transient`: what a transaction without hooks does to the transient store.
* **`failed_publishes_iff`**: a failed transaction publishes no logs, if and only if no hook rejects a
  run that logged or leaves logs in the receipt it rejects.
-/

set_option linter.unusedSectionVars false

namespace Smartdoge.Evm

open Smartdoge.Lib
open Smartdoge.Lib.Writes
open Smartdoge.Statedb

section logs

variable [Keccak]

/-! ## The bloom filter of go-ethereum -/

/-- The three bits of an item: the low eleven bits of the first three pairs of bytes of its hash.
Source: go-ethereum `types/bloom9.go` `bloomValues` -/
def bloomValues (data : Bytes) : ℕ :=
  let hash := (keccak256 data).bytes
  let bit (i : ℕ) := 2 ^ (((hash.getD i 0).toNat * 256 + (hash.getD (i + 1) 0).toNat) % 2048)
  bit 0 ||| bit 2 ||| bit 4

/-- Source: go-ethereum `types/bloom9.go` `BloomLookup` -/
def bloomLookup (bloom : ℕ) (item : Bytes) : Bool := Bloom.test bloomValues bloom item

/-- What a filter is asked for a log: its address and its topics. -/
def bloomItems (log : Log) : List Bytes := log.address.bytes :: log.topics.map FixedBytes.bytes

/-- Source: go-ethereum `types/bloom9.go` `LogsBloom` -/
def logsBloom (logs : List Log) : ℕ := Bloom.addAll bloomValues 0 (logs.flatMap bloomItems)

/-! ## The commit does not publish -/

/-- Committing an object leaves the transient store alone. -/
theorem objectCommit_transient {env : Env} {o : StateObject} {st st' : Store}
    (h : o.commit (evmKeeper env) st = .ok () st') : st'.transient = st.transient := by
  rw [StateObject.commit_ok] at h
  split_ifs at h
  · rcases deleteAccount_ok env h with ⟨-, rfl⟩ | ⟨sequence, codeHash, st₁, -, hmoves, rfl⟩
    · rfl
    · have hledger := (removeCode_sameLedger st₁ codeHash).trans
        (clearStorage_sameLedger (removeCode codeHash st₁) o.address)
      exact hledger.transient.trans hmoves.transient
  · obtain ⟨st₁, hset, rfl⟩ := h
    obtain ⟨acct, -, hmoves⟩ := setAccount_ok env hset
    calc (o.commitStorage (evmKeeper env) st₁).transient
        = st₁.transient := (commitStorage_sameLedger env o st₁).transient
      _ = (o.commitCode (evmKeeper env) st).transient := hmoves.transient
      _ = st.transient := (commitCode_sameLedger env o st).transient

/-- So does committing a state. -/
theorem commit_transient {env : Env} {s : StateDB Store} (hk : s.keeper = evmKeeper env) {st st' : Store}
    (h : s.commit st = .ok () st') : st'.transient = st.transient := by
  apply forM_keeps (g := Store.transient) ?_ h
  intro a _ st₁ st₂ hobject
  cases ho : s.stateObjects.get a with
  | none => simp [ho] at hobject
  | some o =>
      simp only [ho, hk] at hobject
      exact objectCommit_transient hobject

variable {app : App} {ctx : Context}

/-! ## The logs of an execution -/

/-- **The logs of an execution** are numbered from the size of the block so far. -/
theorem App.execute_stamped {msg : Message} {gas : UInt64} {txConfig : TxConfig} {st : Store}
    {s : StateDB Store} {out : VmOutcome} (h : app.execute ctx msg gas txConfig st = .ok (s, out)) :
    s.keeper = evmKeeper app.env ∧ Stamped txConfig s.logs := by
  obtain ⟨-, ops, hrun, -⟩ := execute_run h
  have hwf := wf_new st (evmKeeper app.env) txConfig
  refine ⟨(runOps_store hwf hrun).1, ?_⟩
  exact (runOps_stamped hwf (Stamped.nil txConfig) (RevisionsAt.new _ _ _) hrun).1

/-- An execution that failed has no logs. -/
theorem App.execute_failed_logs (hevm : app.RestoresOnError ctx) {msg : Message} {gas : UInt64}
    {txConfig : TxConfig} {st : Store} {s : StateDB Store} {out : VmOutcome}
    (h : app.execute ctx msg gas txConfig st = .ok (s, out)) (herr : out.vmErr ≠ none) :
    s.logs = [] := by
  have hnew := wf_new st (evmKeeper app.env) txConfig
  have hquiet {s₀ : StateDB Store}
      (hprepare : runOps (StateDB.new st (evmKeeper app.env) txConfig) (app.prepareOps ctx msg) = .ok s₀) :
      s₀.logs = [] := by
    have hops : ∀ op ∈ app.prepareOps ctx msg, op.isQuiet none = true :=
      fun _ hop => app.prepareOps_quiet ctx hop
    exact runOps_quiet_logs hops hprepare
  cases hto : msg.toAddr with
  | some dst =>
      obtain ⟨s₀, hprepare, rfl, hrun⟩ := execute_call hto h
      rw [restored_logs (hevm.call msg gas s₀ herr) (runOps_wf hnew hprepare) hrun, hquiet hprepare]
  | none =>
      obtain ⟨s₀, s₁, hprepare, rfl, hrun, rfl⟩ := execute_create hto h
      have hset : ∀ (t : StateDB Store) (nonce : UInt64), (t.setNonce msg.sender nonce).logs = t.logs := by
        intro t nonce
        exact t.getOrNewStateObject_logs msg.sender
      have hreset : Op.run s₀ (.setNonce msg.sender msg.nonce) =
        .ok (s₀.setNonce msg.sender msg.nonce) := rfl
      have hwf := Op.wf (runOps_wf hnew hprepare) hreset
      rw [hset, restored_logs (hevm.create msg gas _ herr) hwf hrun, hset, hquiet hprepare]

/-- Applying a message leaves the transient store alone, and stamps its logs with the configuration. -/
theorem App.applyMessage_transient {msg : Message} {cfg : EvmConfig} {txConfig : TxConfig}
    {st st' : Store} {res : Response}
    (h : app.applyMessageWithConfig ctx msg true cfg txConfig st = .ok res st') :
    st'.transient = st.transient ∧ Stamped txConfig res.logs := by
  obtain ⟨gas, s, out, used, happlied⟩ := applyMessageWithConfig_ok h
  obtain ⟨hk, hstamped⟩ := execute_stamped happlied.execute
  rw [happlied.logs]
  exact ⟨commit_transient hk happlied.commit, hstamped⟩

/-- A message that fails has no logs. -/
theorem App.applyMessage_failed_logs (hevm : app.RestoresOnError ctx) {msg : Message} {cfg : EvmConfig}
    {txConfig : TxConfig} {st st' : Store} {res : Response}
    (h : app.applyMessageWithConfig ctx msg true cfg txConfig st = .ok res st')
    (hfailed : res.failed = true) : res.logs = [] := by
  obtain ⟨gas, s, out, used, happlied⟩ := applyMessageWithConfig_ok h
  rw [happlied.logs]
  refine execute_failed_logs hevm happlied.execute ?_
  intro hnone
  rw [Response.failed, happlied.vmError, hnone] at hfailed
  exact absurd hfailed (by simp)

/-! ## Failed transactions -/

/-- The hooks reject a transaction whose run has `logs`, and leave `receipt` behind. -/
def App.HooksReject (app : App) (ctx : Context) (tx : TxData) (st : Store) (logs : List Log)
    (receipt : Receipt) : Prop :=
  ∃ cfg msg res tmp tmp' hooks err, ctx.evmConfig = .ok cfg ∧
    app.asMessage ctx tx ctx.getBaseFee = some msg ∧
    app.applyMessageWithConfig ctx msg true cfg (st.txConfig ctx (app.geth.txHash tx)) st = .ok res tmp ∧
    app.hooks = some hooks ∧ res.failed = false ∧
    multiPostTxProcessing hooks msg
      (tmp, app.newReceipt ctx tx msg (st.txConfig ctx (app.geth.txHash tx)) res st) =
        .error err (tmp', receipt) ∧
    logs = res.logs

/-- What a failed transaction should publish: no logs in the response, and nothing in the block. -/
structure PublishesNothing (st st' : Store) (res : Response) : Prop where
  logs : res.logs = []
  bloom : st'.transient.bloom = st.transient.bloom
  logSize : st'.transient.logSize = st.transient.logSize

/-- What is published, from the logs of the response and of the receipt. -/
theorem publishesNothing_iff {txConfig : TxConfig} {receipt : Receipt} {st st₂ st' : Store}
    {res : Response} (hsize : txConfig.logIndex = st.transient.logSize)
    (hsame : st₂.transient = st.transient) (h : Published txConfig receipt st₂ st') :
    PublishesNothing st st' res ↔ res.logs = [] ∧ receipt.logs = [] := by
  constructor
  · rintro ⟨hlogs, -, hlogSize⟩
    refine ⟨hlogs, ?_⟩
    by_contra hne
    rw [h.logSize, if_neg hne, hsize] at hlogSize
    have := List.length_pos_of_ne_nil hne
    omega
  · rintro ⟨hlogs, hreceipt⟩
    refine ⟨hlogs, ?_, ?_⟩
    · rw [h.bloom, if_pos hreceipt, hsame]
    · rw [h.logSize, if_pos hreceipt, hsame]

/-- **A failed transaction publishes no logs if and only if** the hooks reject no run that logged, and
leave no logs in the receipt of a run they reject. -/
theorem failed_publishes_iff (hevm : app.RestoresOnError ctx) {tx : TxData} {st st' : Store}
    {res : Response} (h : app.applyTransaction ctx tx st = .ok res st') (hfailed : res.failed = true) :
    PublishesNothing st st' res ↔
      ∀ logs receipt, app.HooksReject ctx tx st logs receipt → logs = [] ∧ receipt.logs = [] := by
  obtain ⟨cfg, msg, receipt, st₁, st₂, hcfg, hmsg, hprocess, hrefund, hpublished⟩ :=
    App.applyTransaction_ok h
  obtain ⟨refund, -, hmoves⟩ := App.refundGas_ok hrefund
  -- Whatever rejects the run is what the transaction itself went through.
  have hunique : ∀ {res₀ tmp logs receipt'},
      app.applyMessageWithConfig ctx msg true cfg (st.txConfig ctx (app.geth.txHash tx)) st = .ok res₀ tmp →
      app.HooksReject ctx tx st logs receipt' →
      ∃ hooks err tmp', app.hooks = some hooks ∧ res₀.failed = false ∧ logs = res₀.logs ∧
        multiPostTxProcessing hooks msg
          (tmp, app.newReceipt ctx tx msg (st.txConfig ctx (app.geth.txHash tx)) res₀ st) =
            .error err (tmp', receipt') := by
    rintro res₀ tmp logs receipt' happly ⟨cfg', msg', res', t, t', hooks, err, hcfg', hmsg', happly',
      hhooks, hok, hpost, rfl⟩
    obtain rfl := Except.ok.inj (hcfg.symm.trans hcfg')
    obtain rfl := Option.some.inj (hmsg.symm.trans hmsg')
    obtain ⟨rfl, rfl⟩ : res₀ = res' ∧ tmp = t := by simpa [happly] using happly'
    exact ⟨hooks, err, t', hhooks, hok, rfl, hpost⟩
  cases App.process_ended hprocess with
  | noHooks happly hhooks =>
      have hlogs := App.applyMessage_failed_logs hevm happly hfailed
      have hsame : st₂.transient = st.transient :=
        hmoves.transient.trans (App.applyMessage_transient happly).1
      rw [publishesNothing_iff rfl hsame hpublished]
      refine iff_of_true ⟨hlogs, hlogs⟩ ?_
      intro logs receipt' hreject
      obtain ⟨hooks, -, -, hsome, -⟩ := hunique happly hreject
      simp [hhooks] at hsome
  | vmError happly hhooks _ =>
      have hlogs := App.applyMessage_failed_logs hevm happly hfailed
      rw [publishesNothing_iff rfl hmoves.transient hpublished]
      refine iff_of_true ⟨hlogs, hlogs⟩ ?_
      intro logs receipt' hreject
      obtain ⟨-, -, -, -, hok, -⟩ := hunique happly hreject
      simp [hok] at hfailed
  | @rejected res₀ tmp tmp' hooks err _ happly hhooks hok hpost =>
      rw [publishesNothing_iff rfl hmoves.transient hpublished]
      constructor
      · intro hnone logs receipt' hreject
        obtain ⟨hooks', err', t', hhooks', -, rfl, hpost'⟩ := hunique happly hreject
        obtain rfl := Option.some.inj (hhooks.symm.trans hhooks')
        obtain ⟨-, -, rfl⟩ : err = err' ∧ tmp' = t' ∧ receipt = receipt' := by simpa [hpost] using hpost'
        exact hnone
      · intro hreject
        exact hreject _ _ ⟨cfg, msg, res₀, tmp, tmp', hooks, err, hcfg, hmsg, happly, hhooks, hok, hpost, rfl⟩
  | accepted _ _ hok _ =>
      exact absurd hfailed (by simp [Response.failed] at hok ⊢; exact hok)

end logs

/-! ## Concrete runs -/

/-- A log of a contract, before `AddLog` has stamped it. -/
def sampleLog (contract : Address) : Log :=
  ⟨contract, [.ofNat 32 7], [], 10, .zero 32, 0, .zero 32, 0, false⟩

/-- A call of a contract that logs once. -/
def loggingCall (msg : Message) (gas : UInt64) (s : StateDB Store) : VmOutcome :=
  let out := transferCall msg gas s
  { out with ops := out.ops ++ msg.toAddr.toList.map fun dst => .addLog (sampleLog dst) }

/-- A call that logs once and reverts. -/
def revertingCall (msg : Message) (_ : UInt64) (s : StateDB Store) : VmOutcome where
  ops := [.getBalance msg.sender] ++ .snapshot :: ([.addLog (sampleLog msg.sender)] ++
    [.revertToSnapshot (s.getBalance msg.sender).2.snapshot.1])
  ret := []
  leftoverGas := 40000
  vmErr := some "execution reverted"

/-- A hook that fails. -/
def rejectingHook : Hook := fun _ => throw "rejected"

/-- An application with a given call of contracts, given hooks and the bloom filter of go-ethereum. -/
def loggingApp [Keccak] (sender : Address) (call : Message → UInt64 → StateDB Store → VmOutcome)
    (hooks : Option (List Hook)) : App where
  env := sampleEnv
  geth := { sampleGeth sender transferCall call with logsBloom := logsBloom }
  cumulativeGasUsed _ gasUsed := gasUsed
  hooks := hooks
  maxTxGasWanted := 0

/-- An account that sends transactions, and a fee collector that has been paid. -/
def fundedStore [Keccak] (a : Address) : Store where
  accounts := (GoMap.empty.set a (.eth 4 emptyCodeHash)).set (sampleEnv.moduleAddress .feeCollector) (.module 0)
  balances := (GoMap.empty.set a 50).set (sampleEnv.moduleAddress .feeCollector) 1000000
  supply := 1000050
  kv := GoMap.empty
  transient := ⟨0, 0, 0, 0⟩

/-- A call of a contract with a gas price of 10. -/
def contractCall (dst : Address) : TxData := .legacy ⟨3, some 10, 100000, some dst, some 5, [], [], [], []⟩

/-- A call that reverts publishes nothing, with a hook that would have failed. -/
theorem failed_publishes_reverted :
    letI := sampleKeccak
    let a : Address := .ofNat 20 1
    let app := loggingApp a revertingCall (some [rejectingHook])
    ∃ res st', app.applyTransaction sampleContext (contractCall (.ofNat 20 2)) (fundedStore a) = .ok res st' ∧
      res.failed = true ∧ PublishesNothing (fundedStore a) st' res := by
  let _ := sampleKeccak
  intro a app
  have hevm : app.RestoresOnError sampleContext := by
    refine ⟨fun _ _ _ h => absurd rfl h, fun msg gas s _ => ?_⟩
    have hpre : runOps s [.getBalance msg.sender] = .ok (s.getBalance msg.sender).2 := rfl
    exact Restored.reverted (by simp [Op.isQuiet]) hpre
  obtain ⟨res, st', hrun, hres⟩ := exists_of_endsWith (by decide +kernel :
    endsWith (app.applyTransaction sampleContext (contractCall (.ofNat 20 2)) (fundedStore a))
      (fun res _ => res.failed) = true)
  refine ⟨res, st', hrun, hres, (failed_publishes_iff hevm hrun hres).mpr ?_⟩
  rintro logs receipt ⟨cfg, msg, res₀, tmp, tmp', hooks, err, hcfg, hmsg, happly, -, hok, -, -⟩
  -- The message failed in the virtual machine, so that the hooks did not run.
  obtain rfl := Except.ok.inj hcfg
  obtain rfl := Option.some.inj hmsg
  obtain ⟨res₁, tmp₁, hvm, hfailed⟩ := exists_of_endsWith (by decide +kernel :
    endsWith (app.applyMessageWithConfig sampleContext
      ((contractCall (.ofNat 20 2)).asMessage a sampleContext.getBaseFee) true
      ⟨sampleContext.params, .ofNat 20 50, sampleContext.getBaseFee⟩
      ((fundedStore a).txConfig sampleContext (.zero 32)) (fundedStore a)) (fun res _ => res.failed) = true)
  obtain ⟨rfl, -⟩ := EStateM.Result.ok.inj (hvm.symm.trans happly)
  simp [hok] at hfailed

/-- A call that logs once, rejected by a hook: the response carries the log, and the block counts it. -/
theorem rejected_publishes :
    letI := sampleKeccak
    let a : Address := .ofNat 20 1
    let app := loggingApp a loggingCall (some [rejectingHook])
    app.RestoresOnError sampleContext ∧
    ∃ res st', app.applyTransaction sampleContext (contractCall (.ofNat 20 2)) (fundedStore a) = .ok res st' ∧
      res.failed = true ∧ res.logs.length = 1 ∧ st'.transient.logSize = 1 ∧ st'.transient.bloom ≠ 0 ∧
      ¬PublishesNothing (fundedStore a) st' res := by
  let _ := sampleKeccak
  intro a app
  refine ⟨⟨fun _ _ _ h => absurd rfl h, fun _ _ _ h => absurd rfl h⟩, ?_⟩
  obtain ⟨res, st', hrun, hres⟩ := exists_of_endsWith (by decide +kernel :
    endsWith (app.applyTransaction sampleContext (contractCall (.ofNat 20 2)) (fundedStore a))
      (fun res st' => decide (res.failed = true ∧ res.logs.length = 1 ∧ st'.transient.logSize = 1 ∧
        st'.transient.bloom ≠ 0)) = true)
  obtain ⟨hfailed, hlogs, hsize, hbloom⟩ := of_decide_eq_true hres
  refine ⟨res, st', hrun, hfailed, hlogs, hsize, hbloom, ?_⟩
  intro hnothing
  rw [hnothing.logs] at hlogs
  exact absurd hlogs (by simp)

end Smartdoge.Evm
