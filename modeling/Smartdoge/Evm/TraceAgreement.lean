import Smartdoge.Evm.Trace
import Smartdoge.Statedb.Restamp

/-!
# Tracing one transaction and tracing its block

`TraceTx` for a transaction with those before it as predecessors, and `TraceBlock` for the whole block, should
execute it on the same stores and with the same `TxConfig`. Both start with index 0 and count the logs, but in
different places. `TraceTx` adds one to the index of the last predecessor, which is not there for the first
transaction. It counts the logs of every execution. `TraceBlock` takes them over from `traceTx`, which returns 0 and
an error where the tracer has no result, although the transaction was executed and committed.

The virtual machine is given the `StateDB` as a `vm.StateDB`, an interface with which neither the configuration nor
the logs can be read (`Geth.IgnoresTxConfig`).

* `applyMessageWithConfig_restamp`: an execution under another configuration writes the same.
* `App.Agreement`: what holds between both loops.
* **`sameCall_iff`**: when both execute the same.
-/

set_option linter.unusedSectionVars false

namespace Smartdoge.Evm

open Smartdoge.Lib
open Smartdoge.Lib.Writes
open Smartdoge.Statedb

section agreement

variable [Keccak]

/-! ## Executions under another configuration -/

/-- The virtual machine sees neither the configuration of the transaction nor the logs. -/
def Geth.IgnoresTxConfig (geth : Geth) : Prop :=
  ∀ ctx msg gas (s : StateDB Store) c, geth.create ctx msg gas (s.restamp c) = geth.create ctx msg gas s ∧
    geth.call ctx msg gas (s.restamp c) = geth.call ctx msg gas s

variable {app : App} {ctx : Context}

/-- Preparing a state does not depend on its configuration. -/
theorem App.prepare_restamp (msg : Message) (c : TxConfig) (s : StateDB Store) :
    app.prepare ctx msg (s.restamp c) = (app.prepare ctx msg s).map (StateDB.restamp c) := by
  unfold prepare
  split_ifs
  · exact prepareAccessList_restamp c s _ _ _ _
  · rfl

/-- Neither does running an EVM that ignores it. -/
theorem App.runEvm_restamp (hvm : app.geth.IgnoresTxConfig) (msg : Message) (gas : UInt64) (c : TxConfig)
    (s : StateDB Store) : app.runEvm ctx msg gas (s.restamp c) =
      (app.runEvm ctx msg gas s).map fun r => (r.1.restamp c, r.2) := by
  unfold runEvm
  cases msg.toAddr with
  | none =>
      simp only [StateDB.setNonce_restamp, (hvm ctx msg gas _ c).1, runOps_restamp]
      cases runOps (s.setNonce msg.sender msg.nonce)
          (app.geth.create ctx msg gas (s.setNonce msg.sender msg.nonce)).ops with
      | error p => rfl
      | ok s₁ =>
          show Except.ok ((s₁.restamp c).setNonce msg.sender (msg.nonce + 1), _) = _
          rw [StateDB.setNonce_restamp]
          rfl
  | some dst =>
      simp only [(hvm ctx msg gas s c).2, runOps_restamp]
      cases runOps s (app.geth.call ctx msg gas s).ops with
      | error p => rfl
      | ok s₁ => rfl

/-- **Executions with two configurations** differ in the stamps only. -/
theorem App.execute_restamp (hvm : app.geth.IgnoresTxConfig) (msg : Message) (gas : UInt64) (c c' : TxConfig)
    (st : Store) : app.execute ctx msg gas c st =
      (app.execute ctx msg gas c' st).map fun r => (r.1.restamp c, r.2) := by
  unfold execute
  rw [← StateDB.new_restamp c st (evmKeeper app.env) c', prepare_restamp]
  cases app.prepare ctx msg (StateDB.new st (evmKeeper app.env) c') with
  | error p => rfl
  | ok s => exact runEvm_restamp hvm msg gas c s

/-- **An execution under another configuration** writes the same and has as many logs. -/
theorem App.applyMessageWithConfig_restamp (hvm : app.geth.IgnoresTxConfig) {msg : Message} {commit : Bool}
    {cfg : EvmConfig} {c' : TxConfig} {st st' : Store} {rsp : Response}
    (h : app.applyMessageWithConfig ctx msg commit cfg c' st = .ok rsp st') (c : TxConfig) :
    ∃ rsp', app.applyMessageWithConfig ctx msg commit cfg c st = .ok rsp' st' ∧
      rsp'.logs.length = rsp.logs.length := by
  obtain ⟨⟨⟩, st₁, henabled, h⟩ := bind_ok.mp h
  obtain ⟨gas, st₂, hgas, h⟩ := bind_ok.mp h
  obtain ⟨st₃, st₄, hget, h⟩ := bind_ok.mp h
  obtain ⟨rfl, rfl⟩ := get_ok.mp hget
  obtain ⟨⟨s, out⟩, st₅, hexecute, h⟩ := bind_ok.mp h
  obtain ⟨hresult, rfl⟩ := ofExcept_ok.mp hexecute
  obtain ⟨used, st₆, hused, h⟩ := bind_ok.mp h
  obtain ⟨⟨⟩, st₇, hcommit, h⟩ := bind_ok.mp h
  obtain ⟨gasUsed, st₈, hcharged, h⟩ := bind_ok.mp h
  obtain ⟨rfl, rfl⟩ := pure_ok.mp h
  have hrestamped : (app.execute ctx msg gas c st₂).mapError TxError.panic = .ok (s.restamp c, out) := by
    rw [execute_restamp hvm msg gas c c', mapError_ok.mp hresult]
    rfl
  refine ⟨_, bind_ok.mpr ⟨(), st₁, henabled, bind_ok.mpr ⟨gas, st₂, hgas, bind_ok.mpr ⟨st₂, st₂, rfl,
    bind_ok.mpr ⟨(s.restamp c, out), st₂, ofExcept_ok.mpr ⟨hrestamped, rfl⟩, bind_ok.mpr ⟨used, st₆, hused,
    bind_ok.mpr ⟨(), st₇, hcommit, bind_ok.mpr ⟨gasUsed, st₈, hcharged, rfl⟩⟩⟩⟩⟩⟩⟩, ?_⟩
  exact List.length_mapIdx

/-! ## Both loops -/

variable {t : Tracing}

/-- The execution of a transaction by `traceTx` is reached and returns without an error. -/
def App.Executes (app : App) (t : Tracing) (call : Replay) (tx : TxData) : Prop :=
  ∃ msg tracer rsp st', app.asMessage t.ctx tx t.cfg.baseFee = some msg ∧
    chooseTracer t.tracers t.traceConfig call.txConfig = .ok tracer ∧
    app.applyMessageWithConfig t.ctx msg true t.cfg call.txConfig call.store = .ok rsp st'

/-- The executions of the iterations of `TraceBlock` before one return without an error. -/
def App.ExecutesBefore (app : App) (t : Tracing) (txs : List TxData) (st : Store) (i : ℕ) : Prop :=
  ∀ j < i, ∀ tx s, txs[j]? = some tx → app.blockTraceAt t txs st j = .ok s →
    app.Executes t (app.blockCall s.toReplay tx j) tx

/-- The tracer of a transaction has no result, and the transaction has logs. -/
def App.LosesLogs (app : App) (t : Tracing) (call : Replay) (tx : TxData) : Prop :=
  ¬Traced (app.traceTx t call.txConfig tx true call.store) ∧
    ∃ msg rsp st', app.asMessage t.ctx tx t.cfg.baseFee = some msg ∧
      app.applyMessageWithConfig t.ctx msg true t.cfg call.txConfig call.store = .ok rsp st' ∧ rsp.logs ≠ []

/-- No transaction before an iteration of `TraceBlock` loses its logs. -/
def App.KeepsLogsBefore (app : App) (t : Tracing) (txs : List TxData) (st : Store) (i : ℕ) : Prop :=
  ∀ j < i, ∀ tx s, txs[j]? = some tx → app.blockTraceAt t txs st j = .ok s →
    ¬app.LosesLogs t (app.blockCall s.toReplay tx j) tx

/-- `TraceTx` before the last of some predecessors. -/
def App.replayAt (app : App) (t : Tracing) (txs : List TxData) (st : Store) (i : ℕ) : Except Panic Replay :=
  Loop.forRange (app.replayStep t) (txs.take i) (t.start st)

/-- `TraceTx` with the transactions before as predecessors executes a transaction on the stores and with the
configuration of the iteration of `TraceBlock`. -/
def App.SameCall (app : App) (t : Tracing) (txs : List TxData) (st : Store) (i : ℕ) (tx : TxData) : Prop :=
  ∃ r s, app.replayAt t txs st i = .ok r ∧ app.blockTraceAt t txs st i = .ok s ∧
    app.tracedCall r tx = app.blockCall s.toReplay tx i

/-! ## One transaction -/

/-- After the execution only `GetResult` can fail. -/
theorem Tracer.result_error {tracers : Tracers} {res : Response} {execution : Execution} {tracer : Tracer}
    {err : TraceError} (h : tracer.result tracers res execution = .error err) : ∃ text, err = .getResult text := by
  cases tracer with
  | structLogger config => cases h
  | custom name context timeout =>
      simp only [result] at h
      split at h
      · rename_i text _
        exact ⟨text, (Except.error.inj h).symm⟩
      · cases h

/-- A trace of a message that was applied is what its tracer makes of the response. -/
theorem App.traceTx_of_result {txConfig : TxConfig} {tx : TxData} {commit : Bool} {st st' : Store} {msg : Message}
    {tracer : Tracer} {rsp : Response} (hmsg : app.asMessage t.ctx tx t.cfg.baseFee = some msg)
    (htracer : chooseTracer t.tracers t.traceConfig txConfig = .ok tracer)
    (happly : app.applyMessageWithConfig t.ctx msg commit t.cfg txConfig st = .ok rsp st') :
    (∀ result, tracer.result t.tracers rsp ⟨t.ctx, msg, t.cfg, txConfig, st⟩ = .ok result →
      app.traceTx t txConfig tx commit st = .ok (result, txConfig.logIndex + rsp.logs.length) st') ∧
    ∀ err, tracer.result t.tracers rsp ⟨t.ctx, msg, t.cfg, txConfig, st⟩ = .error err →
      app.traceTx t txConfig tx commit st = .error err st' := by
  refine ⟨?_, ?_⟩
  · intro result hresult
    simp only [traceTx, hmsg, htracer, happly, hresult]
  · intro err hresult
    simp only [traceTx, hmsg, htracer, happly, hresult]

/-- **A transaction that was executed** has been committed, whether or not it could be traced. -/
theorem App.blockTraceStep_executed {s : BlockTrace} {tx : TxData} {i : ℕ} {msg : Message} {tracer : Tracer}
    {rsp : Response} {st' : Store} (hmsg : app.asMessage t.ctx tx t.cfg.baseFee = some msg)
    (htracer : chooseTracer t.tracers t.traceConfig (app.blockCall s.toReplay tx i).txConfig = .ok tracer)
    (happly : app.applyMessageWithConfig t.ctx msg true t.cfg (app.blockCall s.toReplay tx i).txConfig
      (app.blockCall s.toReplay tx i).store = .ok rsp st') :
    ∃ s', app.blockTraceStep t s tx i = .ok s' ∧ s'.store = st' ∧
      s'.txConfig = { (app.blockCall s.toReplay tx i).txConfig with logIndex := s'.txConfig.logIndex } ∧
      (Traced (app.blockOutcome t s tx i) → s'.txConfig.logIndex = s.txConfig.logIndex + rsp.logs.length) ∧
      (¬Traced (app.blockOutcome t s tx i) → s'.txConfig.logIndex = s.txConfig.logIndex) := by
  obtain ⟨htraced, hfailed⟩ := traceTx_of_result hmsg htracer happly
  cases hresult : tracer.result t.tracers rsp
      ⟨t.ctx, msg, t.cfg, (app.blockCall s.toReplay tx i).txConfig, (app.blockCall s.toReplay tx i).store⟩ with
  | error err =>
      obtain ⟨text, rfl⟩ := Tracer.result_error hresult
      simp only [blockTraceStep, blockOutcome, hfailed _ hresult]
      exact ⟨⟨⟨(app.blockCall s.toReplay tx i).txConfig, st'⟩, s.results⟩, rfl, rfl, rfl,
        fun htraced => htraced.elim, fun _ => rfl⟩
  | ok result =>
      simp only [blockTraceStep, blockOutcome, htraced _ hresult]
      exact ⟨⟨⟨{ (app.blockCall s.toReplay tx i).txConfig with
          logIndex := s.txConfig.logIndex + rsp.logs.length }, st'⟩, s.results ++ [⟨some result, none⟩]⟩, rfl, rfl,
        rfl, fun _ => rfl, fun hnot => (hnot trivial).elim⟩

/-! ## All of them -/

/-- What holds between both loops: they have the same stores, and `TraceTx` has counted the logs that `TraceBlock`
lost. -/
structure App.Agreement (app : App) (t : Tracing) (txs : List TxData) (st : Store) (i : ℕ) (r : Replay)
    (s : BlockTrace) : Prop where
  store : r.store = s.store
  config : r.txConfig = { s.txConfig with logIndex := r.txConfig.logIndex }
  index : s.txConfig.txIndex = i - 1
  le : s.txConfig.logIndex ≤ r.txConfig.logIndex
  logs : s.txConfig.logIndex = r.txConfig.logIndex ↔ app.KeepsLogsBefore t txs st i

/-- One more transaction is asked to keep its logs. -/
theorem App.keepsLogsBefore_succ {txs : List TxData} {st : Store} {i : ℕ} {tx : TxData} {s : BlockTrace}
    (htx : txs[i]? = some tx) (hs : app.blockTraceAt t txs st i = .ok s) :
    app.KeepsLogsBefore t txs st (i + 1) ↔
      app.KeepsLogsBefore t txs st i ∧ ¬app.LosesLogs t (app.blockCall s.toReplay tx i) tx := by
  constructor
  · intro h
    exact ⟨fun j hj => h j (by omega), h i (by omega) tx s htx hs⟩
  · rintro ⟨hbefore, hlast⟩ j hj tx' s' htx' hs'
    rcases Nat.lt_or_ge j i with hlt | hge
    · exact hbefore j hlt tx' s' htx' hs'
    · obtain rfl : j = i := by omega
      obtain rfl := Option.some.inj (htx'.symm.trans htx)
      obtain rfl := Except.ok.inj (hs'.symm.trans hs)
      exact hlast

/-- **An iteration of both loops** for a transaction whose execution returns. -/
theorem App.Agreement.step (hvm : app.geth.IgnoresTxConfig) {txs : List TxData} {st : Store} {i : ℕ} {r : Replay}
    {s : BlockTrace} (h : app.Agreement t txs st i r s) {tx : TxData} (htx : txs[i]? = some tx)
    (hs : app.blockTraceAt t txs st i = .ok s) (hexec : app.Executes t (app.blockCall s.toReplay tx i) tx) :
    ∃ r' s', app.replayStep t r tx i = .ok r' ∧ app.blockTraceStep t s tx i = .ok s' ∧
      app.Agreement t txs st (i + 1) r' s' := by
  obtain ⟨msg, tracer, rsp, st', hmsg, htracer, happly⟩ := hexec
  obtain ⟨s', hstep, hstore, hconfig, htraced, hlost⟩ := blockTraceStep_executed hmsg htracer happly
  -- The predecessor is executed under a configuration that may differ in the log index.
  obtain ⟨rsp', happly', hlength⟩ := applyMessageWithConfig_restamp hvm happly
    { r.txConfig with txHash := app.geth.txHash tx, txIndex := i }
  have hreplay : app.replayStep t r tx i = .ok ⟨{ r.txConfig with
      txHash := app.geth.txHash tx, txIndex := i, logIndex := r.txConfig.logIndex + rsp.logs.length }, st'⟩ := by
    have happly' : app.applyMessageWithConfig t.ctx msg true t.cfg
        { r.txConfig with txHash := app.geth.txHash tx, txIndex := i } r.store = .ok rsp' st' := by
      rw [h.store]
      exact happly'
    simp only [replayStep, hmsg, happly', hlength]
  refine ⟨_, s', hreplay, hstep, ?_⟩
  have hle := h.le
  have hlosesIff : app.LosesLogs t (app.blockCall s.toReplay tx i) tx ↔
      ¬Traced (app.blockOutcome t s tx i) ∧ rsp.logs ≠ [] := by
    constructor
    · rintro ⟨hnot, msg', rsp₁, st₁, hmsg', happly₁, hlogs⟩
      obtain rfl := Option.some.inj (hmsg'.symm.trans hmsg)
      obtain ⟨rfl, -⟩ := EStateM.Result.ok.inj (happly₁.symm.trans happly)
      exact ⟨hnot, hlogs⟩
    · rintro ⟨hnot, hlogs⟩
      exact ⟨hnot, msg, rsp, st', hmsg, happly, hlogs⟩
  refine ⟨hstore.symm, ?_, ?_, ?_, ?_⟩
  · rw [hconfig]
    show TxConfig.mk r.txConfig.blockHash _ _ _ = TxConfig.mk s.txConfig.blockHash _ _ _
    rw [h.config]
    rfl
  · rw [hconfig]
    rfl
  · show s'.txConfig.logIndex ≤ r.txConfig.logIndex + rsp.logs.length
    by_cases htr : Traced (app.blockOutcome t s tx i)
    · rw [htraced htr]
      omega
    · rw [hlost htr]
      omega
  · show s'.txConfig.logIndex = r.txConfig.logIndex + rsp.logs.length ↔ _
    rw [keepsLogsBefore_succ htx hs, ← h.logs, hlosesIff]
    by_cases htr : Traced (app.blockOutcome t s tx i)
    · rw [htraced htr]
      simp [htr]
    · rw [hlost htr, Ne, ← List.length_eq_zero_iff]
      simp only [htr, not_false_iff, true_and, not_not]
      omega

/-- **Both loops before an iteration**, if the executions before return without an error. -/
theorem App.agreement_at (hvm : app.geth.IgnoresTxConfig) {txs : List TxData} {st : Store} {i : ℕ}
    (hi : i ≤ txs.length) (hexec : app.ExecutesBefore t txs st i) :
    ∃ r s, app.replayAt t txs st i = .ok r ∧ app.blockTraceAt t txs st i = .ok s ∧
      app.Agreement t txs st i r s := by
  induction i with
  | zero =>
      refine ⟨t.start st, ⟨t.start st, []⟩, rfl, rfl, rfl, rfl, rfl, Nat.le_refl _, iff_of_true rfl ?_⟩
      intro j hj
      exact absurd hj (Nat.not_lt_zero j)
  | succ i ih =>
      obtain ⟨r, s, hr, hs, hagree⟩ := ih (by omega) fun j hj => hexec j (by omega)
      have htx : txs[i]? = some txs[i] := List.getElem?_eq_getElem hi
      obtain ⟨r', s', hreplay, hstep, hagree'⟩ :=
        hagree.step hvm htx hs (hexec i (by omega) txs[i] s htx hs)
      refine ⟨r', s', ?_, ?_, hagree'⟩
      · unfold replayAt at hr ⊢
        rw [Loop.forRange_take_succ htx, hr]
        exact hreplay
      · rw [blockTraceAt_succ htx hs]
        exact hstep

/-- A transaction that could be traced was executed, and has lost no logs. -/
theorem App.executes_of_traced {call : Replay} {tx : TxData}
    (h : Traced (app.traceTx t call.txConfig tx true call.store)) :
    app.Executes t call tx ∧ ¬app.LosesLogs t call tx := by
  refine ⟨?_, fun hloses => hloses.1 h⟩
  unfold traceTx at h
  split at h
  · exact h.elim
  · rename_i msg hmsg
    split at h
    · exact h.elim
    · rename_i tracer htracer
      split at h
      · exact h.elim
      · exact h.elim
      · rename_i rsp st' happly
        exact ⟨msg, tracer, rsp, st', hmsg, htracer, happly⟩

/-- Transactions that were traced were executed, and kept their logs. -/
theorem App.executesBefore_of_traced {txs : List TxData} {st : Store} {i : ℕ}
    (h : app.TracedBefore t txs st i) : app.ExecutesBefore t txs st i ∧ app.KeepsLogsBefore t txs st i :=
  ⟨fun j hj tx s htx hs => (executes_of_traced (h j hj tx s htx hs)).1,
    fun j hj tx s htx hs => (executes_of_traced (h j hj tx s htx hs)).2⟩

end agreement

/-! ## Concrete blocks -/

/-- The sample transfers ignore the configuration. -/
theorem transferCall_ignoresTxConfig [Keccak] (a : Address) :
    (sampleApp a transferCall transferCall).geth.IgnoresTxConfig :=
  fun _ _ _ _ _ => ⟨rfl, rfl⟩

/-- The first transaction of the block 11 can be traced. -/
theorem tracedBefore_transfer (tx : TxData) :
    letI := sampleKeccak
    (sampleApp (.ofNat 20 1) transferCall transferCall).TracedBefore sampleTracing
      [tracedTransfer 0 21000, tx] emptyStore 1 := by
  let _ := sampleKeccak
  intro j hj tx' s htx hs
  obtain rfl : j = 0 := by omega
  obtain rfl := Except.ok.inj hs
  obtain rfl := Option.some.inj htx
  decide +kernel

section agreement

variable [Keccak] {app : App} {t : Tracing}

/-- **Tracing one transaction agrees with tracing its block**, for transactions whose executions return without an
error, if and only if it is not the first one and no tracer before it has lost logs. -/
theorem sameCall_iff (hvm : app.geth.IgnoresTxConfig) {txs : List TxData} {st : Store} {i : ℕ} {tx : TxData}
    (htx : txs[i]? = some tx) (hexec : app.ExecutesBefore t txs st i) :
    app.SameCall t txs st i tx ↔ 0 < i ∧ app.KeepsLogsBefore t txs st i := by
  have hi : i < txs.length := (List.getElem?_eq_some_iff.mp htx).1
  obtain ⟨r, s, hr, hs, hagree⟩ := App.agreement_at hvm hi.le hexec
  have hindex := hagree.index
  have hreplayed : r.txConfig.txIndex = i - 1 := by
    rw [hagree.config]
    exact hindex
  rw [← hagree.logs]
  constructor
  · rintro ⟨r', s', hr', hs', hsame⟩
    obtain rfl := Except.ok.inj (hr'.symm.trans hr)
    obtain rfl := Except.ok.inj (hs'.symm.trans hs)
    have hnumber : (app.tracedCall r' tx).txConfig.txIndex = i := by
      rw [hsame]
      rfl
    have hlogs : (app.tracedCall r' tx).txConfig.logIndex = s'.txConfig.logIndex := by
      rw [hsame]
      rfl
    have hnext : r'.txConfig.txIndex + 1 = i := hnumber
    exact ⟨by omega, hlogs.symm⟩
  · rintro ⟨hpos, hlogs⟩
    refine ⟨r, s, hr, hs, ?_⟩
    have hconfig : r.txConfig = s.txConfig := by
      rw [hagree.config, ← hlogs]
    unfold App.tracedCall App.blockCall
    rw [hagree.store, hconfig, hindex, Nat.sub_add_cancel hpos]

end agreement

/-- The second transaction of a block. -/
theorem sameCall_second :
    letI := sampleKeccak
    let app := sampleApp (.ofNat 20 1) transferCall transferCall
    let txs := [tracedTransfer 0 21000, tracedTransfer 1 30000]
    app.ExecutesBefore sampleTracing txs emptyStore 1 ∧
      app.SameCall sampleTracing txs emptyStore 1 (tracedTransfer 1 30000) := by
  let _ := sampleKeccak
  intro app txs
  obtain ⟨hexec, hkeeps⟩ := App.executesBefore_of_traced (tracedBefore_transfer (tracedTransfer 1 30000))
  exact ⟨hexec, (sameCall_iff (transferCall_ignoresTxConfig _) rfl hexec).mpr ⟨Nat.one_pos, hkeeps⟩⟩

/-- The first transaction of a block: `TraceTx` executes it with the index 1, `TraceBlock` with the index 0. -/
theorem sameCall_first_fails :
    letI := sampleKeccak
    let app := sampleApp (.ofNat 20 1) transferCall transferCall
    let tx := tracedTransfer 0 21000
    let txs := [tx, tracedTransfer 1 30000]
    app.ExecutesBefore sampleTracing txs emptyStore 1 ∧
      (∃ r, app.replayAt sampleTracing txs emptyStore 0 = .ok r ∧ (app.tracedCall r tx).txConfig.txIndex = 1) ∧
      (∃ s, app.blockTraceAt sampleTracing txs emptyStore 0 = .ok s ∧
        (app.blockCall s.toReplay tx 0).txConfig.txIndex = 0) ∧
      ¬app.SameCall sampleTracing txs emptyStore 0 tx := by
  let _ := sampleKeccak
  intro app tx txs
  refine ⟨(App.executesBefore_of_traced (tracedBefore_transfer (tracedTransfer 1 30000))).1, ⟨_, rfl, rfl⟩,
    ⟨_, rfl, rfl⟩, ?_⟩
  rintro ⟨r, s, hr, hs, hsame⟩
  obtain rfl := Except.ok.inj hr
  have hindex : (app.tracedCall (sampleTracing.start emptyStore) tx).txConfig.txIndex = 0 := by
    rw [hsame]
    rfl
  exact absurd hindex (Nat.succ_ne_zero 0)

end Smartdoge.Evm
