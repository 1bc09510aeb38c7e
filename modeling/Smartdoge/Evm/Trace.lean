import Smartdoge.Evm.EstimateGas
import Smartdoge.Evm.Genesis
import Smartdoge.Lib.Loop

/-!
# Tracing

`x/evm/keeper/grpc_query.go` `TraceTx` and `TraceBlock`: transactions are executed once more, on the stores of the
block before theirs, with a tracer that watches. `TraceTx` executes the transactions before and traces one.
`TraceBlock` traces all of them. Both commit what a transaction wrote to the stores of the query, so that the next
one sees it, and both go on if a transaction fails. A panic ends the query.

The tracers are go-ethereum's and any function of what they are shown. A tracer that was stopped for its timeout
returns an error like any other.

* `blockTraceStep_ok`: what an iteration of `TraceBlock` does.
* **`blockTrace_aligned_iff`**: the results are those of the transactions of the block, one for each, if and only
  if no transaction could not be traced. The error of one that could not is dropped, and with it its place.
-/

set_option linter.unusedSectionVars false

namespace Smartdoge.Evm

open Smartdoge.Lib
open Smartdoge.Lib.Writes
open Smartdoge.Statedb

/-! ## Tracers -/

/-- Source: `types/evm.pb.go` `TraceConfig`; the field `Reexec` is not read -/
structure TraceConfig where
  tracer : String
  timeout : String
  disableStack : Bool
  disableStorage : Bool
  debug : Bool
  limit : ℤ
  overrides : Option ChainConfig
  enableMemory : Bool
  enableReturnData : Bool
deriving DecidableEq

/-- Source: go-ethereum `logger.Config` -/
structure LogConfig where
  enableMemory : Bool
  disableStack : Bool
  disableStorage : Bool
  enableReturnData : Bool
  debug : Bool
  limit : ℤ
  overrides : Option ChainConfig
deriving DecidableEq

/-- Source: go-ethereum `tracers.Context` -/
structure TracerContext where
  blockHash : Hash
  txIndex : ℕ
  txHash : Hash
deriving DecidableEq

/-- The tracer of an execution. -/
inductive Tracer where
  /-- `tracers.New(name, context)`, stopped after the timeout. -/
  | custom (name : String) (context : TracerContext) (timeout : ℤ)
  /-- `logger.NewStructLogger(config)`. -/
  | structLogger (config : LogConfig)
deriving DecidableEq

/-- Everything that an execution depends on, and so what a tracer sees of it. -/
structure Execution where
  ctx : Context
  msg : Message
  cfg : EvmConfig
  txConfig : TxConfig
  store : Store

/-- The functions around the tracers that the modelled code calls. Errors are texts, results are JSON. -/
structure Tracers where
  /-- `time.ParseDuration`, in nanoseconds. -/
  parseDuration : String → Except String ℤ
  /-- `tracers.New`. -/
  new : String → TracerContext → Except String PUnit
  /-- `types.FormatLogs(tracer.StructLogs())`. -/
  structLogs : LogConfig → Execution → String
  /-- `tracer.GetResult()`. -/
  getResult : String → TracerContext → ℤ → Execution → Except String String

/-- Why a transaction could not be traced. -/
inductive TraceError where
  /-- The error of `AsMessage`. -/
  | invalidSender
  /-- "timeout value: %s". -/
  | timeout (text : String)
  /-- The error of `tracers.New`. -/
  | newTracer (text : String)
  /-- The error of `ApplyMessageWithConfig`. -/
  | apply (err : TxError)
  /-- The error of `GetResult`. -/
  | getResult (text : String)
  | panic (p : Panic)
deriving DecidableEq

/-- Source: `types.ExecutionResult`, or the result of another tracer -/
inductive TraceResult where
  | execution (gas : UInt64) (failed : Bool) (returnValue : String) (structLogs : String)
  | custom (json : String)
deriving DecidableEq

/-- `5 * time.Second`.
Source: `defaultTraceTimeout` -/
def defaultTraceTimeout : ℤ := 5000000000

/-- Source: `types/tx.go` `Return` -/
def Response.returned (res : Response) : Bytes := if res.failed then [] else res.ret

/-- Source: `types/tx.go` `Revert` -/
def Response.revert (res : Response) : Bytes := if res.vmError ≠ errExecutionReverted then [] else res.ret

/-- Source: `types/tracer.go` `NewTracer` with `TracerStruct` -/
def structTracerConfig : LogConfig := ⟨false, false, false, false, true, 0, none⟩

/-- Source: `traceTx`, `timeout` -/
def TraceConfig.deadline (config : TraceConfig) (tracers : Tracers) : Except String ℤ :=
  if config.timeout ≠ "" then tracers.parseDuration config.timeout else .ok defaultTraceTimeout

/-- Source: `traceTx`, the `switch` over the trace config -/
def chooseTracer (tracers : Tracers) (config : Option TraceConfig) (txConfig : TxConfig) :
    Except TraceError Tracer :=
  match config with
  | none => .ok (.structLogger structTracerConfig)
  | some config =>
    if config.tracer ≠ "" then
      match config.deadline tracers with
      | .error text => .error (.timeout text)
      | .ok timeout =>
        let context : TracerContext := ⟨txConfig.blockHash, txConfig.txIndex, txConfig.txHash⟩
        match tracers.new config.tracer context with
        | .error text => .error (.newTracer text)
        | .ok _ => .ok (.custom config.tracer context timeout)
    else .ok (.structLogger
      { enableMemory := config.enableMemory
        disableStack := config.disableStack
        disableStorage := config.disableStorage
        enableReturnData := config.enableReturnData
        debug := config.debug
        limit := config.limit
        overrides := config.overrides })

/-- Source: `traceTx`, the `switch` over the type of the tracer -/
def Tracer.result (tracers : Tracers) (res : Response) (execution : Execution) :
    Tracer → Except TraceError TraceResult
  | .structLogger config =>
    let returnVal := if 0 < res.revert.length then bytes2Hex res.revert else bytes2Hex res.returned
    .ok (.execution res.gasUsed res.failed returnVal (tracers.structLogs config execution))
  | .custom name context timeout =>
    match tracers.getResult name context timeout execution with
    | .error text => .error (.getResult text)
    | .ok json => .ok (.custom json)

/-! ## The queries -/

/-- Source: `types.TxTraceResult`; the error is text there -/
structure TxTraceResult where
  result : Option TraceResult
  error : Option TraceError
deriving DecidableEq

/-- Source: `types/query.pb.go` `QueryTraceTxRequest`; the block time is not part of the contexts -/
structure QueryTraceTxRequest where
  msg : TxData
  predecessors : List TxData
  traceConfig : Option TraceConfig
  blockNumber : ℤ
  blockHash : String
deriving DecidableEq

/-- Source: `types/query.pb.go` `QueryTraceBlockRequest`; the block time is not part of the contexts -/
structure QueryTraceBlockRequest where
  txs : List TxData
  traceConfig : Option TraceConfig
  blockNumber : ℤ
  blockHash : String
deriving DecidableEq

/-- Why a query returned an error. -/
inductive TraceQueryError where
  /-- "empty request". -/
  | emptyRequest
  /-- "output limit cannot be negative, got %d". -/
  | negativeLimit (limit : ℤ)
  /-- "failed to load evm config". -/
  | evmConfig
  | trace (err : TraceError)
  | panic (p : Panic)
deriving DecidableEq

/-- Minus one to get the context of block beginning; 0 is a special value in `ContextWithHeight`.
Source: `TraceTx` and `TraceBlock`, `contextHeight` -/
def contextHeight (blockNumber : ℤ) : ℤ := if blockNumber - 1 < 1 then 1 else blockNumber - 1

/-- Source: `TraceTx` and `TraceBlock`, `ctx` -/
def Context.forTrace (ctx : Context) (blockNumber : ℤ) (blockHash : String) : Context :=
  { ctx with blockHeight := contextHeight blockNumber, headerHash := hex2Bytes blockHash }

/-- What stays the same for the transactions of a query. -/
structure Tracing where
  tracers : Tracers
  ctx : Context
  cfg : EvmConfig
  traceConfig : Option TraceConfig

/-- Source: `TraceTx` and `TraceBlock`, up to the loop -/
def startTrace (tracers : Tracers) (ctx : Context) (traceConfig : Option TraceConfig) (blockNumber : ℤ)
    (blockHash : String) : Except TraceQueryError Tracing :=
  match traceConfig.filter fun config => config.limit < 0 with
  | some config => .error (.negativeLimit config.limit)
  | none =>
    let ctx := ctx.forTrace blockNumber blockHash
    match ctx.evmConfig with
    | .error _ => .error .evmConfig
    | .ok cfg => .ok ⟨tracers, ctx, cfg, traceConfig⟩

/-- The store and the configuration with which a transaction is executed. -/
structure Replay where
  txConfig : TxConfig
  store : Store

/-- Before the first transaction. -/
def Tracing.start (t : Tracing) (st : Store) : Replay :=
  ⟨.newEmpty (bytesToHash t.ctx.headerHash), st⟩

/-- The loop of `TraceBlock` between two iterations. -/
structure BlockTrace extends Replay where
  results : List TxTraceResult

section tracing

variable [Keccak] (app : App) (t : Tracing)

/-- The result of the tracer and the next log index. The tracer changes nothing of the execution.
Source: `traceTx` -/
def App.traceTx (txConfig : TxConfig) (tx : TxData) (commit : Bool) :
    EStateM TraceError Store (TraceResult × ℕ) := fun st =>
  match app.asMessage t.ctx tx t.cfg.baseFee with
  | none => .error .invalidSender st
  | some msg =>
    match chooseTracer t.tracers t.traceConfig txConfig with
    | .error err => .error err st
    | .ok tracer =>
      match app.applyMessageWithConfig t.ctx msg commit t.cfg txConfig st with
      | .error (.panic p) st' => .error (.panic p) st'
      | .error err st' => .error (.apply err) st'
      | .ok res st' =>
        match tracer.result t.tracers res ⟨t.ctx, msg, t.cfg, txConfig, st⟩ with
        | .error err => .error err st'
        | .ok result => .ok (result, txConfig.logIndex + res.logs.length) st'

/-- Source: `TraceTx`, the loop over the predecessors -/
def App.replayStep (s : Replay) (tx : TxData) (i : ℕ) : Except Panic Replay :=
  match app.asMessage t.ctx tx t.cfg.baseFee with
  | none => .ok s
  | some msg =>
    let txConfig := { s.txConfig with txHash := app.geth.txHash tx, txIndex := i }
    match app.applyMessageWithConfig t.ctx msg true t.cfg txConfig s.store with
    | .error (.panic p) _ => .error p
    | .error _ st => .ok ⟨txConfig, st⟩
    | .ok rsp st => .ok ⟨{ txConfig with logIndex := txConfig.logIndex + rsp.logs.length }, st⟩

/-- The transaction that `TraceTx` traces, after its predecessors.
Source: `TraceTx`, after the loop -/
def App.tracedCall (s : Replay) (tx : TxData) : Replay :=
  ⟨{ s.txConfig with txHash := app.geth.txHash tx, txIndex := s.txConfig.txIndex + 1 }, s.store⟩

/-- Source: `TraceTx` -/
def App.queryTraceTx (tracers : Tracers) (ctx : Context) (req : Option QueryTraceTxRequest) (st : Store) :
    Except TraceQueryError TraceResult :=
  match req with
  | none => .error .emptyRequest
  | some req =>
    match startTrace tracers ctx req.traceConfig req.blockNumber req.blockHash with
    | .error err => .error err
    | .ok t =>
      match Loop.forRange (app.replayStep t) req.predecessors (t.start st) with
      | .error p => .error (.panic p)
      | .ok s =>
        let call := app.tracedCall s req.msg
        match app.traceTx t call.txConfig req.msg false call.store with
        | .error (.panic p) _ => .error (.panic p)
        | .error err _ => .error (.trace err)
        | .ok (result, _) _ => .ok result

/-- The transaction of an iteration of `TraceBlock`.
Source: `TraceBlock`, the loop -/
def App.blockCall (s : Replay) (tx : TxData) (i : ℕ) : Replay :=
  ⟨{ s.txConfig with txHash := app.geth.txHash tx, txIndex := i }, s.store⟩

/-- The result of a transaction that could not be traced is not appended.
Source: `TraceBlock`, the loop -/
def App.blockTraceStep (s : BlockTrace) (tx : TxData) (i : ℕ) : Except Panic BlockTrace :=
  let call := app.blockCall s.toReplay tx i
  match app.traceTx t call.txConfig tx true call.store with
  | .error (.panic p) _ => .error p
  | .error _ st => .ok ⟨⟨call.txConfig, st⟩, s.results⟩
  | .ok (result, logIndex) st => .ok
      ⟨⟨{ call.txConfig with logIndex := logIndex }, st⟩, s.results ++ [⟨some result, none⟩]⟩

/-- Source: `TraceBlock` -/
def App.queryTraceBlock (tracers : Tracers) (ctx : Context) (req : Option QueryTraceBlockRequest) (st : Store) :
    Except TraceQueryError (List TxTraceResult) :=
  match req with
  | none => .error .emptyRequest
  | some req =>
    match startTrace tracers ctx req.traceConfig req.blockNumber req.blockHash with
    | .error err => .error err
    | .ok t =>
      match Loop.forRange (app.blockTraceStep t) req.txs ⟨t.start st, []⟩ with
      | .error p => .error (.panic p)
      | .ok s => .ok s.results

/-! ## Iterations -/

/-- `TraceBlock` before an iteration. -/
def App.blockTraceAt (txs : List TxData) (st : Store) (i : ℕ) : Except Panic BlockTrace :=
  Loop.forRange (app.blockTraceStep t) (txs.take i) ⟨t.start st, []⟩

/-- What an iteration of `TraceBlock` got from `traceTx`. -/
def App.blockOutcome (s : BlockTrace) (tx : TxData) (i : ℕ) :
    EStateM.Result TraceError Store (TraceResult × ℕ) :=
  let call := app.blockCall s.toReplay tx i
  app.traceTx t call.txConfig tx true call.store

/-- The entry that an outcome should have in the results: the result, or the error. -/
def TxTraceResult.ofOutcome : EStateM.Result TraceError Store (TraceResult × ℕ) → TxTraceResult
  | .ok (result, _) _ => ⟨some result, none⟩
  | .error err _ => ⟨none, some err⟩

/-- The transaction could be traced. -/
def Traced : EStateM.Result TraceError Store (TraceResult × ℕ) → Prop
  | .ok _ _ => True
  | .error _ _ => False

instance : DecidablePred Traced
  | .ok _ _ => .isTrue trivial
  | .error _ _ => .isFalse id

variable {app t}

/-- **An iteration** appends the result of its transaction, or nothing if it could not be traced. -/
theorem App.blockTraceStep_ok {s s' : BlockTrace} {tx : TxData} {i : ℕ}
    (h : app.blockTraceStep t s tx i = .ok s') :
    (Traced (app.blockOutcome t s tx i) →
      s'.results = s.results ++ [.ofOutcome (app.blockOutcome t s tx i)]) ∧
    (¬Traced (app.blockOutcome t s tx i) → s'.results = s.results) := by
  simp only [blockTraceStep] at h
  unfold blockOutcome
  split at h
  · cases h
  · rename_i err st _ heq
    obtain rfl := Except.ok.inj h
    rw [heq]
    exact ⟨fun htraced => htraced.elim, fun _ => rfl⟩
  · rename_i result logIndex st heq
    obtain rfl := Except.ok.inj h
    rw [heq]
    exact ⟨fun _ => rfl, fun hnot => (hnot trivial).elim⟩

/-- The trace of one more transaction is one step of the loop. -/
theorem App.blockTraceAt_succ {txs : List TxData} {st : Store} {i : ℕ} {tx : TxData} (htx : txs[i]? = some tx)
    {s : BlockTrace} (hs : app.blockTraceAt t txs st i = .ok s) :
    app.blockTraceAt t txs st (i + 1) = app.blockTraceStep t s tx i := by
  unfold blockTraceAt at hs ⊢
  rw [Loop.forRange_take_succ htx, hs]
  rfl

/-- The iteration before, of one that was reached. -/
theorem App.blockTraceAt_pred {txs : List TxData} {st : Store} {i : ℕ} (hi : i < txs.length) {s' : BlockTrace}
    (hs' : app.blockTraceAt t txs st (i + 1) = .ok s') : ∃ tx s, txs[i]? = some tx ∧
      app.blockTraceAt t txs st i = .ok s ∧ app.blockTraceStep t s tx i = .ok s' := by
  have htx : txs[i]? = some txs[i] := List.getElem?_eq_getElem hi
  have hs := hs'
  unfold blockTraceAt at hs
  rw [Loop.forRange_take_succ htx] at hs
  cases hbefore : app.blockTraceAt t txs st i with
  | error p =>
      unfold blockTraceAt at hbefore
      rw [hbefore] at hs
      cases hs
  | ok s =>
      rw [blockTraceAt_succ htx hbefore] at hs'
      exact ⟨txs[i], s, htx, rfl, hs'⟩

/-! ## The results -/

/-- The transactions before an iteration could be traced. -/
def App.TracedBefore (app : App) (t : Tracing) (txs : List TxData) (st : Store) (i : ℕ) : Prop :=
  ∀ j < i, ∀ tx s, txs[j]? = some tx → app.blockTraceAt t txs st j = .ok s → Traced (app.blockOutcome t s tx j)

/-- The results are those of the first transactions, or their errors, at their places. -/
structure App.Aligned (app : App) (t : Tracing) (txs : List TxData) (st : Store) (i : ℕ)
    (results : List TxTraceResult) : Prop where
  length : results.length = i
  entries : ∀ j < i, ∀ tx, txs[j]? = some tx → ∃ s, app.blockTraceAt t txs st j = .ok s ∧
    results[j]? = some (.ofOutcome (app.blockOutcome t s tx j))

/-- If all could be traced, the results are aligned. -/
theorem App.aligned_of_traced {txs : List TxData} {st : Store} {i : ℕ} (hi : i ≤ txs.length) {s : BlockTrace}
    (hs : app.blockTraceAt t txs st i = .ok s) (htraced : app.TracedBefore t txs st i) :
    app.Aligned t txs st i s.results := by
  induction i generalizing s with
  | zero =>
      obtain rfl := Except.ok.inj hs
      exact ⟨rfl, by omega⟩
  | succ i ih =>
      obtain ⟨tx, s₁, htx, hs₁, hstep⟩ := blockTraceAt_pred hi hs
      have haligned := ih (by omega) hs₁ fun j hj => htraced j (by omega)
      rw [(blockTraceStep_ok hstep).1 (htraced i (by omega) tx s₁ htx hs₁)]
      refine ⟨?_, ?_⟩
      · rw [List.length_append, haligned.length]
        rfl
      · intro j hj tx' htx'
        rcases Nat.lt_or_ge j i with hlt | hge
        · rw [List.getElem?_append_left (by rw [haligned.length]; exact hlt)]
          exact haligned.entries j hlt tx' htx'
        · obtain rfl : j = i := by omega
          obtain rfl := Option.some.inj (htx'.symm.trans htx)
          refine ⟨s₁, hs₁, ?_⟩
          rw [List.getElem?_append_right (by rw [haligned.length]), haligned.length, Nat.sub_self]
          rfl

/-- A transaction that could not be traced has no place in the results. -/
theorem App.length_of_not_traced {txs : List TxData} {st : Store} {i : ℕ} (hi : i ≤ txs.length) {s : BlockTrace}
    (hs : app.blockTraceAt t txs st i = .ok s) :
    s.results.length ≤ i ∧ (s.results.length = i → app.TracedBefore t txs st i) := by
  induction i generalizing s with
  | zero =>
      obtain rfl := Except.ok.inj hs
      exact ⟨Nat.le_refl 0, fun _ j hj => absurd hj (Nat.not_lt_zero j)⟩
  | succ i ih =>
      obtain ⟨tx, s₁, htx, hs₁, hstep⟩ := blockTraceAt_pred hi hs
      obtain ⟨hle, hall⟩ := ih (by omega) hs₁
      obtain ⟨happended, hdropped⟩ := blockTraceStep_ok hstep
      by_cases htraced : Traced (app.blockOutcome t s₁ tx i)
      · rw [happended htraced, List.length_append, List.length_singleton]
        refine ⟨by omega, ?_⟩
        intro hlength j hj tx' s' htx' hs'
        rcases Nat.lt_or_ge j i with hlt | hge
        · exact hall (by omega) j hlt tx' s' htx' hs'
        · obtain rfl : j = i := by omega
          obtain rfl := Option.some.inj (htx'.symm.trans htx)
          obtain rfl := Except.ok.inj (hs'.symm.trans hs₁)
          exact htraced
      · rw [hdropped htraced]
        exact ⟨by omega, fun hlength => absurd hlength (by omega)⟩

/-- The results of a query are those after the last iteration. -/
theorem App.queryTraceBlock_ok {tracers : Tracers} {ctx : Context} {req : QueryTraceBlockRequest} {st : Store}
    {t : Tracing} (hstart : startTrace tracers ctx req.traceConfig req.blockNumber req.blockHash = .ok t)
    {results : List TxTraceResult} (hresults : app.queryTraceBlock tracers ctx (some req) st = .ok results) :
    ∃ s, app.blockTraceAt t req.txs st req.txs.length = .ok s ∧ s.results = results := by
  simp only [queryTraceBlock, hstart] at hresults
  split at hresults
  · cases hresults
  · rename_i s hloop
    refine ⟨s, ?_, Except.ok.inj hresults⟩
    unfold blockTraceAt
    rw [List.take_length]
    exact hloop

/-- **The results of `TraceBlock` are aligned with the block**, if and only if every transaction could be
traced. -/
theorem blockTrace_aligned_iff {tracers : Tracers} {ctx : Context} {req : QueryTraceBlockRequest} {st : Store}
    {t : Tracing} (hstart : startTrace tracers ctx req.traceConfig req.blockNumber req.blockHash = .ok t)
    {results : List TxTraceResult} (hresults : app.queryTraceBlock tracers ctx (some req) st = .ok results) :
    app.Aligned t req.txs st req.txs.length results ↔ app.TracedBefore t req.txs st req.txs.length := by
  obtain ⟨s, hs, rfl⟩ := App.queryTraceBlock_ok hstart hresults
  constructor
  · intro haligned
    exact (App.length_of_not_traced (Nat.le_refl _) hs).2 haligned.length
  · exact App.aligned_of_traced (Nat.le_refl _) hs

end tracing

/-! ## Concrete blocks -/

/-- Tracers that return nothing. -/
def sampleTracers : Tracers where
  parseDuration _ := .ok 0
  new _ _ := .ok ()
  structLogs _ _ := "[]"
  getResult _ _ _ _ := .ok "\x7b\x7d"

/-- A transfer of nothing. -/
def tracedTransfer (nonce gas : UInt64) : TxData :=
  .legacy ⟨nonce, some 10, gas, some (.ofNat 20 2), some 0, [], [], [], []⟩

/-- The request for the block 11 with some transactions. -/
def sampleBlockRequest (txs : List TxData) : QueryTraceBlockRequest := ⟨txs, none, 11, ""⟩

/-- How it is traced. -/
def sampleTracing : Tracing where
  tracers := sampleTracers
  ctx := { sampleContext with blockHeight := 10, headerHash := [] }
  cfg := ⟨sampleContext.params, .ofNat 20 50, some 7⟩
  traceConfig := none

/-- The sample request is accepted. -/
theorem startTrace_sample :
    startTrace sampleTracers sampleContext none 11 "" = .ok sampleTracing := rfl

/-- Two transactions that can be traced. -/
theorem blockTrace_aligned_transfers :
    letI := sampleKeccak
    let app := sampleApp (.ofNat 20 1) transferCall transferCall
    let txs := [tracedTransfer 0 21000, tracedTransfer 1 30000]
    ∃ results, app.queryTraceBlock sampleTracers sampleContext (some (sampleBlockRequest txs)) emptyStore =
        .ok results ∧ results.length = 2 ∧ app.Aligned sampleTracing txs emptyStore 2 results := by
  let _ := sampleKeccak
  intro app txs
  have hloop : app.queryTraceBlock sampleTracers sampleContext (some (sampleBlockRequest txs)) emptyStore =
      .ok [⟨some (.execution 21000 false "" "[]"), none⟩, ⟨some (.execution 21000 false "" "[]"), none⟩] := by
    decide +kernel
  obtain ⟨s, hs, hresults⟩ := App.queryTraceBlock_ok startTrace_sample hloop
  have htraced := (App.length_of_not_traced (Nat.le_refl _) hs).2 (by rw [hresults]; rfl)
  exact ⟨_, hloop, rfl, (blockTrace_aligned_iff startTrace_sample hloop).mpr htraced⟩

/-- The first transaction has too little gas. Its error is dropped, and the only result is that of the second, in
the place of the first. -/
theorem blockTrace_drops_error :
    letI := sampleKeccak
    let app := sampleApp (.ofNat 20 1) transferCall transferCall
    let txs := [tracedTransfer 0 20000, tracedTransfer 0 30000]
    let results : List TxTraceResult := [⟨some (.execution 21000 false "" "[]"), none⟩]
    app.queryTraceBlock sampleTracers sampleContext (some (sampleBlockRequest txs)) emptyStore = .ok results ∧
      ¬app.Aligned sampleTracing txs emptyStore 2 results := by
  let _ := sampleKeccak
  intro app txs results
  refine ⟨by decide +kernel, ?_⟩
  intro haligned
  exact absurd haligned.length (by decide)

end Smartdoge.Evm
