import Smartdoge.Evm.Trace
import Smartdoge.Rpc.Events

/-!
# The debug namespace

`debug_traceTransaction` finds a transaction by the hash in its events, and asks `TraceTx` to trace it after the
Ethereum messages before it in its block. `debug_traceBlockByNumber` and `debug_traceBlockByHash` ask `TraceBlock`
to trace all Ethereum messages of a block. The queries are answered on the stores after the block before. The
keeper sets the height of its context to that of these stores, not to that of the block.

* **`trace_not_under_block`**: from the second block on, the virtual machine is never told the number of the block.
* `traced_number`: a contract that returns the block number, and what a trace says it returned.
* `sameForks_iff`: the forks are those of the block, if and only if none begins with it.
-/

set_option linter.unusedSectionVars false

namespace Smartdoge.Rpc

open Smartdoge.Lib
open Smartdoge.Lib.Writes
open Smartdoge.Statedb
open Smartdoge.Evm
open Smartdoge.Ante

/-! ## Tendermint -/

/-- Source: Tendermint `ResultTx` -/
structure ResultTx where
  height : ℤ
  /-- A `uint32`. -/
  index : ℕ
  txResult : TxResult
  /-- The messages that `TxDecoder` gives; `none` is its error. -/
  tx : Option (List Msg)

/-- Source: Tendermint `ResultBlock` -/
structure ResultBlock where
  height : ℤ
  /-- `BlockID.Hash`. -/
  hash : Bytes
  txs : List (Option (List Msg))

/-- The answers of the Tendermint node. Errors are texts; no block is `nil`. -/
structure TmClient where
  /-- `TxSearch` for the event `ethereum_tx` with a hash. -/
  txSearch : Hash → Except String (List ResultTx)
  block : ℤ → Except String (Option ResultBlock)
  blockByHash : Hash → Except String (Option ResultBlock)
  /-- Source: `rpc/backend/evm_backend.go` `BlockNumber` -/
  blockNumber : Except String ℤ

/-- The node returns the block that was asked for. -/
def TmClient.BlocksAtHeight (client : TmClient) : Prop :=
  ∀ height block, client.block height = .ok (some block) → block.height = height

/-- What ends a call of the namespace without a result. -/
inductive DebugError where
  | client (text : String)
  /-- "ethereum tx not found for hash %s". -/
  | txNotFound (hash : Hash)
  /-- "genesis is not traceable". -/
  | genesis
  /-- "failed to parse tx events: %s". -/
  | parseTxEvents (hash : Hash) (err : ParseError)
  /-- "ethereum tx not found in msgs: %s". -/
  | notFoundInMsgs (hash : Hash)
  /-- "transaction not included in block %v". -/
  | notIncluded (height : ℤ)
  /-- The error of `TxDecoder`. -/
  | decodeTx
  /-- "invalid transaction type %T". -/
  | invalidType
  /-- "block not found". -/
  | blockNotFound
  | query (err : TraceQueryError)
  | panic (p : Panic)
deriving DecidableEq

/-- A negative number stands for the latest block, as height 0 does, and 0 for the first block.
Source: `rpc/types/block.go` `BlockNumber.Int64` -/
def blockNumberInt64 (blockNum : ℤ) : ℤ :=
  if blockNum < 0 then 0 else if blockNum = 0 then 1 else blockNum

namespace TmClient

variable (client : TmClient)

/-- Source: `rpc/backend/evm_backend.go` `GetTxByEthHash` -/
def getTxByEthHash (hash : Hash) : Except DebugError ResultTx :=
  match client.txSearch hash with
  | .error text => .error (.client text)
  | .ok [] => .error (.txNotFound hash)
  | .ok (tx :: _) => .ok tx

/-- A height that is not positive stands for the latest block.
Source: `rpc/backend/evm_backend.go` `GetTendermintBlockByNumber` -/
def getTendermintBlockByNumber (blockNum : ℤ) : Except DebugError (Option ResultBlock) :=
  let height := blockNumberInt64 blockNum
  (if height ≤ 0 then client.blockNumber.bind client.block else client.block height).mapError .client

/-- Source: `rpc/backend/evm_backend.go` `GetTendermintBlockByHash` -/
def getTendermintBlockByHash (blockHash : Hash) : Except DebugError (Option ResultBlock) :=
  (client.blockByHash blockHash).mapError .client

end TmClient

/-! ## Requests -/

/-- The Ethereum messages of a transaction. -/
def ethereumMsgs (msgs : List Msg) : List TxData :=
  msgs.filterMap fun
    | .ethereumTx eth => some eth.data
    | .exec _ _ | .other _ _ => none

/-- The Ethereum messages of the transactions that can be decoded.
Source: `debug/api.go` `TraceTransaction` and `traceBlock`, the loop over the transactions -/
def decodedMsgs (txs : List (Option (List Msg))) : List TxData :=
  txs.flatMap fun
    | none => []
    | some msgs => ethereumMsgs msgs

/-- Source: `debug/api.go` `TraceTransaction`, `parsedTx` -/
def ResultTx.parsedTx (transaction : ResultTx) (hash : Hash) : Except DebugError ParsedTx :=
  match parseTxResult transaction.txResult with
  | .error err => .error (.parseTxEvents hash err)
  | .ok parsedTxs =>
    match parsedTxs.getTxByHash hash with
    | none => .error (.notFoundInMsgs hash)
    | some parsedTx => .ok parsedTx

/-- The request for a message of a transaction of a block.
Source: `debug/api.go` `TraceTransaction`, from `predecessors` to `traceTxRequest` -/
def ResultTx.request (transaction : ResultTx) (blk : ResultBlock) (msgIndex : ℕ) (config : Option TraceConfig) :
    Except DebugError QueryTraceTxRequest :=
  if blk.txs.length % 2 ^ 32 < transaction.index then .error (.notIncluded blk.height)
  else
    match transaction.tx with
    | none => .error .decodeTx
    | some msgs =>
      match goIndex msgs msgIndex with
      | .error p => .error (.panic p)
      | .ok (.ethereumTx eth) => .ok
          { msg := eth.data
            -- The messages of the transactions before, and those before in the same transaction.
            predecessors := decodedMsgs (blk.txs.take transaction.index) ++ ethereumMsgs (msgs.take msgIndex)
            traceConfig := config
            blockNumber := blk.height
            blockHash := bytes2Hex blk.hash }
      | .ok (.exec _ _) | .ok (.other _ _) => .error .invalidType

/-- The height of the stores, and the request.
Source: `debug/api.go` `TraceTransaction`, up to the query -/
def traceTransactionRequest (client : TmClient) (hash : Hash) (config : Option TraceConfig) :
    Except DebugError (ℤ × QueryTraceTxRequest) := do
  let transaction ← client.getTxByEthHash hash
  if transaction.height = 0 then .error .genesis
  else
    let blk ← client.getTendermintBlockByNumber transaction.height
    let parsedTx ← transaction.parsedTx hash
    match blk with
    | none => .error (.panic .nilDereference)
    | some blk =>
      let req ← transaction.request blk parsedTx.msgIndex config
      .ok (contextHeight transaction.height, req)

/-- The height of the stores, and the request, if the block has transactions.
Source: `debug/api.go` `traceBlock`, up to the query -/
def traceBlockRequest (height : ℤ) (config : Option TraceConfig) (block : ResultBlock) :
    Option (ℤ × QueryTraceBlockRequest) :=
  if block.txs = [] then none
  else some (contextHeight height,
    { txs := decodedMsgs block.txs
      traceConfig := config
      blockNumber := block.height
      blockHash := bytes2Hex block.hash })

/-! ## Calls -/

/-- Source: `debug/api.go` `API` -/
structure API where
  client : TmClient
  app : App
  tracers : Tracers
  /-- The context and the stores of the queries at a height: `ContextWithHeight`. -/
  atHeight : ℤ → Except String (Context × Store)

section calls

variable [Keccak] (api : API)

/-- Source: `debug/api.go` `TraceTransaction` -/
def API.traceTransaction (hash : Hash) (config : Option TraceConfig) : Except DebugError TraceResult := do
  let (height, req) ← traceTransactionRequest api.client hash config
  let (ctx, st) ← (api.atHeight height).mapError .client
  (api.app.queryTraceTx api.tracers ctx (some req) st).mapError .query

/-- Source: `debug/api.go` `traceBlock` -/
def API.traceBlock (height : ℤ) (config : Option TraceConfig) (block : ResultBlock) :
    Except DebugError (List TxTraceResult) :=
  match traceBlockRequest height config block with
  | none => .ok []
  | some (height, req) => do
    let (ctx, st) ← (api.atHeight height).mapError .client
    (api.app.queryTraceBlock api.tracers ctx (some req) st).mapError .query

/-- Source: `debug/api.go` `TraceBlockByNumber` -/
def API.traceBlockByNumber (height : ℤ) (config : Option TraceConfig) : Except DebugError (List TxTraceResult) :=
  if height = 0 then .error .genesis
  else do
    match ← api.client.getTendermintBlockByNumber height with
    | none => .error (.panic .nilDereference)
    | some block => api.traceBlock height config block

/-- Source: `debug/api.go` `TraceBlockByHash` -/
def API.traceBlockByHash (hash : Hash) (config : Option TraceConfig) : Except DebugError (List TxTraceResult) := do
  match ← api.client.getTendermintBlockByHash hash with
  | none => .error .blockNotFound
  | some block => api.traceBlock block.height config block

end calls

/-! ## What is requested -/

/-- A block that was asked for by a height has that height. -/
theorem TmClient.getTendermintBlockByNumber_height {client : TmClient} (hclient : client.BlocksAtHeight)
    {height : ℤ} (hpos : 0 < height) {blk : ResultBlock}
    (h : client.getTendermintBlockByNumber height = .ok (some blk)) : blk.height = height := by
  have hheight : blockNumberInt64 height = height := by
    unfold blockNumberInt64
    rw [if_neg (by omega), if_neg (by omega)]
  unfold getTendermintBlockByNumber at h
  rw [hheight] at h
  dsimp only at h
  rw [if_neg (by omega)] at h
  exact hclient height blk (mapError_ok.mp h)

/-- A request was made for a message of the transaction, at the height of the block. -/
theorem ResultTx.request_ok {transaction : ResultTx} {blk : ResultBlock} {msgIndex : ℕ}
    {config : Option TraceConfig} {req : QueryTraceTxRequest}
    (h : transaction.request blk msgIndex config = .ok req) :
    req.blockNumber = blk.height ∧ ∃ msgs eth, transaction.tx = some msgs ∧
      msgs[msgIndex]? = some (.ethereumTx eth) ∧ req.msg = eth.data ∧
      req.predecessors = decodedMsgs (blk.txs.take transaction.index) ++ ethereumMsgs (msgs.take msgIndex) := by
  unfold request at h
  split_ifs at h
  split at h
  · cases h
  · rename_i msgs hmsgs
    split at h
    · cases h
    · rename_i eth hindex
      cases h
      refine ⟨rfl, msgs, eth, hmsgs, ?_, rfl, rfl⟩
      exact goIndex_ok_iff.mp hindex
    · cases h
    · cases h

/-- A request to trace a transaction is made from the block it is in. -/
theorem traceTransactionRequest_ok {client : TmClient} {hash : Hash} {config : Option TraceConfig} {height : ℤ}
    {req : QueryTraceTxRequest} (h : traceTransactionRequest client hash config = .ok (height, req)) :
    ∃ transaction blk msgIndex, client.getTxByEthHash hash = .ok transaction ∧
      client.getTendermintBlockByNumber transaction.height = .ok (some blk) ∧
      transaction.request blk msgIndex config = .ok req := by
  unfold traceTransactionRequest at h
  obtain ⟨transaction, htransaction, h⟩ := except_bind_ok.mp h
  split_ifs at h
  obtain ⟨blk, hblk, h⟩ := except_bind_ok.mp h
  obtain ⟨parsedTx, -, h⟩ := except_bind_ok.mp h
  cases blk with
  | none => cases h
  | some blk =>
      obtain ⟨req', hreq, h⟩ := except_bind_ok.mp h
      cases h
      exact ⟨transaction, blk, parsedTx.msgIndex, htransaction, hblk, hreq⟩

/-- A request to trace a block has all Ethereum messages of its transactions. -/
theorem traceBlockRequest_eq {height : ℤ} {config : Option TraceConfig} {block : ResultBlock} {height' : ℤ}
    {req : QueryTraceBlockRequest} (h : traceBlockRequest height config block = some (height', req)) :
    req = ⟨decodedMsgs block.txs, config, block.height, bytes2Hex block.hash⟩ := by
  unfold traceBlockRequest at h
  split_ifs at h
  cases h
  rfl

/-- A list around one of its elements. -/
theorem take_cons_drop {α : Type} {xs : List α} {i : ℕ} {x : α} (h : xs[i]? = some x) :
    xs.take i ++ x :: xs.drop (i + 1) = xs := by
  obtain ⟨hi, rfl⟩ := List.getElem?_eq_some_iff.mp h
  rw [← List.drop_eq_getElem_cons hi, List.take_append_drop]

/-- The Ethereum messages before and after one of them. -/
theorem ethereumMsgs_split {msgs : List Msg} {i : ℕ} {eth : MsgEthereumTx}
    (h : msgs[i]? = some (.ethereumTx eth)) :
    ethereumMsgs msgs = ethereumMsgs (msgs.take i) ++ eth.data :: ethereumMsgs (msgs.drop (i + 1)) := by
  conv_lhs => rw [← take_cons_drop h]
  simp [ethereumMsgs]

/-! ## The block number and the rules -/

/-- `BlockNumber: big.NewInt(ctx.BlockHeight())`.
Source: `state_transition.go` `NewEVM` -/
def evmBlockNumber (ctx : Context) : ℤ := ctx.blockHeight

/-- Two contexts in which messages are executed under the same block number and the same rules. -/
structure SameRules [Keccak] (app : App) (traced original : Context) : Prop where
  blockNumber : evmBlockNumber traced = evmBlockNumber original
  signer : ∀ tx, app.geth.sender traced tx = app.geth.sender original tx
  intrinsicGas : ∀ msg isContractCreation,
    app.getEthIntrinsicGas traced msg isContractCreation = app.getEthIntrinsicGas original msg isContractCreation
  accessList : ∀ msg stateDB, app.prepare traced msg stateDB = app.prepare original msg stateDB
  refundQuotient : traced.refundQuotient = original.refundQuotient

/-- A block is traced in the context of the block before it. -/
theorem contextHeight_of_two_le {blockNumber : ℤ} (h : 2 ≤ blockNumber) :
    contextHeight blockNumber = blockNumber - 1 := by
  unfold contextHeight
  rw [if_neg (by omega)]

/-- The context that a request is traced in. -/
theorem startTrace_ctx {tracers : Tracers} {ctx : Context} {config : Option TraceConfig} {blockNumber : ℤ}
    {blockHash : String} {t : Tracing} (h : startTrace tracers ctx config blockNumber blockHash = .ok t) :
    t.ctx = ctx.forTrace blockNumber blockHash := by
  unfold startTrace at h
  split at h
  · cases h
  · dsimp only at h
    split at h <;> cases h
    rfl

/-- The query for a block is executed under the number before. -/
theorem evmBlockNumber_of_startTrace {tracers : Tracers} {ctx : Context} {config : Option TraceConfig} {N : ℤ}
    (hN : 2 ≤ N) {blockHash : String} {t : Tracing} (h : startTrace tracers ctx config N blockHash = .ok t) :
    evmBlockNumber t.ctx = N - 1 := by
  rw [startTrace_ctx h]
  exact contextHeight_of_two_le hN

/-! ## A concrete block -/

/-- The call of a contract that returns the number of the block. -/
def numberCall (ctx : Context) (msg : Message) (gas : UInt64) (stateDB : StateDB Store) : VmOutcome :=
  { transferCall msg gas stateDB with ret := [UInt8.ofNat (evmBlockNumber ctx).toNat] }

/-- The application with this contract. -/
def numberApp : App :=
  let app := sampleApp (.ofNat 20 1) transferCall transferCall
  { app with geth := { app.geth with call := numberCall } }

/-- The messages of the only transaction of block 11. -/
def sampleMsgs : List Msg := [.ethereumTx ⟨tracedTransfer 0 21000, none, ""⟩]

/-- Block 11. -/
def sampleBlock : ResultBlock := ⟨11, [], [some sampleMsgs]⟩

/-- Its transaction, with the announcement of the ante handler. -/
def sampleTransaction : ResultTx where
  height := 11
  index := 0
  txResult := { events := [announceEvent (hashHex (.zero 32), 0)] }
  tx := some sampleMsgs

/-- A node that has only this block. -/
def sampleClient : TmClient where
  txSearch hash := .ok (if hash = .zero 32 then [sampleTransaction] else [])
  block height := if height = 11 then .ok (some sampleBlock) else .error "height is not available"
  blockByHash _ := .ok none
  blockNumber := .ok 11

/-- The sample client answers with blocks of the heights that it is asked for. -/
theorem sampleClient_blocksAtHeight : sampleClient.BlocksAtHeight := by
  intro height block h
  unfold sampleClient at h
  dsimp only at h
  split_ifs at h with heq
  cases h
  exact heq.symm

/-- Its request to trace the transfer. -/
theorem traceTransactionRequest_sample : traceTransactionRequest sampleClient (.zero 32) none =
    .ok (10, ⟨tracedTransfer 0 21000, [], none, 11, ""⟩) := by
  decide +kernel

/-- Its request to trace the block. -/
theorem traceBlockRequest_sample : traceBlockRequest 11 none sampleBlock =
    some (10, ⟨[tracedTransfer 0 21000], none, 11, ""⟩) := by
  decide +kernel

/-! ## The rules of a trace -/

section rules

variable [Keccak] {app : App} {original : Context} {N : ℤ}

/-- The rules of a trace are not those of the block, as the EVM sees another block number. -/
theorem not_sameRules_of_startTrace (hN : 2 ≤ N) (horiginal : original.blockHeight = N) {tracers : Tracers}
    {ctx : Context} {config : Option TraceConfig} {blockHash : String} {t : Tracing}
    (h : startTrace tracers ctx config N blockHash = .ok t) : ¬SameRules app t.ctx original := by
  intro hsame
  have htraced : N - 1 = evmBlockNumber original := by
    rw [← evmBlockNumber_of_startTrace hN h]
    exact hsame.blockNumber
  have hblock : evmBlockNumber original = N := horiginal
  omega

/-- **Traces are not replayed under the block.** Whatever was executed in a block from the second on, the traces
that the namespace asks for are executed under the number of the block before. -/
theorem trace_not_under_block {client : TmClient} (hclient : client.BlocksAtHeight) (hN : 2 ≤ N)
    (horiginal : original.blockHeight = N) :
    (∀ {hash config height req transaction}, traceTransactionRequest client hash config = .ok (height, req) →
      client.getTxByEthHash hash = .ok transaction → transaction.height = N →
      ∀ {tracers ctx t}, startTrace tracers ctx req.traceConfig req.blockNumber req.blockHash = .ok t →
        evmBlockNumber t.ctx = N - 1 ∧ ¬SameRules app t.ctx original) ∧
    (∀ {height config block height' req}, traceBlockRequest height config block = some (height', req) →
      block.height = N →
      ∀ {tracers ctx t}, startTrace tracers ctx req.traceConfig req.blockNumber req.blockHash = .ok t →
        evmBlockNumber t.ctx = N - 1 ∧ ¬SameRules app t.ctx original) := by
  constructor
  · intro hash config height req transaction hreq htransaction hheight tracers ctx t hstart
    obtain ⟨transaction', blk, msgIndex, htransaction', hblk, hreq⟩ := traceTransactionRequest_ok hreq
    rw [htransaction] at htransaction'
    cases htransaction'
    have hblkHeight := TmClient.getTendermintBlockByNumber_height hclient (by omega) hblk
    rw [(ResultTx.request_ok hreq).1, hblkHeight, hheight] at hstart
    exact ⟨evmBlockNumber_of_startTrace hN hstart, not_sameRules_of_startTrace hN horiginal hstart⟩
  · intro height config block height' req hreq hheight tracers ctx t hstart
    rw [traceBlockRequest_eq hreq] at hstart
    subst hheight
    exact ⟨evmBlockNumber_of_startTrace hN hstart, not_sameRules_of_startTrace hN horiginal hstart⟩

end rules

/-- The requests for this block. -/
theorem trace_not_under_block_eleven :
    letI := sampleKeccak
    let original := { sampleContext with blockHeight := 11 }
    (∃ height req, traceTransactionRequest sampleClient (.zero 32) none = .ok (height, req) ∧
      startTrace sampleTracers sampleContext req.traceConfig req.blockNumber req.blockHash = .ok sampleTracing ∧
      ¬SameRules numberApp sampleTracing.ctx original) ∧
    (∃ height req, traceBlockRequest 11 none sampleBlock = some (height, req) ∧
      startTrace sampleTracers sampleContext req.traceConfig req.blockNumber req.blockHash = .ok sampleTracing ∧
      ¬SameRules numberApp sampleTracing.ctx original) := by
  let _ := sampleKeccak
  intro original
  obtain ⟨htx, hblock⟩ := trace_not_under_block sampleClient_blocksAtHeight (by decide)
    (rfl : original.blockHeight = 11)
  exact ⟨⟨_, _, traceTransactionRequest_sample, startTrace_sample,
      (htx traceTransactionRequest_sample rfl rfl startTrace_sample).2⟩,
    ⟨_, _, traceBlockRequest_sample, startTrace_sample,
      (hblock traceBlockRequest_sample rfl startTrace_sample).2⟩⟩

/-- The contract returned 11 when it was executed in block 11. The trace says that it returned 10. -/
theorem traced_number :
    letI := sampleKeccak
    let api : API := ⟨sampleClient, numberApp, sampleTracers, fun _ => .ok (sampleContext, emptyStore)⟩
    let original := { sampleContext with blockHeight := 11 }
    (∃ res st, numberApp.applyTransaction original (tracedTransfer 0 21000) emptyStore = .ok res st ∧
      bytes2Hex res.ret = "0b") ∧
    api.traceTransaction (.zero 32) none = .ok (.execution 21000 false "0a" "[]") ∧
    api.traceBlockByNumber 11 none = .ok [⟨some (.execution 21000 false "0a" "[]"), none⟩] ∧
    ¬SameRules numberApp sampleTracing.ctx original := by
  let _ := sampleKeccak
  intro api original
  obtain ⟨res, st, happly, hret⟩ := exists_of_endsWith (by decide +kernel :
    endsWith (numberApp.applyTransaction original (tracedTransfer 0 21000) emptyStore)
      (fun res _ => decide (bytes2Hex res.ret = "0b")) = true)
  refine ⟨⟨res, st, happly, of_decide_eq_true hret⟩, by decide +kernel, by decide +kernel, ?_⟩
  exact not_sameRules_of_startTrace (by decide) rfl startTrace_sample

/-! ## Forks -/

/-- The forks that the modelled code asks for. -/
def forkBlocks (ctx : Context) : List (Option ℤ) :=
  let config := ctx.params.chainConfig
  [config.homesteadBlock, config.istanbulBlock, config.berlinBlock, config.londonBlock].map getBlockValue

/-- Which of them are active. -/
def activeForks (ctx : Context) : List Bool := (forkBlocks ctx).map fun fork => isForked fork ctx.blockHeight

/-- A fork is active in a block and the one before alike, unless it activates in that block. -/
theorem isForked_pred_iff {fork : Option ℤ} {N : ℤ} :
    isForked fork (N - 1) = isForked fork N ↔ fork ≠ some N := by
  cases fork with
  | none => simp [isForked]
  | some block =>
      simp only [isForked, ne_eq, Option.some.injEq, decide_eq_decide]
      omega

/-- **The forks of a trace are those of the block, if and only if none begins with the block.** -/
theorem sameForks_iff {tracers : Tracers} {ctx : Context} {config : Option TraceConfig} {N : ℤ} (hN : 2 ≤ N)
    {blockHash : String} {t : Tracing} (h : startTrace tracers ctx config N blockHash = .ok t) :
    activeForks t.ctx = activeForks { ctx with blockHeight := N } ↔ some N ∉ forkBlocks ctx := by
  have htraced : activeForks t.ctx = (forkBlocks ctx).map fun fork => isForked fork (N - 1) := by
    rw [startTrace_ctx h, ← contextHeight_of_two_le hN]
    rfl
  have hblock : activeForks { ctx with blockHeight := N } = (forkBlocks ctx).map fun fork => isForked fork N := rfl
  rw [htraced, hblock, List.map_inj_left]
  simp only [isForked_pred_iff]
  exact ⟨fun hne hmem => hne _ hmem rfl, fun hnot fork hmem heq => hnot (heq ▸ hmem)⟩

end Smartdoge.Rpc
