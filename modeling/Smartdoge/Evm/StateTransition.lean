import Smartdoge.Evm.Context
import Smartdoge.Evm.Keeper
import Smartdoge.Statedb.Quiet

/-!
# Executing a transaction

`x/evm/keeper/state_transition.go`: `ApplyTransaction` runs the message of a transaction in a fresh
`StateDB`, commits it, calls the hooks, pays the unused gas back and updates the transient store.
With hooks the message runs in a cache context, which is a copy of the stores that takes their place
only if neither the virtual machine nor a hook failed.

Gas that is metered by the SDK is not kept; `ResetGasMeterAndConsumeGas` replaces it anyway.

* `execute_call`, `execute_create`: an execution is a run of operations on a fresh `StateDB`.
* `process_ok`: the four ways in which the message and the hooks can end.
* `applyTransaction_ok`: what a call that returned did, in its steps.
-/

set_option linter.unusedSectionVars false

namespace Smartdoge.Evm

open Smartdoge.Lib
open Smartdoge.Lib.Writes
open Smartdoge.Statedb

/-- Why `ApplyTransaction` returned an error. -/
inductive TxError where
  /-- "failed to obtain coinbase address". -/
  | noValidatorFound
  /-- "failed to return ethereum transaction as core message". -/
  | invalidSender
  /-- `types.ErrCreateDisabled`. -/
  | createDisabled
  /-- `types.ErrCallDisabled`. -/
  | callDisabled
  /-- "intrinsic gas failed". -/
  | intrinsicGasFailed
  /-- `core.ErrIntrinsicGas`. -/
  | intrinsicGas
  /-- `types.ErrGasOverflow`, "apply message". -/
  | gasOverflow
  /-- "failed to commit stateDB". -/
  | commit (err : CommitError)
  /-- `types.ErrInvalidRefund`. -/
  | invalidRefund
  /-- "fee collector account failed to refund fees". -/
  | refund (err : KeeperError)
  /-- `types.ErrGasOverflow`, "transient gas used". -/
  | transientGasOverflow
  | panic (p : Panic)
deriving DecidableEq

/-- Source: `types/tx.pb.go` `MsgEthereumTxResponse`; the hash is text there -/
structure Response where
  hash : Hash
  logs : List Log
  ret : Bytes
  vmError : String
  gasUsed : UInt64
deriving DecidableEq

/-- Source: `types/tx.go` `Failed` -/
def Response.failed (res : Response) : Bool := res.vmError ≠ ""

/-- Source: `types/errors.go` `ErrPostTxProcessing` -/
def errPostTxProcessing : String := "failed to execute post processing"

/-- Source: `types/config.go` `EVMConfig`; the rules of the chain are in the context -/
structure EvmConfig where
  params : Params
  coinBase : Address
  baseFee : Option ℕ
deriving DecidableEq

/-- A step of a transaction, over the stores. -/
abbrev TxM := EStateM TxError Store

/-- Source: `GasToRefund` -/
def gasToRefund (availableRefund gasConsumed refundQuotient : UInt64) : UInt64 :=
  let refund := gasConsumed / refundQuotient
  if availableRefund < refund then availableRefund else refund

/-- `params.RefundQuotient` before the London fork, `params.RefundQuotientEIP3529` after it. -/
def Context.refundQuotient (ctx : Context) : UInt64 := if ctx.isLondon then 5 else 2

/-- Source: `EVMConfig` -/
def Context.evmConfig (ctx : Context) : Except TxError EvmConfig :=
  match ctx.coinbase with
  | none => .error .noValidatorFound
  | some coinbase => .ok ⟨ctx.params, coinbase, ctx.getBaseFee⟩

/-- The configuration has the base fee of the context. -/
theorem Context.evmConfig_baseFee (ctx : Context) {cfg : EvmConfig} (h : ctx.evmConfig = .ok cfg) :
    cfg.baseFee = ctx.getBaseFee := by
  unfold evmConfig at h
  split at h
  · exact absurd h (by simp)
  · rw [← Except.ok.inj h]

/-- Source: `TxConfig` -/
def Store.txConfig (st : Store) (ctx : Context) (txHash : Hash) : TxConfig :=
  ⟨bytesToHash ctx.headerHash, txHash, st.transient.txIndex, st.transient.logSize⟩

/-- Contract creation or call disabled through governance.
Source: `ApplyMessageWithConfig`, the first check -/
def checkEnabled (params : Params) (msg : Message) : Except TxError PUnit :=
  if !params.enableCreate && msg.toAddr.isNone then .error .createDisabled
  else if !params.enableCall && msg.toAddr.isSome then .error .callDisabled
  else .ok ()

/-- What is charged for the refund counter and returned to the sender is settled last: the gas used
before it.
Source: `ApplyMessageWithConfig`, `// calculate gas refund` -/
def temporaryGasUsed (ctx : Context) (gas leftoverGas refund : UInt64) : Except TxError UInt64 :=
  if gas < leftoverGas then .error .gasOverflow
  else
    let used := gas - leftoverGas
    let refund := gasToRefund refund used ctx.refundQuotient
    if used < refund then .error .gasOverflow else .ok (used - refund)

/-- A minimum of gas is charged, a share of the gas limit.
Source: `ApplyMessageWithConfig`, the end -/
def chargedGas (ctx : Context) (gas temporaryGasUsed : UInt64) : Except Panic UInt64 :=
  let minimumGasUsed := (Dec.ofInt (goInt64 gas)).mul ctx.feeMarketParams.minGasMultiplier
  intUint64 (minimumGasUsed.max (Dec.ofInt (goInt64 temporaryGasUsed))).truncateInt

section transition

variable [Keccak] (app : App) (ctx : Context)

/-! ## Messages -/

/-- `tx.AsMessage(signer, baseFee)`. -/
def App.asMessage (tx : TxData) (baseFee : Option ℕ) : Option Message :=
  (app.geth.sender ctx tx).map fun sender => tx.asMessage sender baseFee

/-- Source: `GetEthIntrinsicGas` -/
def App.getEthIntrinsicGas (msg : Message) (isContractCreation : Bool) : Option UInt64 :=
  app.geth.intrinsicGas msg.data msg.accessList isContractCreation ctx.isHomestead ctx.isIstanbul

/-- The gas that is left for the execution.
Source: `ApplyMessageWithConfig`, the intrinsic gas -/
def App.executionGas (msg : Message) : Except TxError UInt64 :=
  match app.getEthIntrinsicGas ctx msg msg.toAddr.isNone with
  | none => .error .intrinsicGasFailed
  | some intrinsicGas =>
    if msg.gas < intrinsicGas then .error .intrinsicGas else .ok (msg.gas - intrinsicGas)

/-- Source: `ApplyMessageWithConfig`, `rules.IsBerlin` -/
def App.prepare (msg : Message) (stateDB : StateDB Store) : Except Panic (StateDB Store) :=
  if ctx.isBerlin then
    stateDB.prepareAccessList msg.sender msg.toAddr (app.geth.activePrecompiles ctx) msg.accessList
  else .ok stateDB

/-- Run the virtual machine. Where a contract is created, the nonce of the sender is taken over from
it: reset to the nonce of the message before, and set to the next one after, whatever happened.
Source: `ApplyMessageWithConfig`, `if contractCreation` -/
def App.runEvm (msg : Message) (gas : UInt64) (stateDB : StateDB Store) :
    Except Panic (StateDB Store × VmOutcome) :=
  match msg.toAddr with
  | none => do
    let stateDB := stateDB.setNonce msg.sender msg.nonce
    let out := app.geth.create ctx msg gas stateDB
    let stateDB ← runOps stateDB out.ops
    .ok (stateDB.setNonce msg.sender (msg.nonce + 1), out)
  | some _ => do
    let out := app.geth.call ctx msg gas stateDB
    let stateDB ← runOps stateDB out.ops
    .ok (stateDB, out)

/-- The execution of a message on a fresh `StateDB`.
Source: `ApplyMessageWithConfig`, from `statedb.New` to the call of the virtual machine -/
def App.execute (msg : Message) (gas : UInt64) (txConfig : TxConfig) (st : Store) :
    Except Panic (StateDB Store × VmOutcome) := do
  let stateDB ← app.prepare ctx msg (StateDB.new st (evmKeeper app.env) txConfig)
  app.runEvm ctx msg gas stateDB

/-- Source: `ApplyMessageWithConfig` -/
def App.applyMessageWithConfig (msg : Message) (commit : Bool) (cfg : EvmConfig)
    (txConfig : TxConfig) : TxM Response := do
  ofExcept (checkEnabled cfg.params msg)
  let gas ← ofExcept (app.executionGas ctx msg)
  let st ← get
  let (stateDB, out) ← ofExcept ((app.execute ctx msg gas txConfig st).mapError .panic)
  let used ← ofExcept (temporaryGasUsed ctx msg.gas out.leftoverGas stateDB.refund)
  -- The dirty states are either committed or discarded after return.
  (if commit then EStateM.adaptExcept .commit stateDB.commit else pure () : TxM PUnit)
  let gasUsed ← ofExcept ((chargedGas ctx msg.gas used).mapError .panic)
  pure
    { hash := txConfig.txHash
      logs := stateDB.logs
      ret := out.ret
      vmError := out.vmErr.getD ""
      gasUsed := gasUsed }

/-! ## Transactions -/

/-- The receipt before the hooks. The bloom filter is that of the block so far with the new logs.
Source: `ApplyTransaction`, `receipt` -/
def App.newReceipt (tx : TxData) (msg : Message) (txConfig : TxConfig) (res : Response)
    (st : Store) : Receipt where
  type := tx.txType
  cumulativeGasUsed := app.cumulativeGasUsed ctx res.gasUsed
  bloom := if res.logs = [] then 0 else st.transient.bloom ||| app.geth.logsBloom res.logs
  logs := res.logs
  txHash := txConfig.txHash
  contractAddress :=
    match msg.toAddr with
    | none => app.geth.createAddress msg.sender msg.nonce
    | some _ => .zero 20
  gasUsed := res.gasUsed
  blockHash := txConfig.blockHash
  blockNumber := ctx.blockHeight
  transactionIndex := txConfig.txIndex
  successful := !res.failed

/-- Run the message and the hooks. With hooks the message runs on a copy of the stores, which is
kept only if nothing failed. A hook that fails may have changed the receipt before.
Source: `ApplyTransaction`, from `CacheContext` to `RefundGas` -/
def App.process (tx : TxData) (msg : Message) (cfg : EvmConfig) (txConfig : TxConfig) :
    TxM (Response × Receipt) := fun st =>
  match app.applyMessageWithConfig ctx msg true cfg txConfig st with
  | .error err tmp => .error err (if app.hooks.isSome then st else tmp)
  | .ok res tmp =>
    match app.hooks with
    | none => .ok (res, app.newReceipt ctx tx msg txConfig res tmp) tmp
    | some hooks =>
      let receipt := app.newReceipt ctx tx msg txConfig res st
      if res.failed then .ok (res, receipt) st
      else
        match multiPostTxProcessing hooks msg (tmp, receipt) with
        | .error _ (_, receipt) => .ok ({ res with vmError := errPostTxProcessing }, receipt) st
        | .ok _ (tmp, receipt) => .ok ({ res with logs := receipt.logs }, receipt) tmp

/-- Source: `RefundGas` -/
def App.refundGas (msg : Message) (leftoverGas : UInt64) : TxM PUnit :=
  let remaining : ℤ := leftoverGas.toNat * msg.gasPrice
  if remaining < 0 then throw .invalidRefund
  else if 0 < remaining then do
    let amount ← ofExcept ((newIntFromBigInt remaining).mapError .panic)
    EStateM.adaptExcept .refund
      (sendCoinsFromModuleToAccount app.env .feeCollector msg.sender amount.toNat)
  else pure ()

/-- Source: `ApplyTransaction`, `SetBlockBloomTransient` to `SetTxIndexTransient` -/
def publish (txConfig : TxConfig) (receipt : Receipt) (st : Store) : Store :=
  let transient :=
    if receipt.logs = [] then st.transient
    else { st.transient with
      bloom := receipt.bloom
      logSize := txConfig.logIndex + receipt.logs.length }
  { st with transient := { transient with txIndex := txConfig.txIndex + 1 } }

/-- Source: `AddTransientGasUsed`, then `ResetGasMeterAndConsumeGas` -/
def addTransientGasUsed (gasUsed : UInt64) : TxM PUnit := fun st =>
  let result := st.transient.gasUsed + gasUsed
  if result < gasUsed then .error .transientGasOverflow st
  else .ok () { st with
    transient := { st.transient with gasUsed := result }
    gasConsumed := result }

/-- Source: `ApplyTransaction` -/
def App.applyTransaction (tx : TxData) : TxM Response := do
  let cfg ← ofExcept ctx.evmConfig
  let st ← get
  let txConfig := st.txConfig ctx (app.geth.txHash tx)
  let msg ← ofExcept ((app.asMessage ctx tx cfg.baseFee).elim (.error .invalidSender) .ok)
  let (res, receipt) ← app.process ctx tx msg cfg txConfig
  app.refundGas msg (msg.gas - res.gasUsed)
  modify (publish txConfig receipt)
  addTransientGasUsed res.gasUsed
  pure res

/-- The Ethereum messages of a Cosmos transaction, executed one after the other. An error ends the
transaction.
Source: `msg_server.go` `EthereumTx`, which the SDK calls for every message -/
def App.deliver (txs : List TxData) : TxM (List Response) := txs.mapM (app.applyTransaction ctx)

/-! ## Inversion -/

/-- The operations that prepare the access list. -/
def App.prepareOps (msg : Message) : List Op :=
  if ctx.isBerlin then
    accessListOps msg.sender msg.toAddr (app.geth.activePrecompiles ctx) msg.accessList
  else []

/-- The state is prepared by operations of the EVM. -/
theorem App.prepare_run (msg : Message) (s : StateDB Store) :
    app.prepare ctx msg s = runOps s (app.prepareOps ctx msg) := by
  unfold prepare prepareOps
  split_ifs
  · exact prepareAccessList_run s _ _ _ _
  · rfl

/-- They only fill the access list. -/
theorem App.prepareOps_quiet {msg : Message} {caller : Option Address} {op : Op}
    (h : op ∈ app.prepareOps ctx msg) : op.isQuiet caller = true := by
  unfold prepareOps at h
  split_ifs at h
  · exact accessListOps_quiet h
  · simp at h

variable {app ctx}

/-- An execution prepares a fresh state and runs the EVM on it. -/
theorem App.execute_ok {msg : Message} {gas : UInt64} {txConfig : TxConfig} {st : Store}
    {s : StateDB Store} {out : VmOutcome} (h : app.execute ctx msg gas txConfig st = .ok (s, out)) :
    ∃ s₀, runOps (StateDB.new st (evmKeeper app.env) txConfig) (app.prepareOps ctx msg) = .ok s₀ ∧
      app.runEvm ctx msg gas s₀ = .ok (s, out) := by
  obtain ⟨s₀, h₀, h₁⟩ := except_bind_ok.mp h
  rw [prepare_run] at h₀
  exact ⟨s₀, h₀, h₁⟩

/-- A message with a recipient is a call. -/
theorem App.execute_call {msg : Message} {gas : UInt64} {txConfig : TxConfig} {st : Store}
    {s : StateDB Store} {out : VmOutcome} {dst : Address} (hto : msg.toAddr = some dst)
    (h : app.execute ctx msg gas txConfig st = .ok (s, out)) :
    ∃ s₀, runOps (StateDB.new st (evmKeeper app.env) txConfig) (app.prepareOps ctx msg) = .ok s₀ ∧
      out = app.geth.call ctx msg gas s₀ ∧ runOps s₀ out.ops = .ok s := by
  obtain ⟨s₀, h₀, h₁⟩ := execute_ok h
  simp only [runEvm, hto] at h₁
  obtain ⟨s₁, h₂, h₃⟩ := except_bind_ok.mp h₁
  simp only [Except.ok.injEq, Prod.mk.injEq] at h₃
  obtain ⟨rfl, rfl⟩ := h₃
  exact ⟨s₀, h₀, rfl, h₂⟩

/-- A message without one creates a contract, with the nonce of the sender set before. -/
theorem App.execute_create {msg : Message} {gas : UInt64} {txConfig : TxConfig} {st : Store}
    {s : StateDB Store} {out : VmOutcome} (hto : msg.toAddr = none)
    (h : app.execute ctx msg gas txConfig st = .ok (s, out)) :
    ∃ s₀ s₁, runOps (StateDB.new st (evmKeeper app.env) txConfig) (app.prepareOps ctx msg) = .ok s₀ ∧
      out = app.geth.create ctx msg gas (s₀.setNonce msg.sender msg.nonce) ∧
      runOps (s₀.setNonce msg.sender msg.nonce) out.ops = .ok s₁ ∧
      s = s₁.setNonce msg.sender (msg.nonce + 1) := by
  obtain ⟨s₀, h₀, h₁⟩ := execute_ok h
  simp only [runEvm, hto] at h₁
  obtain ⟨s₁, h₂, h₃⟩ := except_bind_ok.mp h₁
  simp only [Except.ok.injEq, Prod.mk.injEq] at h₃
  obtain ⟨rfl, rfl⟩ := h₃
  exact ⟨s₀, s₁, h₀, rfl, h₂, rfl⟩

/-- **An execution is a run** of the operations that prepare the access list, of those of the virtual
machine, and for a creation of two `SetNonce` of the sender. -/
theorem App.execute_run {msg : Message} {gas : UInt64} {txConfig : TxConfig} {st : Store}
    {s : StateDB Store} {out : VmOutcome} (h : app.execute ctx msg gas txConfig st = .ok (s, out)) :
    (∃ s₀, out = app.geth.create ctx msg gas s₀ ∨ out = app.geth.call ctx msg gas s₀) ∧
    ∃ ops, runOps (StateDB.new st (evmKeeper app.env) txConfig) ops = .ok s ∧
      ∀ op ∈ ops, op ∈ app.prepareOps ctx msg ∨ op ∈ out.ops ∨
        ∃ nonce, msg.toAddr = none ∧ op = .setNonce msg.sender nonce := by
  cases hto : msg.toAddr with
  | some dst =>
      obtain ⟨s₀, h₀, hout, h₁⟩ := execute_call hto h
      refine ⟨⟨s₀, Or.inr hout⟩, app.prepareOps ctx msg ++ out.ops, ?_, ?_⟩
      · exact runOps_append.mpr ⟨s₀, h₀, h₁⟩
      · intro op hop
        rcases List.mem_append.mp hop with hop | hop
        · exact Or.inl hop
        · exact Or.inr (Or.inl hop)
  | none =>
      obtain ⟨s₀, s₁, h₀, hout, h₁, rfl⟩ := execute_create hto h
      refine ⟨⟨_, Or.inl hout⟩, app.prepareOps ctx msg ++ .setNonce msg.sender msg.nonce ::
        (out.ops ++ [.setNonce msg.sender (msg.nonce + 1)]), ?_, ?_⟩
      · refine runOps_append.mpr ⟨s₀, h₀, runOps_cons.mpr ⟨_, rfl, ?_⟩⟩
        exact runOps_append.mpr ⟨s₁, h₁, rfl⟩
      · intro op hop
        simp only [List.mem_append, List.mem_cons, List.not_mem_nil, or_false] at hop
        rcases hop with hop | rfl | hop | rfl
        · exact Or.inl hop
        · exact Or.inr (Or.inr ⟨_, rfl, rfl⟩)
        · exact Or.inr (Or.inl hop)
        · exact Or.inr (Or.inr ⟨_, rfl, rfl⟩)

/-- What `ApplyMessageWithConfig` did when it returned and committed. -/
structure App.Applied (app : App) (ctx : Context) (msg : Message) (txConfig : TxConfig)
    (st st' : Store) (res : Response) (gas : UInt64) (s : StateDB Store) (out : VmOutcome)
    (used : UInt64) : Prop where
  executionGas : app.executionGas ctx msg = .ok gas
  execute : app.execute ctx msg gas txConfig st = .ok (s, out)
  gasUsed : temporaryGasUsed ctx msg.gas out.leftoverGas s.refund = .ok used
  commit : s.commit st = .ok () st'
  charged : chargedGas ctx msg.gas used = .ok res.gasUsed
  vmError : res.vmError = out.vmErr.getD ""
  logs : res.logs = s.logs
  hash : res.hash = txConfig.txHash

/-- **A message that was applied and committed** is one that was `Applied`. -/
theorem App.applyMessageWithConfig_ok {msg : Message} {cfg : EvmConfig} {txConfig : TxConfig}
    {st st' : Store} {res : Response}
    (h : app.applyMessageWithConfig ctx msg true cfg txConfig st = .ok res st') :
    ∃ gas s out used, app.Applied ctx msg txConfig st st' res gas s out used := by
  obtain ⟨⟨⟩, st₁, h₁, h⟩ := bind_ok.mp h
  obtain ⟨-, rfl⟩ := ofExcept_ok.mp h₁
  obtain ⟨gas, st₂, h₂, h⟩ := bind_ok.mp h
  obtain ⟨hgas, rfl⟩ := ofExcept_ok.mp h₂
  obtain ⟨st₃, st₄, h₃, h⟩ := bind_ok.mp h
  obtain ⟨rfl, rfl⟩ := get_ok.mp h₃
  obtain ⟨⟨s, out⟩, st₅, h₄, h⟩ := bind_ok.mp h
  obtain ⟨hexecute, rfl⟩ := ofExcept_ok.mp h₄
  obtain ⟨used, st₆, h₅, h⟩ := bind_ok.mp h
  obtain ⟨hused, rfl⟩ := ofExcept_ok.mp h₅
  obtain ⟨⟨⟩, st₇, h₆, h⟩ := bind_ok.mp h
  have hcommit := adaptExcept_ok.mp h₆
  obtain ⟨gasUsed, st₈, h₇, h⟩ := bind_ok.mp h
  obtain ⟨hcharged, rfl⟩ := ofExcept_ok.mp h₇
  obtain ⟨rfl, rfl⟩ := pure_ok.mp h
  exact ⟨gas, s, out, used, hgas, mapError_ok.mp hexecute, hused, hcommit, mapError_ok.mp hcharged,
    rfl, rfl, rfl⟩

/-- The errors that an execution can return. -/
def TxError.ofExecution : TxError → Bool
  | .createDisabled | .callDisabled | .intrinsicGasFailed | .intrinsicGas | .gasOverflow | .commit _ | .panic _ =>
    true
  | _ => false

/-- Applying a message fails with an error of the execution. -/
theorem App.applyMessageWithConfig_error {msg : Message} {commit : Bool} {cfg : EvmConfig}
    {txConfig : TxConfig} {st st' : Store} {err : TxError}
    (h : app.applyMessageWithConfig ctx msg commit cfg txConfig st = .error err st') :
    err.ofExecution = true := by
  rcases bind_error.mp h with h | ⟨⟨⟩, st₁, -, h⟩
  · obtain ⟨h, -⟩ := ofExcept_error.mp h
    unfold checkEnabled at h
    split_ifs at h <;> obtain rfl := Except.error.inj h <;> rfl
  rcases bind_error.mp h with h | ⟨gas, st₂, -, h⟩
  · obtain ⟨h, -⟩ := ofExcept_error.mp h
    unfold executionGas at h
    split at h
    · obtain rfl := Except.error.inj h
      rfl
    · split_ifs at h
      obtain rfl := Except.error.inj h
      rfl
  rcases bind_error.mp h with h | ⟨st₃, st₄, -, h⟩
  · cases h
  rcases bind_error.mp h with h | ⟨⟨s, out⟩, st₅, -, h⟩
  · obtain ⟨p, -, rfl⟩ := mapError_error.mp (ofExcept_error.mp h).1
    rfl
  rcases bind_error.mp h with h | ⟨used, st₆, -, h⟩
  · obtain ⟨h, -⟩ := ofExcept_error.mp h
    simp only [temporaryGasUsed] at h
    split_ifs at h <;> obtain rfl := Except.error.inj h <;> rfl
  rcases bind_error.mp h with h | ⟨⟨⟩, st₇, -, h⟩
  · split_ifs at h
    · obtain ⟨e, -, rfl⟩ := adaptExcept_error.mp h
      rfl
    · cases h
  rcases bind_error.mp h with h | ⟨gasUsed, st₈, -, h⟩
  · obtain ⟨p, -, rfl⟩ := mapError_error.mp (ofExcept_error.mp h).1
    rfl
  · cases h

/-- The hooks return no error of their own. -/
theorem App.process_error {tx : TxData} {msg : Message} {cfg : EvmConfig} {txConfig : TxConfig}
    {st st' : Store} {err : TxError} (h : app.process ctx tx msg cfg txConfig st = .error err st') :
    err.ofExecution = true := by
  simp only [process] at h
  split at h
  · rename_i err' tmp happly
    obtain ⟨rfl, -⟩ := EStateM.Result.error.inj h
    exact applyMessageWithConfig_error happly
  · split at h
    · cases h
    · split_ifs at h
      split at h <;> cases h

/-- **How the message and the hooks can end**: the response, the receipt and the stores. Without hooks
the message decides. With hooks the stores are left alone unless all went well. -/
inductive App.Ended (app : App) (ctx : Context) (tx : TxData) (msg : Message) (cfg : EvmConfig)
    (txConfig : TxConfig) (st : Store) : Response → Receipt → Store → Prop where
  | noHooks {res : Response} {tmp : Store}
      (happly : app.applyMessageWithConfig ctx msg true cfg txConfig st = .ok res tmp)
      (hhooks : app.hooks = none) :
      Ended app ctx tx msg cfg txConfig st res (app.newReceipt ctx tx msg txConfig res tmp) tmp
  | vmError {res : Response} {tmp : Store} {hooks : List Hook}
      (happly : app.applyMessageWithConfig ctx msg true cfg txConfig st = .ok res tmp)
      (hhooks : app.hooks = some hooks) (hfailed : res.failed = true) :
      Ended app ctx tx msg cfg txConfig st res (app.newReceipt ctx tx msg txConfig res st) st
  | rejected {res : Response} {tmp tmp' : Store} {hooks : List Hook} {err : String} {receipt : Receipt}
      (happly : app.applyMessageWithConfig ctx msg true cfg txConfig st = .ok res tmp)
      (hhooks : app.hooks = some hooks) (hfailed : res.failed = false)
      (hpost : multiPostTxProcessing hooks msg (tmp, app.newReceipt ctx tx msg txConfig res st) =
        .error err (tmp', receipt)) :
      Ended app ctx tx msg cfg txConfig st { res with vmError := errPostTxProcessing } receipt st
  | accepted {res : Response} {tmp tmp' : Store} {hooks : List Hook} {receipt : Receipt}
      (happly : app.applyMessageWithConfig ctx msg true cfg txConfig st = .ok res tmp)
      (hhooks : app.hooks = some hooks) (hfailed : res.failed = false)
      (hpost : multiPostTxProcessing hooks msg (tmp, app.newReceipt ctx tx msg txConfig res st) =
        .ok () (tmp', receipt)) :
      Ended app ctx tx msg cfg txConfig st { res with logs := receipt.logs } receipt tmp'

/-- A message that was processed has `Ended`, with or without its effects. -/
theorem App.process_ended {tx : TxData} {msg : Message} {cfg : EvmConfig} {txConfig : TxConfig}
    {st st' : Store} {res : Response} {receipt : Receipt}
    (h : app.process ctx tx msg cfg txConfig st = .ok (res, receipt) st') :
    app.Ended ctx tx msg cfg txConfig st res receipt st' := by
  simp only [process] at h
  split at h
  · exact absurd h (by simp)
  · rename_i res₀ tmp happly
    split at h
    · rename_i hhooks
      simp only [EStateM.Result.ok.injEq, Prod.mk.injEq] at h
      obtain ⟨⟨rfl, rfl⟩, rfl⟩ := h
      exact .noHooks happly hhooks
    · rename_i hooks hhooks
      split_ifs at h with hfailed
      · simp only [EStateM.Result.ok.injEq, Prod.mk.injEq] at h
        obtain ⟨⟨rfl, rfl⟩, rfl⟩ := h
        exact .vmError happly hhooks hfailed
      · have hfalse : res₀.failed = false := by simpa using hfailed
        split at h
        · rename_i hpost
          simp only [EStateM.Result.ok.injEq, Prod.mk.injEq] at h
          obtain ⟨⟨rfl, rfl⟩, rfl⟩ := h
          exact .rejected happly hhooks hfalse hpost
        · rename_i hpost
          simp only [EStateM.Result.ok.injEq, Prod.mk.injEq] at h
          obtain ⟨⟨rfl, rfl⟩, rfl⟩ := h
          exact .accepted happly hhooks hfalse hpost

/-- The same, as far as the stores go. -/
theorem App.process_ok {tx : TxData} {msg : Message} {cfg : EvmConfig} {txConfig : TxConfig}
    {st st' : Store} {res : Response} {receipt : Receipt}
    (h : app.process ctx tx msg cfg txConfig st = .ok (res, receipt) st') :
    ∃ res₀ tmp, app.applyMessageWithConfig ctx msg true cfg txConfig st = .ok res₀ tmp ∧
      res.gasUsed = res₀.gasUsed ∧
      ((app.hooks = none ∧ res = res₀ ∧ st' = tmp) ∨
        (app.hooks.isSome ∧ res.failed = true ∧ st' = st) ∨
        ∃ hooks receipt₀, app.hooks = some hooks ∧ res₀.failed = false ∧ res.failed = false ∧
          multiPostTxProcessing hooks msg (tmp, receipt₀) = .ok () (st', receipt)) := by
  cases process_ended h with
  | noHooks happly hhooks => exact ⟨_, _, happly, rfl, Or.inl ⟨hhooks, rfl, rfl⟩⟩
  | vmError happly hhooks hfailed =>
      exact ⟨_, _, happly, rfl, Or.inr (Or.inl ⟨by simp [hhooks], hfailed, rfl⟩)⟩
  | rejected happly hhooks _ _ =>
      exact ⟨_, _, happly, rfl, Or.inr (Or.inl ⟨by simp [hhooks], rfl, rfl⟩)⟩
  | accepted happly hhooks hfailed hpost =>
      exact ⟨_, _, happly, rfl, Or.inr (Or.inr ⟨_, _, hhooks, hfailed, hfailed, hpost⟩)⟩

/-- **A refund** moves coins from the fee collector to the sender and does nothing else. -/
theorem App.refundGas_ok {msg : Message} {leftoverGas : UInt64} {st st' : Store}
    (h : app.refundGas msg leftoverGas st = .ok () st') :
    ∃ amount : ℕ, (amount : ℤ) = leftoverGas.toNat * msg.gasPrice ∧
      Moves [msg.sender] (fun b => amountAt (app.env.moduleAddress .feeCollector) (-amount) b +
        amountAt msg.sender amount b) 0 st st' := by
  simp only [refundGas] at h
  split_ifs at h with hneg hpos
  · exact absurd h (by simp)
  · obtain ⟨amount, st₁, h₁, h₂⟩ := bind_ok.mp h
    obtain ⟨hint, rfl⟩ := ofExcept_ok.mp h₁
    have hamount : amount = leftoverGas.toNat * msg.gasPrice := by
      rw [mapError_ok, newIntFromBigInt] at hint
      split_ifs at hint
      exact (Except.ok.inj hint).symm
    obtain ⟨-, -, hmoves⟩ := sendCoinsFromModuleToAccount_ok app.env (adaptExcept_ok.mp h₂)
    exact ⟨amount.toNat, by omega, hmoves⟩
  · obtain ⟨-, rfl⟩ := pure_ok.mp h
    refine ⟨0, by omega, (Moves.refl st).congr (by simp) ?_ rfl⟩
    intro b
    simp [amountAt_zero]

/-- Stores that differ in the transient store and the gas meter at most. -/
structure SamePersistent (st st' : Store) : Prop where
  accounts : st'.accounts = st.accounts
  balances : st'.balances = st.balances
  supply : st'.supply = st.supply
  kv : st'.kv = st.kv

/-- The balances are persistent. -/
theorem SamePersistent.balance {st st' : Store} (h : SamePersistent st st') (a : Address) :
    st'.balance a = st.balance a := by
  unfold Store.balance
  rw [h.balances]

/-- So are the nonces. -/
theorem SamePersistent.getNonce {st st' : Store} (h : SamePersistent st st') (a : Address) :
    st'.getNonce a = st.getNonce a := by
  unfold Store.getNonce
  rw [h.accounts]

/-- What the end of `ApplyTransaction` wrote to the transient store: nothing of the receipt if there is
no log in it. -/
structure Published (txConfig : TxConfig) (receipt : Receipt) (st st' : Store) : Prop
    extends SamePersistent st st' where
  bloom : st'.transient.bloom = if receipt.logs = [] then st.transient.bloom else receipt.bloom
  logSize : st'.transient.logSize =
    if receipt.logs = [] then st.transient.logSize else txConfig.logIndex + receipt.logs.length
  txIndex : st'.transient.txIndex = txConfig.txIndex + 1

/-- What the last lines of `ApplyTransaction` leave is `Published`. -/
theorem publish_published (txConfig : TxConfig) (receipt : Receipt) (st : Store) {gasUsed : UInt64}
    {st' : Store} (h : addTransientGasUsed gasUsed (publish txConfig receipt st) = .ok () st') :
    Published txConfig receipt st st' := by
  simp only [addTransientGasUsed] at h
  split_ifs at h
  simp only [EStateM.Result.ok.injEq, true_and] at h
  subst h
  unfold publish
  by_cases hlogs : receipt.logs = []
  · simp only [hlogs, if_true]
    exact ⟨⟨rfl, rfl, rfl, rfl⟩, by simp [hlogs], by simp [hlogs], rfl⟩
  · simp only [hlogs, if_false]
    exact ⟨⟨rfl, rfl, rfl, rfl⟩, by simp [hlogs], by simp [hlogs], rfl⟩

/-- **What `ApplyTransaction` did when it returned**: it processed the message, paid the unused gas
back, and updated the transient store. -/
theorem App.applyTransaction_ok {tx : TxData} {st st' : Store} {res : Response}
    (h : app.applyTransaction ctx tx st = .ok res st') :
    ∃ cfg msg receipt st₁ st₂, ctx.evmConfig = .ok cfg ∧
      app.asMessage ctx tx ctx.getBaseFee = some msg ∧
      app.process ctx tx msg cfg (st.txConfig ctx (app.geth.txHash tx)) st = .ok (res, receipt) st₁ ∧
      app.refundGas msg (msg.gas - res.gasUsed) st₁ = .ok () st₂ ∧
      Published (st.txConfig ctx (app.geth.txHash tx)) receipt st₂ st' := by
  obtain ⟨cfg, st₁, h₁, h⟩ := bind_ok.mp h
  obtain ⟨hcfg, rfl⟩ := ofExcept_ok.mp h₁
  obtain ⟨st₂, st₃, h₂, h⟩ := bind_ok.mp h
  obtain ⟨rfl, rfl⟩ := get_ok.mp h₂
  obtain ⟨msg, st₄, h₃, h⟩ := bind_ok.mp h
  obtain ⟨hmsg, rfl⟩ := ofExcept_ok.mp h₃
  obtain ⟨⟨res', receipt⟩, st₅, hprocess, h⟩ := bind_ok.mp h
  obtain ⟨⟨⟩, st₆, hrefund, h⟩ := bind_ok.mp h
  obtain ⟨⟨⟩, st₇, h₄, h⟩ := bind_ok.mp h
  obtain rfl := modify_ok.mp h₄
  obtain ⟨⟨⟩, st₈, h₅, h⟩ := bind_ok.mp h
  obtain ⟨rfl, rfl⟩ := pure_ok.mp h
  rw [elim_error_ok, ctx.evmConfig_baseFee hcfg] at hmsg
  exact ⟨cfg, msg, receipt, st₅, st₆, hcfg, hmsg, hprocess, hrefund, publish_published _ _ _ h₅⟩

/-- The response carries the hash of the transaction. -/
theorem App.applyTransaction_hash {tx : TxData} {st st' : Store} {res : Response}
    (h : app.applyTransaction ctx tx st = .ok res st') : res.hash = app.geth.txHash tx := by
  obtain ⟨cfg, msg, receipt, st₁, st₂, -, -, hprocess, -, -⟩ := applyTransaction_ok h
  cases process_ended hprocess with
  | noHooks happly _ | vmError happly _ _ | rejected happly _ _ _ | accepted happly _ _ _ =>
      obtain ⟨gas, s, out, used, happlied⟩ := applyMessageWithConfig_ok happly
      exact happlied.hash

end transition

end Smartdoge.Evm
