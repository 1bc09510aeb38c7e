import Mathlib.Algebra.Order.BigOperators.Group.List
import Mathlib.Algebra.Order.Ring.Nat
import Smartdoge.Rpc.Debug
import Smartdoge.Rpc.Lookup

/-!
# Receipts

`eth_getTransactionReceipt` finds the Cosmos transaction by a hash in its events, and makes the receipt from these
events, from the results of the block and from the message. A transaction that exceeded the gas limit of the block
has only its announcements: its messages failed, and used their gas limits.

* `setGasLimits_eq`, `accumulativeGasUsed_eq`: what the loops compute.
* `parseTxLogs_parsedTx`: the logs of a message, read back from its events.
* **`EthServer.receiptAt_eq`**: the receipt of an entry that the parser gave.
-/

set_option linter.unusedSectionVars false

namespace Smartdoge.Rpc

open Smartdoge.Lib
open Smartdoge.Lib.Writes
open Smartdoge.Statedb
open Smartdoge.Evm
open Smartdoge.Ante

/-! ## The server -/

/-- What ends `GetTransactionReceipt` with an error or a panic. -/
inductive ReceiptError where
  /-- "failed to parse tx events: %s, %v". -/
  | parseTxEvents (hash : Hash) (err : ParseError)
  /-- "ethereum tx not found in msgs: %s". -/
  | notFoundInMsgs (hash : Hash)
  /-- "failed to decode tx: %w". -/
  | decodeTx
  /-- The error of `GetSender`. -/
  | sender (text : String)
  /-- "can't find index of ethereum tx". -/
  | noIndex
  /-- The error of `BaseFee`. -/
  | baseFee (text : String)
  | panic (p : Panic)
  /-- The panic of a type assertion. -/
  | typeAssertion
deriving DecidableEq

/-- The receipt; the sender is `from`, and the recipient `to`. -/
structure TxReceipt where
  /-- `ReceiptStatusSuccessful`. -/
  status : Bool
  cumulativeGasUsed : UInt64
  logsBloom : ℕ
  logs : List Log
  transactionHash : Hash
  contractAddress : Option Address
  gasUsed : UInt64
  type : TxType
  blockHash : Hash
  blockNumber : UInt64
  transactionIndex : UInt64
  sender : Address
  recipient : Option Address
  effectiveGasPrice : Option ℤ

/-- What the namespace reads. -/
structure EthServer where
  client : TmClient
  /-- `BlockResults` of Tendermint, its `TxsResults`. -/
  blockResults : ℤ → Except String (List TxResult)
  /-- `GetSender(chainIDEpoch)`. -/
  getSender : MsgEthereumTx → Except String Address
  /-- Source: `rpc/backend/evm_backend.go` `BaseFee` -/
  baseFee : ℤ → Except String (Option ℕ)
  /-- go-ethereum `crypto.CreateAddress`. -/
  createAddress : Address → UInt64 → Address
  json : LogJson

/-- `tx.GetMsgs()[i].(*evmtypes.MsgEthereumTx)`. -/
def ethereumAt (msgs : List Msg) (i : ℕ) : Except ReceiptError MsgEthereumTx :=
  match msgs[i]? with
  | none => .error (.panic .indexOutOfRange)
  | some (.ethereumTx eth) => .ok eth
  | some (.exec _ _) | some (.other _ _) => .error .typeAssertion

/-- `Txs[i]`. -/
def entryAt (txs : List ParsedTx) (i : ℕ) : Except ReceiptError ParsedTx :=
  match txs[i]? with
  | none => .error (.panic .indexOutOfRange)
  | some tx => .ok tx

/-- Source: `eth/api.go` `GetTransactionReceipt`, the body of the loop over the gas limits -/
def setGasLimit (msgs : List Msg) (txs : List ParsedTx) (i : ℕ) : Except ReceiptError (List ParsedTx) := do
  let eth ← ethereumAt msgs i
  let tx ← entryAt txs i
  .ok (txs.set i { tx with gasUsed := eth.data.getGas })

/-- Source: `eth/api.go` `GetTransactionReceipt`, `if res.TxResult.Code != 0` -/
def setGasLimits (code : ℕ) (msgs : List Msg) (msgIndex : ℕ) (txs : List ParsedTx) :
    Except ReceiptError (List ParsedTx) :=
  if code ≠ 0 then (List.range (msgIndex + 1)).foldlM (setGasLimit msgs) txs else .ok txs

/-- Source: `rpc/types/events.go` `AccumulativeGasUsed` -/
def accumulativeGasUsed (txs : List ParsedTx) (msgIndex : ℕ) : Except ReceiptError UInt64 :=
  (List.range (msgIndex + 1)).foldlM (fun sum i => do
    let tx ← entryAt txs i
    .ok (sum + tx.gasUsed)) 0

/-- The gas of the results before a place.
Source: `eth/api.go` `GetTransactionReceipt`, the loop over `TxsResults` -/
def gasUsedBefore (results : List TxResult) (index : ℕ) : UInt64 :=
  (results.take index).foldl (fun sum res => sum + UInt64.ofInt res.gasUsed) 0

/-- The logs; `none` is an error.
Source: `rpc/types/events.go` `ParseTxLogs` -/
def ParsedTx.parseTxLogs [Keccak] (tx : ParsedTx) (json : LogJson) : Option (List Log) :=
  (tx.rawLogs.mapM json.unmarshal).map fun logs => logs.map ProtoLog.toEthereum

/-- The Ethereum messages of the transactions that are counted, as `GetEthereumMsgsFromTendermintBlock` lists them
also where a transaction cannot be decoded. -/
def countedMsgs : List (Option (List Msg)) → List TxResult → Except ReceiptError (List MsgEthereumTx)
  | [], _ => .ok []
  | _ :: _, [] => .error (.panic .indexOutOfRange)
  | tx :: txs, result :: results => do
    let rest ← countedMsgs txs results
    let msgs := if txSuccessOrExceedsBlockGasLimit result then tx.getD [] else []
    .ok ((msgs.filterMap fun msg =>
      match msg with
      | .ethereumTx eth => some eth
      | .exec _ _ | .other _ _ => none) ++ rest)

/-- A pointer that may be `nil`. -/
def dereference {α : Type} : Option α → Except ReceiptError α
  | none => .error (.panic .nilDereference)
  | some a => .ok a

/-- Source: `eth/api.go` `GetTransactionReceipt`, `if parsedTx.EthTxIndex == -1`, both of them -/
def ethTxIndexOf (hash : Hash) (tx : ParsedTx) (resBlock : Option ResultBlock) (results : List TxResult) :
    Except ReceiptError ℤ :=
  if tx.ethTxIndex = -1 then do
    let blk ← dereference resBlock
    let msgs ← countedMsgs blk.txs results
    match msgs.findIdx? fun msg => msg.hash = hashHex hash with
    | some i => .ok i
    | none => .error .noIndex
  else .ok tx.ethTxIndex

section server

variable [Keccak] (server : EthServer)

/-- Source: `eth/api.go` `GetTransactionReceipt`, `receipt["effectiveGasPrice"]` -/
def EthServer.effectiveGasPrice (height : ℤ) : TxData → Except ReceiptError (Option ℤ)
  | .dynamicFee tx => do
    let baseFee ← (server.baseFee height).mapError .baseFee
    let price ← (tx.getEffectiveGasPrice baseFee).mapError .panic
    .ok (some price)
  | .legacy _ | .accessList _ => .ok none

/-- From the entry on that `GetTxByHash` points to.
Source: `eth/api.go` `GetTransactionReceipt`, from `resBlock` on -/
def EthServer.receiptAt (hash : Hash) (res : ResultTx) (parsedTxs : ParsedTxs) (i : ℕ) :
    Except ReceiptError (Option TxReceipt) := do
  let first ← entryAt parsedTxs.txs i
  match server.client.block res.height, res.tx with
  | .error _, _ => .ok none
  | .ok _, none => .error .decodeTx
  | .ok resBlock, some msgs =>
    let txs ← setGasLimits res.txResult.code msgs first.msgIndex parsedTxs.txs
    -- The pointer is into the slice that was written to.
    let tx ← entryAt txs i
    let ethMsg ← ethereumAt msgs tx.msgIndex
    match server.blockResults res.height with
    | .error _ => .ok none
    | .ok results =>
      let accumulated ← accumulativeGasUsed txs tx.msgIndex
      let sender ← (server.getSender ethMsg).mapError .sender
      let logs := (tx.parseTxLogs server.json).getD []
      let ethTxIndex ← ethTxIndexOf hash tx resBlock results
      let blk ← dereference resBlock
      let effectiveGasPrice ← server.effectiveGasPrice res.height ethMsg.data
      .ok (some
        { status := res.txResult.code = 0 ∧ ¬tx.failed
          cumulativeGasUsed := gasUsedBefore results res.index + accumulated
          logsBloom := logsBloom logs
          logs := logs
          transactionHash := hash
          contractAddress :=
            if ethMsg.data.getTo = none then some (server.createAddress sender ethMsg.data.getNonce) else none
          gasUsed := tx.gasUsed
          type := ethMsg.data.txType
          blockHash := bytesToHash blk.hash
          blockNumber := UInt64.ofInt res.height
          transactionIndex := UInt64.ofInt ethTxIndex
          sender := sender
          recipient := ethMsg.data.getTo
          effectiveGasPrice := effectiveGasPrice })

/-- `none` is `nil` without an error.
Source: `eth/api.go` `GetTransactionReceipt` -/
def EthServer.getTransactionReceipt (hash : Hash) : Except ReceiptError (Option TxReceipt) :=
  match server.client.getTxByEthHash hash with
  | .error _ => .ok none
  | .ok res =>
    if txSuccessOrExceedsBlockGasLimit res.txResult then do
      let parsedTxs ← (parseTxResult res.txResult).mapError (.parseTxEvents hash)
      match parsedTxs.txHashes.get hash with
      | none => .error (.notFoundInMsgs hash)
      | some i => server.receiptAt hash res parsedTxs i
    else .ok none

end server

/-- Source: `rpc/backend/utils.go` `ShouldIgnoreGasUsed` -/
def shouldIgnoreGasUsed (res : TxResult) : Bool :=
  res.code = 11 ∧ "no block gas left to run tx: out of gas".toList <:+: res.log.toList

/-- Source: `rpc/backend/evm_backend.go` `EthBlockFromTendermint`, `gasUsed` -/
def blockGasUsed (sum : UInt64) : List TxResult → UInt64
  | [] => sum
  | res :: results =>
    if shouldIgnoreGasUsed res then sum else blockGasUsed (sum + UInt64.ofInt res.gasUsed) results

/-! ## The loops -/

/-- A part of a list has a part of its sum. -/
theorem sum_take_le {α : Type} (f : α → ℕ) (xs : List α) (n : ℕ) : ((xs.take n).map f).sum ≤ (xs.map f).sum :=
  List.Sublist.sum_le_sum ((List.take_sublist n xs).map f) fun _ _ => Nat.zero_le _

/-- Sums of `uint64` are exact while they do not wrap. -/
theorem toNat_foldl_add {α : Type} (f : α → UInt64) (xs : List α) (sum : UInt64)
    (h : sum.toNat + (xs.map fun x => (f x).toNat).sum < 2 ^ 64) :
    (xs.foldl (fun sum x => sum + f x) sum).toNat = sum.toNat + (xs.map fun x => (f x).toNat).sum := by
  induction xs generalizing sum with
  | nil => simp
  | cons x xs ih =>
      rw [List.map_cons, List.sum_cons] at h ⊢
      have hstep : (sum + f x).toNat = sum.toNat + (f x).toNat := by
        rw [UInt64.toNat_add]
        exact Nat.mod_eq_of_lt (by omega)
      rw [List.foldl_cons, ih (sum + f x) (by omega), hstep]
      omega

/-- A number that is in range keeps its value as a `uint64`. -/
theorem toNat_ofInt {x : ℤ} (hnonneg : 0 ≤ x) (hlt : x.toNat < 2 ^ 64) : (UInt64.ofInt x).toNat = x.toNat := by
  obtain ⟨n, rfl⟩ := Int.eq_ofNat_of_zero_le hnonneg
  rw [Int.toNat_natCast] at hlt ⊢
  have hmod : ((n : ℤ) % 2 ^ 64).toNat = n := by omega
  rw [UInt64.ofInt, hmod, UInt64.toNat_ofNat_of_lt' hlt]

/-- An entry that is there is returned. -/
theorem entryAt_ok {txs : List ParsedTx} {i : ℕ} {tx : ParsedTx} (h : txs[i]? = some tx) : entryAt txs i = .ok tx := by
  unfold entryAt
  rw [h]

/-- So is an Ethereum message. -/
theorem ethereumAt_ok {msgs : List Msg} {i : ℕ} {eth : MsgEthereumTx} (h : msgs[i]? = some (.ethereumTx eth)) :
    ethereumAt msgs i = .ok eth := by
  unfold ethereumAt
  rw [h]

/-- The gas of the messages up to one. -/
theorem accumulativeGasUsed_eq {txs : List ParsedTx} {i : ℕ} (h : i < txs.length) :
    accumulativeGasUsed txs i = .ok ((txs.take (i + 1)).foldl (fun sum tx => sum + tx.gasUsed) 0) := by
  unfold accumulativeGasUsed
  generalize hn : i + 1 = n
  have hle : n ≤ txs.length := by omega
  clear hn h
  induction n with
  | zero => rfl
  | succ n ih =>
      have hget : txs[n]? = some txs[n] := List.getElem?_eq_getElem (by omega)
      rw [List.range_succ, List.foldlM_append, ih (by omega), List.take_add_one, hget, List.foldl_append]
      simp [entryAt_ok hget, bind, Except.bind, pure, Except.pure]

/-- One step of the loop over the gas limits. -/
theorem setGasLimit_append {msgs : List Msg} {front rest : List ParsedTx} {tx : ParsedTx} {eth : MsgEthereumTx}
    {n : ℕ} (hfront : front.length = n) (heth : msgs[n]? = some (.ethereumTx eth)) :
    setGasLimit msgs (front ++ tx :: rest) n = .ok (front ++ { tx with gasUsed := eth.data.getGas } :: rest) := by
  have hentry : (front ++ tx :: rest)[n]? = some tx := by
    rw [List.getElem?_append_right (by omega), hfront, Nat.sub_self, List.getElem?_cons_zero]
  unfold setGasLimit
  rw [ethereumAt_ok heth, entryAt_ok hentry]
  show Except.ok _ = _
  rw [List.set_append_right _ _ (by omega), hfront, Nat.sub_self, List.set_cons_zero]

/-- **The loop over the gas limits** replaces the gas of the entries that it has been through. -/
theorem setGasLimit_loop {msgs : List Msg} {eths : List MsgEthereumTx} (hmsgs : msgs = eths.map .ethereumTx)
    {txs : List ParsedTx} (hlength : txs.length = eths.length) {n : ℕ} (hn : n ≤ eths.length) :
    (List.range n).foldlM (setGasLimit msgs) txs = .ok
      (((txs.zip eths).take n).map (fun p => { p.1 with gasUsed := p.2.data.getGas }) ++ txs.drop n) := by
  induction n with
  | zero => rfl
  | succ n ih =>
      have htx : txs[n]? = some txs[n] := List.getElem?_eq_getElem (by omega)
      have heth : msgs[n]? = some (.ethereumTx eths[n]) := by
        rw [hmsgs, List.getElem?_map, List.getElem?_eq_getElem (by omega)]
        rfl
      have hzip : (txs.zip eths)[n]? = some (txs[n], eths[n]) := by
        rw [List.getElem?_zip_eq_some]
        exact ⟨htx, List.getElem?_eq_getElem (by omega)⟩
      have hdrop : txs.drop n = txs[n] :: txs.drop (n + 1) := List.drop_eq_getElem_cons (by omega)
      have hfront : (((txs.zip eths).take n).map fun p => { p.1 with gasUsed := p.2.data.getGas }).length = n := by
        simp only [List.length_map, List.length_take, List.length_zip]
        omega
      rw [List.range_succ, List.foldlM_append, ih (by omega), hdrop]
      refine (congrArg (· >>= pure) (setGasLimit_append hfront heth)).trans ?_
      rw [List.take_add_one, hzip, List.map_append]
      simp [bind, Except.bind, pure, Except.pure]

/-- **The gas limits in place of the gas**, up to a message. -/
theorem setGasLimits_eq {code : ℕ} (hcode : code ≠ 0) {eths : List MsgEthereumTx} {txs : List ParsedTx}
    (hlength : txs.length = eths.length) {i : ℕ} (hi : i < eths.length) {first : ParsedTx}
    (hfirst : txs[i]? = some first) :
    ∃ txs', setGasLimits code (eths.map .ethereumTx) i txs = .ok txs' ∧
      txs'[i]? = some { first with gasUsed := eths[i].data.getGas } ∧
      (txs'.take (i + 1)).map (fun tx => tx.gasUsed.toNat) =
        (eths.take (i + 1)).map fun eth => eth.data.getGas.toNat := by
  have hfront :
      (((txs.zip eths).take (i + 1)).map fun p => { p.1 with gasUsed := p.2.data.getGas }).length = i + 1 := by
    simp only [List.length_map, List.length_take, List.length_zip]
    omega
  have hzip : (txs.zip eths)[i]? = some (first, eths[i]) :=
    List.getElem?_zip_eq_some.mpr ⟨hfirst, List.getElem?_eq_getElem hi⟩
  refine ⟨_, (if_pos hcode).trans (setGasLimit_loop rfl hlength hi), ?_, ?_⟩
  · rw [List.getElem?_append_left (by omega), List.getElem?_map, List.getElem?_take, if_pos (by omega), hzip]
    rfl
  · rw [List.take_left' hfront, List.map_map]
    have hsnd : ((txs.zip eths).take (i + 1)).map Prod.snd = eths.take (i + 1) := by
      rw [List.map_take, List.map_snd_zip (by omega)]
    rw [← hsnd, List.map_map]
    rfl

/-! ## One receipt -/

section receipt

variable [Keccak] {json : LogJson} {server : EthServer}

/-- The logs of a message that can be read back from its events. -/
theorem parseTxLogs_parsedTx {json' : LogJson} {o : Outcome} (i : ℕ)
    (hread : ∀ log ∈ o.response.logs, json'.unmarshal (json.marshal (newLogFromEth log)) = some (newLogFromEth log)) :
    (o.parsedTx json i).parseTxLogs json' = some o.response.logs := by
  have hmapM : (o.response.logs.map fun log => json.marshal (newLogFromEth log)).mapM json'.unmarshal =
      some (o.response.logs.map newLogFromEth) := by
    rw [List.mapM_map]
    exact option_mapM_of_forall hread
  unfold ParsedTx.parseTxLogs Outcome.parsedTx
  rw [hmapM, Option.map_some, List.map_map]
  exact congrArg some (List.map_id'' toEthereum_newLogFromEth _)

/-- **The receipt of an entry.** -/
theorem EthServer.receiptAt_eq {hash : Hash} {res : ResultTx} {parsedTxs : ParsedTxs} {i n : ℕ} {first tx : ParsedTx}
    {msgs : List Msg} {txs : List ParsedTx} {eth : MsgEthereumTx} {blk : ResultBlock} {results : List TxResult}
    {sender : Address} {price : Option ℤ} (hblock : server.client.block res.height = .ok (some blk))
    (hmsgs : res.tx = some msgs) (hfirst : parsedTxs.txs[i]? = some first) (hfirstIndex : first.msgIndex = i)
    (htxs : setGasLimits res.txResult.code msgs i parsedTxs.txs = .ok txs) (htx : txs[i]? = some tx)
    (hindex : tx.msgIndex = i) (heth : msgs[i]? = some (.ethereumTx eth))
    (hresults : server.blockResults res.height = .ok results) (hsender : server.getSender eth = .ok sender)
    (hethTxIndex : tx.ethTxIndex = n) (hprice : server.effectiveGasPrice res.height eth.data = .ok price) :
    server.receiptAt hash res parsedTxs i = .ok (some
      { status := res.txResult.code = 0 ∧ ¬tx.failed
        cumulativeGasUsed :=
          gasUsedBefore results res.index + (txs.take (i + 1)).foldl (fun sum tx => sum + tx.gasUsed) 0
        logsBloom := logsBloom ((tx.parseTxLogs server.json).getD [])
        logs := (tx.parseTxLogs server.json).getD []
        transactionHash := hash
        contractAddress := if eth.data.getTo = none then some (server.createAddress sender eth.data.getNonce) else none
        gasUsed := tx.gasUsed
        type := eth.data.txType
        blockHash := bytesToHash blk.hash
        blockNumber := UInt64.ofInt res.height
        transactionIndex := UInt64.ofInt n
        sender := sender
        recipient := eth.data.getTo
        effectiveGasPrice := price }) := by
  have hlt : i < txs.length := (List.getElem?_eq_some_iff.mp htx).1
  have hnumber : ethTxIndexOf hash tx (some blk) results = .ok (n : ℤ) := by
    unfold ethTxIndexOf
    rw [if_neg (by rw [hethTxIndex]; omega), hethTxIndex]
  unfold EthServer.receiptAt
  rw [entryAt_ok hfirst, hblock, hmsgs]
  simp only [bind, Except.bind, hfirstIndex, htxs, entryAt_ok htx, hindex, ethereumAt_ok heth, hresults,
    accumulativeGasUsed_eq hlt, hsender, Except.mapError, hnumber, dereference, hprice]

/-- From the search to the entry. -/
theorem EthServer.getTransactionReceipt_eq {hash : Hash} {res : ResultTx} {parsedTxs : ParsedTxs} {i : ℕ}
    (hsearch : server.client.getTxByEthHash hash = .ok res)
    (hcounted : txSuccessOrExceedsBlockGasLimit res.txResult = true)
    (hparse : parseTxResult res.txResult = .ok parsedTxs) (hhash : parsedTxs.txHashes.get hash = some i) :
    server.getTransactionReceipt hash = server.receiptAt hash res parsedTxs i := by
  unfold EthServer.getTransactionReceipt
  rw [hsearch]
  simp only [hcounted, if_true, hparse, Except.mapError, bind, Except.bind, hhash]

end receipt

end Smartdoge.Rpc
