import Smartdoge.Ante.Block
import Smartdoge.Rpc.Events
import Smartdoge.Types.Int64

/-!
# Looking up a message by its index in the block

`eth_getTransactionByBlockNumberAndIndex` asks the index of events for the transaction with the event
`ethereum_tx` of the given index. Blocks, and the same call when the index of events has no answer, count
the messages of the transactions that succeeded or exceeded the gas limit of the block. The ante handler
announces an index also for a transaction that fails after it, and gives the same index again to the next.
An Ethereum message that a `MsgExec` runs takes an index as well, which is in the events of the Cosmos
transaction around it, but it is not among the messages that are counted.

* `deliverBlock_numbered`: the indexes in the events of a block.
* **`lookups_agree_iff`**: both ways find the same message at every index below 2^63, if and only if no
  transaction with Ethereum messages failed after the ante handler for another reason than the gas limit of the
  block, and nothing is counted after a `MsgExec` that ran Ethereum messages.
* `failed_shadows`: a failed transaction that is found instead of the one after it.
-/

set_option linter.unusedSectionVars false

namespace Smartdoge.Rpc

open Smartdoge.Lib
open Smartdoge.Lib.Writes
open Smartdoge.Statedb
open Smartdoge.Evm
open Smartdoge.Ante

/-! ## The server -/

/-- A Cosmos transaction of a block, with its result. -/
structure BlockResult where
  msgs : List Msg
  result : TxResult

/-- Source: `rpc/backend/utils.go` `ExceedBlockGasLimitError` -/
def exceedBlockGasLimitError : String := "out of gas in location: block gas meter; gasWanted:"

/-- Source: `rpc/backend/utils.go` `TxExceedBlockGasLimit` -/
def txExceedBlockGasLimit (res : TxResult) : Bool :=
  exceedBlockGasLimitError.toList <:+: res.log.toList

/-- Source: `rpc/backend/utils.go` `TxSuccessOrExceedsBlockGasLimit` -/
def txSuccessOrExceedsBlockGasLimit (res : TxResult) : Bool :=
  res.code = 0 ∨ txExceedBlockGasLimit res

/-- An Ethereum message, with its place in the block. -/
structure Located where
  tx : ℕ
  msg : ℕ
  eth : MsgEthereumTx
deriving DecidableEq

/-- The Ethereum messages of a transaction. -/
def located (place : ℕ) (msgs : List Msg) : List Located :=
  msgs.zipIdx.filterMap fun (msg, i) =>
    match msg with
    | .ethereumTx eth => some ⟨place, i, eth⟩
    | .exec _ _ | .other _ _ => none

/-- The transactions from a given place on.
Source: `rpc/backend/evm_backend.go` `GetEthereumMsgsFromTendermintBlock`, the loop -/
def ethereumMsgsFrom (place : ℕ) : List BlockResult → List Located
  | [] => []
  | tx :: txs =>
    (if txSuccessOrExceedsBlockGasLimit tx.result then located place tx.msgs else []) ++
      ethereumMsgsFrom (place + 1) txs

/-- Source: `rpc/backend/evm_backend.go` `GetEthereumMsgsFromTendermintBlock` -/
def getEthereumMsgsFromTendermintBlock (block : List BlockResult) : List Located :=
  ethereumMsgsFrom 0 block

/-- The event is indexed under `ethereum_tx.txIndex=idx`. -/
def IndexedUnder (idx : ℕ) (event : Event) : Bool :=
  event.type = "ethereum_tx" ∧ ⟨"txIndex", formatUint idx⟩ ∈ event.attributes

/-- The errors of `getTransactionByBlockAndIndex`. -/
inductive LookupError where
  /-- "failed to parse tx events: %d, %v". -/
  | parseTxEvents (err : ParseError)
  /-- "ethereum tx not found in msgs: %d". -/
  | notFoundInMsgs
  /-- The panic of the slice of the messages. -/
  | indexOutOfRange
deriving DecidableEq

/-- Source: `eth/api.go` `getTransactionByBlockAndIndex`, `tx.GetMsgs()[parsedTx.MsgIndex].(*evmtypes.MsgEthereumTx)` -/
def ethereumMsgAt (place : ℕ) (msgs : List Msg) (msgIndex : ℕ) : Except LookupError (Option Located) :=
  match msgs[msgIndex]? with
  | none => .error .indexOutOfRange
  | some (.ethereumTx eth) => .ok (some ⟨place, msgIndex, eth⟩)
  | some (.exec _ _) | some (.other _ _) => .ok none

/-- What is read from the transaction that the index of events found, with the index as an `int`; `none` is no
transaction.
Source: `eth/api.go` `getTransactionByBlockAndIndex`, the branch `err == nil` -/
def readMessage (place : ℕ) (tx : BlockResult) (idx : ℕ) : Except LookupError (Option Located) :=
  match parseTxResult tx.result with
  | .error err => .error (.parseTxEvents err)
  | .ok parsedTxs =>
    match parsedTxs.getTxByTxIndex (int64 idx) with
    | none => .error .notFoundInMsgs
    | some parsedTx => ethereumMsgAt place tx.msgs parsedTx.msgIndex

/-- The first of the transactions from a given place on that has an event under the index.
Source: `rpc/backend/evm_backend.go` `GetTxByTxIndex` -/
def getTxByTxIndexFrom (idx place : ℕ) : List BlockResult → Option (ℕ × BlockResult)
  | [] => none
  | tx :: txs =>
    if tx.result.events.any (IndexedUnder idx) then some (place, tx)
    else getTxByTxIndexFrom idx (place + 1) txs

/-- The message that the index of events leads to, in the transactions from a given place on. -/
def findByEventsFrom (idx place : ℕ) (txs : List BlockResult) : Except LookupError (Option Located) :=
  match getTxByTxIndexFrom idx place txs with
  | some (place, tx) => readMessage place tx idx
  | none => .ok none

/-- The message that the index of events leads to. -/
def findByEvents (block : List BlockResult) (idx : UInt64) : Except LookupError (Option Located) :=
  findByEventsFrom idx.toNat 0 block

/-- `i` is an `int`, and a negative one is not out of bound.
Source: `eth/api.go` `getTransactionByBlockAndIndex`, the end of the branch `err != nil` -/
def countedMsgAt (ethMsgs : List Located) (i : ℤ) : Except LookupError (Option Located) :=
  if i ≥ ethMsgs.length then .ok none
  else if i < 0 then .error .indexOutOfRange
  else .ok ethMsgs[i.toNat]?

/-- Source: `eth/api.go` `getTransactionByBlockAndIndex` -/
def getTransactionByBlockAndIndex (block : List BlockResult) (idx : UInt64) :
    Except LookupError (Option Located) :=
  match getTxByTxIndexFrom idx.toNat 0 block with
  | some (place, tx) => readMessage place tx idx.toNat
  | none => countedMsgAt (getEthereumMsgsFromTendermintBlock block) (int64 idx.toNat)

/-! ## Blocks -/

/-- How a transaction of a block ended. -/
inductive Ended where
  | ethereum (e : TxEnd)
  /-- A transaction whose own messages are no Ethereum messages, with what came of the Ethereum messages that a
  `MsgExec` among its messages ran. If it failed, nothing came of them. -/
  | cosmos (msgs : List Msg) (results : List (Response × List Event))

/-- The number of indexes in the events. -/
def Ended.announced : Ended → ℕ
  | .ethereum (.aborted _ out) | .ethereum (.executed out _) => out.msgs.length
  | .ethereum .rejected => 0
  | .cosmos _ results => results.length

/-- The number of indexes that were used up. -/
def Ended.used : Ended → ℕ
  | .ethereum (.executed out _) => out.msgs.length
  | .ethereum .rejected | .ethereum (.aborted _ _) => 0
  | .cosmos _ results => results.length

/-- The indexes that were used up are in the events. -/
theorem Ended.used_le_announced (e : Ended) : e.used ≤ e.announced := by
  cases e with
  | cosmos msgs results => exact le_refl _
  | ethereum e =>
      cases e with
      | rejected => exact le_refl 0
      | aborted reason out => exact Nat.zero_le _
      | executed out results => exact le_refl _

/-- The number of messages that are counted. -/
def Ended.counted : Ended → ℕ
  | .ethereum (.aborted .blockGas out) | .ethereum (.executed out _) => out.msgs.length
  | .ethereum .rejected | .ethereum (.aborted .other _) | .cosmos _ _ => 0

/-- The ante handler announced consecutive indexes. -/
def AnnouncesFrom (n : ℕ) (out : EthAnte) : Prop :=
  out.hashes.map Prod.snd = List.range' n out.msgs.length

/-- The gas of every message fits in an `int64`, as the gas limit of a Cosmos transaction does. -/
def Ended.GasFits : Ended → Prop
  | .ethereum e => ∀ res ∈ e.responses, res.gasUsed.toNat < 2 ^ 63
  | .cosmos _ results => ∀ r ∈ results, r.1.gasUsed.toNat < 2 ^ 63

/-- A transaction failed before its messages, or has nothing to do with the module. -/
def Ended.Silent (e : Ended) : Prop := e = .ethereum .rejected ∨ ∃ msgs, e = .cosmos msgs []

/-- After a transaction that exceeded the gas limit of the block, all transactions fail before the ante handler. -/
def GasEndsBlock : List Ended → Prop
  | [] => True
  | e :: es =>
    ((∃ out, e = .ethereum (.aborted .blockGas out)) → ∀ e' ∈ es, e'.Silent) ∧ GasEndsBlock es

/-- A transaction with Ethereum messages failed after the ante handler, and not for the gas limit of the
block. -/
def Ended.FailsAfterAnte : Ended → Prop
  | .ethereum (.aborted .other out) => out.msgs ≠ []
  | .ethereum .rejected | .ethereum (.aborted .blockGas _) | .ethereum (.executed _ _) | .cosmos _ _ => False

/-- After a transaction whose `MsgExec` ran Ethereum messages, no message is counted; and it ran no more of them than
the transaction has messages. -/
def NestedLast : List Ended → Prop
  | [] => True
  | e :: es =>
    (∀ msgs results, e = .cosmos msgs results → results ≠ [] →
      results.length ≤ msgs.length ∧ ∀ e' ∈ es, e'.counted = 0) ∧ NestedLast es

section blocks

variable [Keccak] (json : LogJson)

/-- A number of messages were executed, with consecutive indexes. -/
def ExecutedFrom (n k : ℕ) (results : List (Response × List Event)) : Prop :=
  ∃ os : List Outcome, results = os.map (fun o => (o.response, o.events json)) ∧
    os.map Outcome.txIndex = List.range' n k

/-- A transaction ended, when the next index was `n`. -/
def Ended.At (n : ℕ) : Ended → Prop
  | .ethereum (.aborted _ out) => AnnouncesFrom n out
  | .ethereum (.executed out results) => AnnouncesFrom n out ∧ ExecutedFrom json n out.msgs.length results
  | .ethereum .rejected => True
  | .cosmos _ results => ExecutedFrom json n results.length results

/-- The transactions of a block ended, when the next index was `n`. What a transaction that failed wrote to
the counter is rolled back. -/
def Numbered : ℕ → List Ended → Prop
  | _, [] => True
  | n, e :: es => e.At json n ∧ Numbered (n + e.used) es

/-- A block, by how its transactions ended. -/
structure EndedBlock where
  ends : List Ended
  numbered : Numbered json 0 ends
  gasEndsBlock : GasEndsBlock ends
  gasFits : ∀ e ∈ ends, e.GasFits
  /-- The number of messages fits in an `int64`. -/
  small : (ends.map Ended.announced).sum < 2 ^ 63

/-- What a block has for a transaction that ended so. Between the events of the module there may be
others. -/
def Reports : Ended → BlockResult → Prop
  | .ethereum .rejected, tx =>
    Interleaves tx.result.events [] ∧ txSuccessOrExceedsBlockGasLimit tx.result = false
  | .ethereum (.aborted reason out), tx =>
    Interleaves tx.result.events out.events ∧ List.Forall₂ SameContent tx.msgs out.msgs ∧
      tx.result.code ≠ 0 ∧ (txExceedBlockGasLimit tx.result = true ↔ reason = .blockGas)
  | .ethereum (.executed out results), tx =>
    Interleaves tx.result.events (out.events ++ results.flatMap Prod.snd) ∧
      List.Forall₂ SameContent tx.msgs out.msgs ∧ tx.result.code = 0
  | .cosmos msgs results, tx =>
    Interleaves tx.result.events (results.flatMap Prod.snd) ∧ tx.msgs = msgs ∧
      ∀ msg ∈ msgs, ∀ eth : MsgEthereumTx, msg ≠ .ethereumTx eth

/-! ## What is indexed -/

/-- An event of the ante handler is indexed under the announced index. -/
theorem indexedUnder_announceEvent (idx : ℕ) (announced : String × ℕ) :
    IndexedUnder idx (announceEvent announced) = decide (announced.2 = idx) := by
  simp [IndexedUnder, announceEvent, formatUint_inj, @eq_comm _ idx]

/-- The events of an outcome are indexed under its index. -/
theorem any_indexedUnder_events (idx : ℕ) (o : Outcome) :
    (o.events json).any (IndexedUnder idx) = decide (o.txIndex = idx) := by
  have hattributes : (⟨"txIndex", formatUint idx⟩ : Attribute) ∈
      ethereumTxAttributes o.tx o.txIndex o.txHash o.response ↔ o.txIndex = idx := by
    unfold ethereumTxAttributes
    cases o.txHash <;> cases o.tx.getTo <;> split_ifs <;>
      simp [formatUint_inj, @eq_comm _ idx]
  simp [Outcome.events, ethereumTxEvents, IndexedUnder, hattributes]

/-- A question about the events of the module has one answer, whatever stands between them. -/
theorem Interleaves.any_eq {events emitted : List Event} (h : Interleaves events emitted) {p : Event → Bool}
    (hp : ∀ event, p event = true → Related event = true) : events.any p = emitted.any p := by
  have hrelated : ∀ l : List Event, l.any p = (l.filter Related).any p := by
    intro l
    rw [List.any_filter]
    refine congrArg l.any ?_
    funext event
    cases hevent : p event with
    | false => rw [Bool.and_false]
    | true => rw [hp event hevent, Bool.and_self]
  rw [hrelated events, hrelated emitted, h]

/-- Other events are not under the index. -/
theorem Interleaves.any_indexedUnder {events emitted : List Event} (h : Interleaves events emitted) (idx : ℕ) :
    events.any (IndexedUnder idx) = emitted.any (IndexedUnder idx) := by
  refine h.any_eq fun event hindexed => ?_
  have htype : event.type = "ethereum_tx" := (of_decide_eq_true hindexed).1
  simp [Related, htype]

/-- The indexes that were announced. -/
theorem AnnouncesFrom.any_indexedUnder {n : ℕ} {out : EthAnte} (h : AnnouncesFrom n out) (idx : ℕ) :
    out.events.any (IndexedUnder idx) = decide (n ≤ idx ∧ idx < n + out.msgs.length) := by
  have hany : out.events.any (IndexedUnder idx) = decide (idx ∈ out.hashes.map Prod.snd) := by
    unfold EthAnte.events
    rw [List.any_map, Bool.eq_iff_iff]
    simp [indexedUnder_announceEvent]
  rw [hany, h]
  simp [List.mem_range'_1]

/-- The indexes that were emitted. -/
theorem ExecutedFrom.any_indexedUnder {n k : ℕ} {results : List (Response × List Event)}
    (h : ExecutedFrom json n k results) (idx : ℕ) :
    (results.flatMap Prod.snd).any (IndexedUnder idx) = decide (n ≤ idx ∧ idx < n + k) := by
  obtain ⟨os, rfl, hindexes⟩ := h
  have hany : ((os.map fun o => (o.response, o.events json)).flatMap Prod.snd).any (IndexedUnder idx) =
      decide (idx ∈ os.map Outcome.txIndex) := by
    rw [List.any_flatMap, List.any_map, Bool.eq_iff_iff]
    simp [any_indexedUnder_events]
  rw [hany, hindexes]
  simp [List.mem_range'_1]

/-! ## What is read -/

/-- A transaction that the ante handler accepted has Ethereum messages only. -/
theorem located_get {msgs : List Msg} {eths : List MsgEthereumTx} (h : List.Forall₂ SameContent msgs eths)
    (place : ℕ) : (located place msgs).length = eths.length ∧
      ∀ i < eths.length, ∃ eth, msgs[i]? = some (.ethereumTx eth) ∧
        (located place msgs)[i]? = some ⟨place, i, eth⟩ := by
  obtain ⟨eths₀, rfl⟩ : ∃ eths₀ : List MsgEthereumTx, msgs = eths₀.map Msg.ethereumTx := by
    clear place
    induction h with
    | nil => exact ⟨[], rfl⟩
    | cons hone _ ih =>
        obtain ⟨eth₀, rfl, -, -⟩ := hone
        obtain ⟨eths₀, rfl⟩ := ih
        exact ⟨eth₀ :: eths₀, rfl⟩
  have hlength : eths₀.length = eths.length := by simpa using h.length_eq
  have hlocated : located place (eths₀.map Msg.ethereumTx) =
      eths₀.zipIdx.map fun (p : MsgEthereumTx × ℕ) => (⟨place, p.2, p.1⟩ : Located) := by
    unfold located
    rw [List.zipIdx_map, List.filterMap_map, ← List.filterMap_eq_map]
    rfl
  rw [hlocated]
  refine ⟨by simp [hlength], ?_⟩
  intro i hi
  rw [← hlength] at hi
  refine ⟨eths₀[i], ?_, ?_⟩
  · simp [hi]
  · simp [hi]

/-- The message at a place of a transaction that the ante handler accepted. -/
theorem ethereumMsgAt_of_sameContent {msgs : List Msg} {eths : List MsgEthereumTx}
    (h : List.Forall₂ SameContent msgs eths) (place : ℕ) {i : ℕ} (hi : i < eths.length) :
    ethereumMsgAt place msgs i = .ok (located place msgs)[i]? := by
  obtain ⟨eth, hmsg, hlocated⟩ := (located_get h place).2 i hi
  unfold ethereumMsgAt
  rw [hmsg, hlocated]

/-- A transaction without Ethereum messages of its own. -/
theorem located_of_cosmos {msgs : List Msg} (h : ∀ msg ∈ msgs, ∀ eth : MsgEthereumTx, msg ≠ .ethereumTx eth)
    (place : ℕ) : located place msgs = [] := by
  apply List.filterMap_eq_nil_iff.mpr
  rintro ⟨msg, i⟩ hmem
  cases msg with
  | ethereumTx eth => exact absurd rfl (h _ (List.fst_mem_of_mem_zipIdx hmem) eth)
  | exec grantee inner => rfl
  | other typeURL signers => rfl

/-- No Ethereum message is read from such a transaction, and the index may be out of range. -/
theorem ethereumMsgAt_of_cosmos {msgs : List Msg} (h : ∀ msg ∈ msgs, ∀ eth : MsgEthereumTx, msg ≠ .ethereumTx eth)
    (place i : ℕ) :
    ethereumMsgAt place msgs i = if i < msgs.length then .ok none else .error .indexOutOfRange := by
  unfold ethereumMsgAt
  split
  · rename_i hnone
    rw [if_neg (by rw [List.getElem?_eq_none_iff] at hnone; omega)]
  · rename_i eth hmsg
    exact absurd rfl (h _ (List.mem_of_getElem? hmsg) eth)
  · rename_i hmsg
    rw [if_pos (List.getElem?_eq_some_iff.mp hmsg).1]
  · rename_i hmsg
    rw [if_pos (List.getElem?_eq_some_iff.mp hmsg).1]

/-- What the server sees of a transaction that has `k` indexes from `n` on in its events. -/
structure Shows (n k : ℕ) (tx : BlockResult) : Prop where
  /-- The index of events has it under these indexes. -/
  indexed : ∀ idx, tx.result.events.any (IndexedUnder idx) = decide (n ≤ idx ∧ idx < n + k)
  /-- The messages are read one after the other. -/
  reads : ∀ place idx, n ≤ idx → idx < n + k → readMessage place tx idx = ethereumMsgAt place tx.msgs (idx - n)

/-- Entries that were parsed for consecutive indexes lead to the messages. -/
theorem readMessage_of_parse {tx : BlockResult} {format : EventFormat} {eventIndex : ℤ} {p : ParsedTxs}
    (hparse : tx.result.events.foldlM parseEvent {} = .ok ⟨format, eventIndex, p⟩) {n : ℕ}
    (hentries : ∀ (i : ℕ) (t : ParsedTx), p.txs[i]? = some t → t.ethTxIndex = (n : ℤ) + i ∧ t.msgIndex = i)
    (place : ℕ) {idx : ℕ} (hle : n ≤ idx) (hlt : idx < n + p.txs.length) (hidx : idx < 2 ^ 63) :
    readMessage place tx idx = ethereumMsgAt place tx.msgs (idx - n) := by
  have hint : int64 idx = idx := int64_eq (by omega) (by exact_mod_cast hidx)
  obtain ⟨i, rfl⟩ : ∃ i, idx = n + i := ⟨idx - n, by omega⟩
  rw [Nat.add_sub_cancel_left]
  have hfilled := fillGasUsed_length tx.result.gasUsed p.txs
  have hentry : (ParsedTxs.fillGasUsed tx.result.gasUsed p.txs)[i]? =
      some (ParsedTxs.fillGasUsed tx.result.gasUsed p.txs)[i] := List.getElem?_eq_getElem (by omega)
  have hindexes : ∀ (i : ℕ) (t : ParsedTx), (ParsedTxs.fillGasUsed tx.result.gasUsed p.txs)[i]? = some t →
      t.ethTxIndex = (n : ℤ) + i := by
    intro i t h
    obtain ⟨t₀, ht₀, -, hindex, -⟩ := fillGasUsed_get h
    exact hindex.trans (hentries i t₀ ht₀).1
  obtain ⟨t₀, ht₀, -, -, hmsgIndex⟩ := fillGasUsed_get hentry
  unfold readMessage
  rw [parseTxResult_eq hparse, hint]
  simp only [Nat.cast_add]
  rw [getTxByTxIndex_eq (p := ⟨ParsedTxs.fillGasUsed tx.result.gasUsed p.txs, p.txHashes⟩) hindexes hentry]
  simp only [hmsgIndex, (hentries i t₀ ht₀).2]

/-- Nothing is in the events. -/
theorem shows_silent {n : ℕ} {tx : BlockResult} (hevents : Interleaves tx.result.events []) : Shows n 0 tx where
  indexed idx := by
    rw [hevents.any_indexedUnder]
    simp
  reads _ _ hle hlt := absurd hlt (by omega)

/-- A list of consecutive numbers, place by place. -/
theorem getElem?_of_map_eq_range' {α : Type} {f : α → ℕ} {l : List α} {n k : ℕ}
    (h : l.map f = List.range' n k) {i : ℕ} {a : α} (ha : l[i]? = some a) : f a = n + i ∧ n + i < n + k := by
  have hget : (List.range' n k)[i]? = some (f a) := by rw [← h, List.getElem?_map, ha]; rfl
  obtain ⟨hi, heq⟩ := List.getElem?_eq_some_iff.mp hget
  rw [List.getElem_range', Nat.one_mul] at heq
  rw [List.length_range'] at hi
  omega

/-- A number in a range is below its end. -/
theorem lt_of_map_eq_range' {α : Type} {f : α → ℕ} {l : List α} {n k : ℕ} (h : l.map f = List.range' n k)
    {a : α} (ha : a ∈ l) : f a < n + k := by
  obtain ⟨i, hi⟩ := List.mem_iff_getElem?.mp ha
  obtain ⟨heq, hlt⟩ := getElem?_of_map_eq_range' h hi
  omega

/-- A list that is numbered by a range has its length. -/
theorem length_of_map_eq_range' {α : Type} {f : α → ℕ} {l : List α} {n k : ℕ}
    (h : l.map f = List.range' n k) : l.length = k := by
  rw [← List.length_map f, h, List.length_range']

/-- Only the announcements were kept. -/
theorem shows_announced {n : ℕ} {out : EthAnte} {tx : BlockResult} (hannounces : AnnouncesFrom n out)
    (hevents : Interleaves tx.result.events out.events) (hsmall : n + out.msgs.length ≤ 2 ^ 63) :
    Shows n out.msgs.length tx where
  indexed idx := by rw [hevents.any_indexedUnder, hannounces.any_indexedUnder]
  reads place idx hle hlt := by
    have hlength : out.hashes.length = out.msgs.length := length_of_map_eq_range' hannounces
    have hne : out.hashes ≠ [] := List.ne_nil_of_length_pos (by omega)
    have hbound : ∀ a ∈ out.hashes, a.2 < 2 ^ 63 := fun a ha =>
      (lt_of_map_eq_range' hannounces ha).trans_le hsmall
    have hparse := hevents.parse.trans (parse_firstPart hne hbound)
    refine readMessage_of_parse hparse ?_ place hle (by rw [List.length_mapIdx]; omega) (by omega)
    intro i t ht
    rw [List.getElem?_mapIdx] at ht
    obtain ⟨a, ha, rfl⟩ := Option.map_eq_some_iff.mp ht
    obtain ⟨heq, -⟩ := getElem?_of_map_eq_range' hannounces ha
    exact ⟨by rw [Outcome.announcedTx, heq, Nat.cast_add], rfl⟩

/-- The numbers in the events of messages that were executed fit in an `int64`. -/
theorem fits_of_range' {n k : ℕ} {os : List Outcome} (hindexes : os.map Outcome.txIndex = List.range' n k)
    (hgas : ∀ r ∈ os.map (fun o => (o.response, o.events json)), r.1.gasUsed.toNat < 2 ^ 63)
    (hsmall : n + k ≤ 2 ^ 63) : ∀ o ∈ os, o.Fits := fun _ ho =>
  ⟨(lt_of_map_eq_range' hindexes ho).trans_le hsmall, hgas _ (List.mem_map_of_mem ho)⟩

/-- The entries that are parsed for messages that were executed. -/
theorem parsedTx_of_range' {n k : ℕ} {os : List Outcome} (hindexes : os.map Outcome.txIndex = List.range' n k) {i : ℕ}
    {t : ParsedTx} (ht : (os.mapIdx fun i o => o.parsedTx json i)[i]? = some t) :
    t.ethTxIndex = (n : ℤ) + i ∧ t.msgIndex = i := by
  rw [List.getElem?_mapIdx] at ht
  obtain ⟨o, ho, rfl⟩ := Option.map_eq_some_iff.mp ht
  obtain ⟨heq, -⟩ := getElem?_of_map_eq_range' hindexes ho
  exact ⟨by rw [Outcome.parsedTx, heq, Nat.cast_add], rfl⟩

/-- All messages were executed. -/
theorem shows_executed {n : ℕ} {out : EthAnte} {results : List (Response × List Event)} {tx : BlockResult}
    (hannounces : AnnouncesFrom n out) (hexecuted : ExecutedFrom json n out.msgs.length results)
    (hgas : ∀ r ∈ results, r.1.gasUsed.toNat < 2 ^ 63)
    (hevents : Interleaves tx.result.events (out.events ++ results.flatMap Prod.snd))
    (hsmall : n + out.msgs.length ≤ 2 ^ 63) : Shows n out.msgs.length tx where
  indexed idx := by
    rw [hevents.any_indexedUnder, List.any_append, hannounces.any_indexedUnder,
      hexecuted.any_indexedUnder json, Bool.or_self]
  reads place idx hle hlt := by
    obtain ⟨os, rfl, hindexes⟩ := hexecuted
    have hlength : out.hashes.length = out.msgs.length := length_of_map_eq_range' hannounces
    have hcount : os.length = out.msgs.length := length_of_map_eq_range' hindexes
    have hne : out.hashes ≠ [] := List.ne_nil_of_length_pos (by omega)
    have hbound : ∀ a ∈ out.hashes, a.2 < 2 ^ 63 := fun a ha =>
      (lt_of_map_eq_range' hannounces ha).trans_le hsmall
    have hemitted : (os.map fun o => (o.response, o.events json)).flatMap Prod.snd =
        os.flatMap (Outcome.events json) := List.flatMap_map _ _ _
    rw [hemitted] at hevents
    have hparse := hevents.parse.trans
      (parse_format2 json hne hbound (hlength.trans hcount.symm) (fits_of_range' json hindexes hgas hsmall))
    exact readMessage_of_parse hparse (fun i t => parsedTx_of_range' json hindexes) place hle
      (by rw [List.length_mapIdx]; omega) (by omega)

/-- A `MsgExec` ran Ethereum messages: they were not announced, so that the parser takes their events for the older
format. -/
theorem shows_nested {n : ℕ} {results : List (Response × List Event)} {tx : BlockResult}
    (hexecuted : ExecutedFrom json n results.length results) (hgas : ∀ r ∈ results, r.1.gasUsed.toNat < 2 ^ 63)
    (hevents : Interleaves tx.result.events (results.flatMap Prod.snd)) (hsmall : n + results.length ≤ 2 ^ 63) :
    Shows n results.length tx where
  indexed idx := by rw [hevents.any_indexedUnder, hexecuted.any_indexedUnder json]
  reads place idx hle hlt := by
    obtain ⟨os, rfl, hindexes⟩ := hexecuted
    have hcount := length_of_map_eq_range' hindexes
    have hne : os ≠ [] := List.ne_nil_of_length_pos (by omega)
    have hemitted : (os.map fun o => (o.response, o.events json)).flatMap Prod.snd =
        os.flatMap (Outcome.events json) := List.flatMap_map _ _ _
    rw [hemitted] at hevents
    have hparse := hevents.parse.trans (parse_format1_start json hne (fits_of_range' json hindexes hgas hsmall))
    exact readMessage_of_parse hparse (fun i t => parsedTx_of_range' json hindexes) place hle
      (by rw [List.length_mapIdx]; omega) (by omega)

/-- **What the server sees of a transaction**, however it ended. -/
theorem Ended.shows {n : ℕ} {e : Ended} {tx : BlockResult} (hat : e.At json n) (hreports : Reports e tx)
    (hgas : e.GasFits) (hsmall : n + e.announced ≤ 2 ^ 63) : Shows n e.announced tx := by
  cases e with
  | cosmos msgs results => exact shows_nested json hat hgas hreports.1 hsmall
  | ethereum e =>
      cases e with
      | rejected => exact shows_silent hreports.1
      | aborted reason out => exact shows_announced hat hreports.1 hsmall
      | executed out results =>
          exact shows_executed json hat.1 hat.2 (fun r hr => hgas r.1 (List.mem_map_of_mem hr)) hreports.1 hsmall

/-- **What is counted of a transaction**, however it ended. -/
theorem Reports.counted {e : Ended} {tx : BlockResult} (h : Reports e tx) (place : ℕ) :
    (if txSuccessOrExceedsBlockGasLimit tx.result then located place tx.msgs else []).length = e.counted := by
  cases e with
  | cosmos msgs results =>
      obtain ⟨-, rfl, hnone⟩ := h
      rw [located_of_cosmos hnone, ite_self]
      rfl
  | ethereum e =>
      cases e with
      | rejected => simp [h.2, Ended.counted]
      | executed out results =>
          have hcounted : txSuccessOrExceedsBlockGasLimit tx.result = true := by
            simp [txSuccessOrExceedsBlockGasLimit, h.2.2]
          rw [if_pos hcounted]
          exact (located_get h.2.1 place).1
      | aborted reason out =>
          obtain ⟨-, hmsgs, hcode, hlog⟩ := h
          cases reason with
          | blockGas =>
              have hcounted : txSuccessOrExceedsBlockGasLimit tx.result = true := by
                simp [txSuccessOrExceedsBlockGasLimit, hlog.mpr rfl]
              rw [if_pos hcounted]
              exact (located_get hmsgs place).1
          | other =>
              have hcounted : txSuccessOrExceedsBlockGasLimit tx.result = false := by
                simpa [txSuccessOrExceedsBlockGasLimit, hcode] using hlog
              rw [if_neg (by simp [hcounted])]
              rfl

/-! ## Agreement -/

/-- The search reads the first transaction with an event under the index. -/
theorem findByEventsFrom_cons (idx place : ℕ) (tx : BlockResult) (txs : List BlockResult) :
    findByEventsFrom idx place (tx :: txs) =
      if tx.result.events.any (IndexedUnder idx) then readMessage place tx idx
      else findByEventsFrom idx (place + 1) txs := by
  unfold findByEventsFrom
  rw [getTxByTxIndexFrom]
  split_ifs <;> rfl

/-- The messages from a place on are at that place or after it. -/
theorem le_of_mem_ethereumMsgsFrom {place : ℕ} {txs : List BlockResult} {m : Located}
    (h : m ∈ ethereumMsgsFrom place txs) : place ≤ m.tx := by
  induction txs generalizing place with
  | nil => exact absurd h List.not_mem_nil
  | cons tx txs ih =>
      rcases List.mem_append.mp h with hfirst | hrest
      · split_ifs at hfirst
        · obtain ⟨⟨msg, i⟩, -, hmsg⟩ := List.mem_filterMap.mp hfirst
          cases msg with
          | ethereumTx eth => rw [← Option.some.inj hmsg]
          | exec grantee inner => exact absurd hmsg (by simp)
          | other typeURL signers => exact absurd hmsg (by simp)
        · exact absurd hfirst List.not_mem_nil
      · exact (Nat.le_succ place).trans (ih hrest)

/-- Nothing is counted. -/
theorem ethereumMsgsFrom_eq_nil_iff {es : List Ended} {txs : List BlockResult} (h : List.Forall₂ Reports es txs)
    (place : ℕ) : ethereumMsgsFrom place txs = [] ↔ ∀ e ∈ es, e.counted = 0 := by
  induction h generalizing place with
  | nil => simp [ethereumMsgsFrom]
  | @cons e tx es txs hreports _ ih =>
      rw [ethereumMsgsFrom, List.append_eq_nil_iff, ih, List.forall_mem_cons, ← hreports.counted place,
        List.length_eq_zero_iff]

/-- The two ways agree on the indexes from `n` on that fit in an `int64`, in the transactions from a place on. -/
def AgreeFrom (n place : ℕ) (txs : List BlockResult) : Prop :=
  ∀ idx, n ≤ idx → idx < 2 ^ 63 → findByEventsFrom idx place txs = .ok (ethereumMsgsFrom place txs)[idx - n]?

/-- An index that is not in the events of a transaction. -/
theorem Shows.findByEventsFrom_of_not {n k : ℕ} {tx : BlockResult} (h : Shows n k tx) {idx : ℕ}
    (hidx : ¬(n ≤ idx ∧ idx < n + k)) (place : ℕ) (txs : List BlockResult) :
    findByEventsFrom idx place (tx :: txs) = findByEventsFrom idx (place + 1) txs := by
  rw [findByEventsFrom_cons, h.indexed, if_neg (by simpa using hidx)]

/-- An index that is in the events of a transaction. -/
theorem Shows.findByEventsFrom_eq {n k : ℕ} {tx : BlockResult} (h : Shows n k tx) {idx : ℕ} (hle : n ≤ idx)
    (hlt : idx < n + k) (place : ℕ) (txs : List BlockResult) :
    findByEventsFrom idx place (tx :: txs) = ethereumMsgAt place tx.msgs (idx - n) := by
  rw [findByEventsFrom_cons, h.indexed, if_pos (by simp [hle, hlt]), h.reads place idx hle hlt]

/-- A transaction of which all announced messages are counted. -/
theorem agreeFrom_cons_counted {n place : ℕ} {tx : BlockResult} {txs : List BlockResult} {eths : List MsgEthereumTx}
    (hmsgs : List.Forall₂ SameContent tx.msgs eths) (hshows : Shows n eths.length tx)
    (hcounted : txSuccessOrExceedsBlockGasLimit tx.result = true) :
    AgreeFrom n place (tx :: txs) ↔ AgreeFrom (n + eths.length) (place + 1) txs := by
  have hlength := (located_get hmsgs place).1
  have hlist : ethereumMsgsFrom place (tx :: txs) = located place tx.msgs ++ ethereumMsgsFrom (place + 1) txs := by
    rw [ethereumMsgsFrom, if_pos hcounted]
  -- Beyond the indexes of the transaction, both ways go on to the next one.
  have hbeyond : ∀ idx, n + eths.length ≤ idx → (ethereumMsgsFrom place (tx :: txs))[idx - n]? =
      (ethereumMsgsFrom (place + 1) txs)[idx - (n + eths.length)]? := by
    intro idx hle
    rw [hlist, List.getElem?_append_right (by omega), hlength, Nat.sub_sub]
  constructor
  · intro h idx hle hidx
    rw [← hshows.findByEventsFrom_of_not (by omega) place, ← hbeyond idx hle]
    exact h idx (by omega) hidx
  · intro h idx hle hidx
    by_cases hlt : idx < n + eths.length
    · rw [hshows.findByEventsFrom_eq hle hlt, ethereumMsgAt_of_sameContent hmsgs place (by omega), hlist,
        List.getElem?_append_left (by omega)]
    · rw [hshows.findByEventsFrom_of_not (by omega), hbeyond idx (by omega)]
      exact h idx (by omega) hidx

/-- A transaction with nothing in its events and nothing to count. -/
theorem agreeFrom_cons_silent {n place : ℕ} {tx : BlockResult} {txs : List BlockResult} (hshows : Shows n 0 tx)
    (hcounted : (if txSuccessOrExceedsBlockGasLimit tx.result then located place tx.msgs else []) = []) :
    AgreeFrom n place (tx :: txs) ↔ AgreeFrom n (place + 1) txs := by
  unfold AgreeFrom
  rw [ethereumMsgsFrom, hcounted, List.nil_append]
  refine forall_congr' fun idx => ?_
  rw [hshows.findByEventsFrom_of_not (by omega)]

/-- A transaction that was announced and is not counted. -/
theorem not_agreeFrom_cons_uncounted {n place : ℕ} {tx : BlockResult} {txs : List BlockResult}
    {eths : List MsgEthereumTx} (hmsgs : List.Forall₂ SameContent tx.msgs eths) (hshows : Shows n eths.length tx)
    (hpos : 0 < eths.length) (hsmall : n + eths.length ≤ 2 ^ 63)
    (hcounted : txSuccessOrExceedsBlockGasLimit tx.result = false) : ¬AgreeFrom n place (tx :: txs) := by
  intro h
  obtain ⟨eth, -, hget⟩ := (located_get hmsgs place).2 0 hpos
  have hfirst := h n (Nat.le_refl n) (by omega)
  rw [hshows.findByEventsFrom_eq (Nat.le_refl n) (by omega), Nat.sub_self,
    ethereumMsgAt_of_sameContent hmsgs place hpos, hget, ethereumMsgsFrom, if_neg (by simp [hcounted]),
    List.nil_append] at hfirst
  have hmem := List.mem_of_getElem? (Except.ok.inj hfirst).symm
  exact absurd (le_of_mem_ethereumMsgsFrom hmem) (by simp)

/-- A transaction whose `MsgExec` ran Ethereum messages: the first index of these leads to no message, so that none
may be counted from here on. -/
theorem agreeFrom_cons_nested {n k place : ℕ} {tx : BlockResult} {txs : List BlockResult} (hshows : Shows n k tx)
    (hnone : ∀ msg ∈ tx.msgs, ∀ eth : MsgEthereumTx, msg ≠ .ethereumTx eth) (hpos : 0 < k)
    (hsmall : n + k ≤ 2 ^ 63) :
    AgreeFrom n place (tx :: txs) ↔
      k ≤ tx.msgs.length ∧ ethereumMsgsFrom (place + 1) txs = [] ∧ AgreeFrom (n + k) (place + 1) txs := by
  have hlist : ethereumMsgsFrom place (tx :: txs) = ethereumMsgsFrom (place + 1) txs := by
    rw [ethereumMsgsFrom, located_of_cosmos hnone, ite_self, List.nil_append]
  have hread : ∀ idx, n ≤ idx → idx < n + k → findByEventsFrom idx place (tx :: txs) =
      if idx - n < tx.msgs.length then .ok none else .error .indexOutOfRange := fun idx hle hlt =>
    (hshows.findByEventsFrom_eq hle hlt place txs).trans (ethereumMsgAt_of_cosmos hnone place _)
  constructor
  · intro h
    have hfits : k ≤ tx.msgs.length := by
      have hlast := h (n + (k - 1)) (by omega) (by omega)
      rw [hread _ (by omega) (by omega)] at hlast
      split_ifs at hlast
      omega
    have hempty : ethereumMsgsFrom (place + 1) txs = [] := by
      have hfirst := h n (Nat.le_refl n) (by omega)
      rw [hread _ (Nat.le_refl n) (by omega), if_pos (by omega), hlist, Nat.sub_self] at hfirst
      exact List.eq_nil_of_length_eq_zero
        (Nat.le_zero.mp (List.getElem?_eq_none_iff.mp (Except.ok.inj hfirst).symm))
    refine ⟨hfits, hempty, ?_⟩
    intro idx hle hidx
    have hrest := h idx (by omega) hidx
    rw [hshows.findByEventsFrom_of_not (by omega), hlist] at hrest
    rw [hrest, hempty]
    rfl
  · rintro ⟨hfits, hempty, hrest⟩ idx hle hidx
    rw [hlist, hempty, List.getElem?_nil]
    by_cases hlt : idx < n + k
    · rw [hread idx hle hlt, if_pos (by omega)]
    · rw [hshows.findByEventsFrom_of_not (by omega), hrest idx (by omega) hidx, hempty, List.getElem?_nil]

/-- Silent transactions use up no index. -/
theorem numbered_of_silent {es : List Ended} (h : ∀ e ∈ es, e.Silent) (n : ℕ) : Numbered json n es := by
  induction es generalizing n with
  | nil => trivial
  | cons e es ih =>
      refine ⟨?_, ih (fun e' he' => h e' (List.mem_cons_of_mem e he')) _⟩
      rcases h e List.mem_cons_self with rfl | ⟨msgs, rfl⟩
      · trivial
      · exact ⟨[], rfl, rfl⟩

/-- The condition on a `MsgExec` says nothing about an Ethereum transaction. -/
theorem nestedLast_cons_ethereum {e : TxEnd} {es : List Ended} : NestedLast (.ethereum e :: es) ↔ NestedLast es :=
  and_iff_right (by simp)

/-- The condition on a `MsgExec`, where there is one. -/
theorem nestedLast_cons_cosmos {msgs : List Msg} {results : List (Response × List Event)} {es : List Ended} :
    NestedLast (.cosmos msgs results :: es) ↔
      (results ≠ [] → results.length ≤ msgs.length ∧ ∀ e' ∈ es, e'.counted = 0) ∧ NestedLast es := by
  refine and_congr_left fun _ => ⟨fun h => h msgs results rfl, ?_⟩
  rintro h msgs' results' heq
  obtain ⟨rfl, rfl⟩ := Ended.cosmos.inj heq
  exact h

/-- **Agreement, transaction by transaction.** -/
theorem agreeFrom_iff {es : List Ended} {txs : List BlockResult} (hreports : List.Forall₂ Reports es txs)
    {n place : ℕ} (hnumbered : Numbered json n es) (hgasEnds : GasEndsBlock es)
    (hgas : ∀ e ∈ es, e.GasFits) (hsmall : n + (es.map Ended.announced).sum ≤ 2 ^ 63) :
    AgreeFrom n place txs ↔ (∀ e ∈ es, ¬e.FailsAfterAnte) ∧ NestedLast es := by
  induction hreports generalizing n place with
  | nil => simp [AgreeFrom, findByEventsFrom, getTxByTxIndexFrom, ethereumMsgsFrom, NestedLast]
  | @cons e tx es txs hreport hreports' ih =>
      rw [List.map_cons, List.sum_cons] at hsmall
      have hshows := Ended.shows json hnumbered.1 hreport (hgas e List.mem_cons_self) (by omega)
      have hcounted := hreport.counted place
      have hrest : ∀ m, Numbered json m es → m + (es.map Ended.announced).sum ≤ 2 ^ 63 →
          (AgreeFrom m (place + 1) txs ↔ (∀ e' ∈ es, ¬e'.FailsAfterAnte) ∧ NestedLast es) := fun m hm hle =>
        ih hm hgasEnds.2 (fun e' he' => hgas e' (List.mem_cons_of_mem e he')) hle
      rw [List.forall_mem_cons]
      cases e with
      | cosmos msgs results =>
          have hnot : ¬(Ended.cosmos msgs results).FailsAfterAnte := id
          rw [nestedLast_cons_cosmos, and_iff_right hnot]
          by_cases hresults : results = []
          · subst hresults
            rw [agreeFrom_cons_silent hshows (List.length_eq_zero_iff.mp hcounted), hrest n hnumbered.2 (by omega)]
            simp
          · obtain ⟨-, rfl, hnone⟩ := hreport
            have hpos : 0 < results.length := List.length_pos_iff.mpr hresults
            have hannounced : Ended.announced (.cosmos tx.msgs results) = results.length := rfl
            rw [hannounced] at hshows
            rw [agreeFrom_cons_nested hshows hnone hpos (by omega), hrest (n + results.length) hnumbered.2 (by omega),
              ethereumMsgsFrom_eq_nil_iff hreports']
            tauto
      | ethereum e =>
          rw [nestedLast_cons_ethereum]
          cases e with
          | rejected =>
              have hnot : ¬(Ended.ethereum .rejected).FailsAfterAnte := id
              rw [and_iff_right hnot, agreeFrom_cons_silent hshows (List.length_eq_zero_iff.mp hcounted),
                hrest n hnumbered.2 (by omega)]
          | executed out results =>
              have hnot : ¬(Ended.ethereum (.executed out results)).FailsAfterAnte := id
              have hcode : txSuccessOrExceedsBlockGasLimit tx.result = true := by
                simp [txSuccessOrExceedsBlockGasLimit, hreport.2.2]
              have hannounced : Ended.announced (.ethereum (.executed out results)) = out.msgs.length := rfl
              rw [and_iff_right hnot, agreeFrom_cons_counted hreport.2.1 hshows hcode,
                hrest (n + out.msgs.length) hnumbered.2 (by omega)]
          | aborted reason out =>
              have hannounced : Ended.announced (.ethereum (.aborted reason out)) = out.msgs.length := rfl
              obtain ⟨-, hmsgs, hcode, hlog⟩ := hreport
              cases reason with
              | blockGas =>
                  have hnot : ¬(Ended.ethereum (.aborted .blockGas out)).FailsAfterAnte := id
                  have hexceeds : txSuccessOrExceedsBlockGasLimit tx.result = true := by
                    simp [txSuccessOrExceedsBlockGasLimit, hlog.mpr rfl]
                  -- The counter was rolled back, but no later transaction uses it.
                  have hsilent := hgasEnds.1 ⟨out, rfl⟩
                  rw [and_iff_right hnot, agreeFrom_cons_counted hmsgs hshows hexceeds,
                    hrest _ (numbered_of_silent json hsilent _) (by omega)]
              | other =>
                  by_cases hempty : out.msgs = []
                  · have hnot : ¬(Ended.ethereum (.aborted .other out)).FailsAfterAnte := not_not.mpr hempty
                    have hzero : Ended.announced (.ethereum (.aborted .other out)) = 0 := by
                      simp [Ended.announced, hempty]
                    rw [hzero] at hshows
                    rw [and_iff_right hnot, agreeFrom_cons_silent hshows (List.length_eq_zero_iff.mp hcounted),
                      hrest n hnumbered.2 (by omega)]
                  · have hfails : txSuccessOrExceedsBlockGasLimit tx.result = false := by
                      simpa [txSuccessOrExceedsBlockGasLimit, hcode] using hlog
                    refine iff_of_false ?_ fun h => absurd hempty h.1.1
                    exact not_agreeFrom_cons_uncounted hmsgs hshows (List.length_pos_iff.mpr hempty) (by omega) hfails

/-- No transaction has an index in its events that does not fit in an `int64`. -/
theorem getTxByTxIndexFrom_large {es : List Ended} {txs : List BlockResult} (hreports : List.Forall₂ Reports es txs)
    {n : ℕ} (hnumbered : Numbered json n es) (hgas : ∀ e ∈ es, e.GasFits)
    (hsmall : n + (es.map Ended.announced).sum ≤ 2 ^ 63) {idx : ℕ} (hidx : 2 ^ 63 ≤ idx) (place : ℕ) :
    getTxByTxIndexFrom idx place txs = none := by
  induction hreports generalizing n place with
  | nil => rfl
  | @cons e tx es txs hreport _ ih =>
      rw [List.map_cons, List.sum_cons] at hsmall
      have hshows := Ended.shows json hnumbered.1 hreport (hgas e List.mem_cons_self) (by omega)
      have hused := e.used_le_announced
      rw [getTxByTxIndexFrom, hshows.indexed, if_neg (by simp; omega)]
      exact ih hnumbered.2 (fun e' he' => hgas e' (List.mem_cons_of_mem e he')) (by omega) (place + 1)

/-! ## Blocks that were delivered -/

/-- What the messages emitted, as outcomes. -/
theorem executedFrom_of_forall₂ {txHash : Option String} {eths : List MsgEthereumTx} {n : ℕ}
    {results : List (Response × List Event)}
    (h : List.Forall₂ (fun (p : MsgEthereumTx × ℕ) r => r.2 =
      ethereumTxEvents json p.1.data p.1.from p.2 txHash r.1) (eths.zipIdx n) results) :
    ∃ os : List Outcome, results = os.map (fun o => (o.response, o.events json)) ∧
      os.map Outcome.txIndex = List.range' n eths.length := by
  induction eths generalizing n results with
  | nil =>
      obtain rfl := List.forall₂_nil_left_iff.mp h
      exact ⟨[], rfl, rfl⟩
  | cons eth eths ih =>
      rw [List.zipIdx_cons] at h
      obtain ⟨⟨response, events⟩, results', hevents, hrest, rfl⟩ := List.forall₂_cons_left_iff.mp h
      obtain ⟨os, rfl, hindexes⟩ := ih hrest
      refine ⟨⟨eth.data, eth.from, n, txHash, response⟩ :: os, ?_, ?_⟩
      · exact congrArg (fun events => (response, events) :: _) hevents
      · rw [List.map_cons, hindexes, List.length_cons, List.range'_succ]

/-- **The indexes in the events of a block that was delivered.** -/
theorem deliverBlock_numbered (app : App) (sdk : Sdk) (bs : List BlockTx) (st : Store) :
    Numbered json st.transient.txIndex ((deliverBlock app json sdk bs st).1.map Ended.ethereum) := by
  induction bs generalizing st with
  | nil => trivial
  | cons b bs ih =>
      have hrest := ih (deliverTx app json sdk b st).2
      have hfirst := deliverTx_delivered app json sdk b st
      simp only [deliverBlock, List.map_cons, Numbered]
      generalize (deliverTx app json sdk b st).1 = e at hfirst ⊢
      generalize (deliverTx app json sdk b st).2 = st' at hfirst hrest ⊢
      have hannounces : ∀ {out : EthAnte} {st₁ : Store},
          newEthAnteHandler app b.ctx sdk b.tx false st = .ok out st₁ →
            st₁.transient.txIndex = st.transient.txIndex ∧ AnnouncesFrom st.transient.txIndex out := by
        intro out st₁ hante
        have hsame := (newEthAnteHandler_sameCounters hante).txIndex
        refine ⟨hsame, ?_⟩
        unfold AnnouncesFrom
        rw [(newEthAnteHandler_announces hante).2, ethEmitEvent_eq, List.map_map, ← hsame]
        exact List.zipIdx_map_snd _ _
      cases hfirst with
      | rejected => exact ⟨trivial, hrest⟩
      | aborted hante =>
          obtain ⟨hsame, hout⟩ := hannounces hante
          rw [hsame] at hrest
          exact ⟨hout, hrest⟩
      | @executed out results st₁ st₂ hante hmsgs =>
          obtain ⟨hsame, hout⟩ := hannounces hante
          obtain ⟨-, hevents, hnext⟩ := runEthMsgs_ok hmsgs (BlockRun.start st₁)
          have hlength : results.length = out.msgs.length := by
            rw [← hevents.length_eq, List.length_zipIdx]
          rw [hnext, hsame, hlength] at hrest
          rw [hsame] at hevents
          exact ⟨⟨hout, executedFrom_of_forall₂ json hevents⟩, hrest⟩

/-- A log of a transaction that was aborted. -/
def abortLog : AbortReason → String
  | .blockGas => "out of gas in location: block gas meter; gasWanted: 100000, gasUsed: 100000: out of gas"
  | .other => "failed to execute message; message index: 0"

/-- Only the end at the block gas limit is told as such. -/
theorem abortLog_exceeds : ∀ reason : AbortReason,
    exceedBlockGasLimitError.toList <:+: (abortLog reason).toList ↔ reason = .blockGas
  | .blockGas => by decide +kernel
  | .other => by decide +kernel

/-- A result for a transaction that ended so, with no other events. -/
def sampleResult : TxEnd → TxResult
  | .rejected => ⟨11, "no block gas left to run tx: out of gas", 0, []⟩
  | .aborted reason out => ⟨11, abortLog reason, 0, out.events⟩
  | .executed out results => ⟨0, "[]", 0, out.events ++ results.flatMap Prod.snd⟩

/-- The sample results report how the transactions ended. -/
theorem reports_of_delivered {app : App} {sdk : Sdk} {b : BlockTx} {st st' : Store} {e : TxEnd}
    (h : Delivered app json sdk b st e st') : Reports (.ethereum e) ⟨b.tx.msgs, sampleResult e⟩ := by
  cases h with
  | rejected =>
      have hlog : txSuccessOrExceedsBlockGasLimit (sampleResult .rejected) = false := by decide +kernel
      exact ⟨rfl, hlog⟩
  | @aborted reason out st₁ hante =>
      refine ⟨rfl, (newEthAnteHandler_announces hante).1, by simp [sampleResult], ?_⟩
      exact decide_eq_true_iff.trans (abortLog_exceeds reason)
  | executed hante _ => exact ⟨rfl, (newEthAnteHandler_announces hante).1, rfl⟩

/-- The block of transactions that were delivered. -/
def deliveredBlock (app : App) (sdk : Sdk) (bs : List BlockTx) (st : Store) : List BlockResult :=
  bs.zipWith (fun b e => ⟨b.tx.msgs, sampleResult e⟩) (deliverBlock app json sdk bs st).1

/-- **A block that was delivered reports how its transactions ended.** -/
theorem deliverBlock_reports (app : App) (sdk : Sdk) (bs : List BlockTx) (st : Store) :
    List.Forall₂ Reports ((deliverBlock app json sdk bs st).1.map Ended.ethereum)
      (deliveredBlock json app sdk bs st) := by
  unfold deliveredBlock
  induction bs generalizing st with
  | nil => exact List.Forall₂.nil
  | cons b bs ih =>
      exact List.Forall₂.cons (reports_of_delivered json (deliverTx_delivered app json sdk b st))
        (ih (deliverTx app json sdk b st).2)

/-! ## The two ways -/

/-- The two ways agree at an index: the index of events leads to the message that is counted there, and so
the server returns it. -/
def LookupsAgree (block : List BlockResult) (idx : UInt64) : Prop :=
  findByEvents block idx = .ok (getEthereumMsgsFromTendermintBlock block)[idx.toNat]? ∧
    getTransactionByBlockAndIndex block idx = .ok (getEthereumMsgsFromTendermintBlock block)[idx.toNat]?

/-- Where the index of events has no answer, the server takes the message that is counted. -/
theorem lookupsAgree_iff {block : List BlockResult} {idx : UInt64} (hidx : idx.toNat < 2 ^ 63) :
    LookupsAgree block idx ↔
      findByEvents block idx = .ok (getEthereumMsgsFromTendermintBlock block)[idx.toNat]? := by
  refine and_iff_left_of_imp fun h => ?_
  unfold findByEvents findByEventsFrom at h
  unfold getTransactionByBlockAndIndex
  split
  · rename_i place tx hfound
    rw [hfound] at h
    exact h
  · unfold countedMsgAt
    rw [int64_eq (by omega) (by exact_mod_cast hidx), if_neg (by omega : ¬((idx.toNat : ℤ) < 0)), Int.toNat_natCast]
    split_ifs with hbound
    · rw [List.getElem?_eq_none (by omega)]
    · rfl

/-- **When lookups by index agree** in a block: at the indexes that fit in an `int`, if and only if no transaction
with Ethereum messages failed after the ante handler for another reason than the gas limit of the block, and nothing
is counted after a `MsgExec` that ran Ethereum messages; at the others never, as `int(idx)` is negative there and the
server panics. -/
theorem lookups_agree_iff (block : EndedBlock json) {txs : List BlockResult}
    (hreports : List.Forall₂ Reports block.ends txs) :
    ((∀ idx : UInt64, idx.toNat < 2 ^ 63 → LookupsAgree txs idx) ↔
      (∀ e ∈ block.ends, ¬e.FailsAfterAnte) ∧ NestedLast block.ends) ∧
    ∀ idx : UInt64, 2 ^ 63 ≤ idx.toNat → getTransactionByBlockAndIndex txs idx = .error .indexOutOfRange := by
  have hsmall := block.small
  constructor
  · have hagree : AgreeFrom 0 0 txs ↔ (∀ e ∈ block.ends, ¬e.FailsAfterAnte) ∧ NestedLast block.ends :=
      agreeFrom_iff json hreports block.numbered block.gasEndsBlock block.gasFits (by omega)
    rw [← hagree]
    constructor
    · intro h idx _ hidx
      have hsize : idx < UInt64.size := hidx.trans (by decide)
      have hofNat : (UInt64.ofNat idx).toNat = idx := UInt64.toNat_ofNat_of_lt' hsize
      have hidx' := (h (.ofNat idx) (by omega)).1
      rw [findByEvents, hofNat] at hidx'
      exact hidx'
    · intro h idx hidx
      exact (lookupsAgree_iff hidx).mpr (h idx.toNat (Nat.zero_le _) hidx)
  · intro idx hidx
    have hlt := idx.toNat_lt
    unfold getTransactionByBlockAndIndex countedMsgAt
    rw [getTxByTxIndexFrom_large json hreports block.numbered block.gasFits (by omega) hidx,
      int64_overflow (by exact_mod_cast hidx) (by exact_mod_cast hlt)]
    simp only
    rw [if_neg (by omega), if_pos (by omega)]

end blocks

/-- Stores from which three transactions can be paid. -/
def threeTxStore [Keccak] : Store :=
  { beforeBatch (.ofNat 20 1) with
    balances := (GoMap.empty.set (.ofNat 20 1) 4000000).set (sampleEnv.moduleAddress .feeCollector) 1800000 }

/-- The second of three transactions exceeded the gas limit of the block. -/
def exceedsSecond : List TxEnd → Bool
  | [.executed _ _, .aborted .blockGas _, .rejected] => true
  | _ => false

/-- What the evaluation of the sample block shows. -/
theorem exists_of_exceedsSecond {ends : List TxEnd} (h : exceedsSecond ends = true) :
    ∃ out results out', ends = [.executed out results, .aborted .blockGas out', .rejected] := by
  unfold exceedsSecond at h
  split at h
  · exact ⟨_, _, _, rfl⟩
  · exact absurd h (by simp)

/-- A transaction that is executed, one that exceeds the gas limit of the block, and one after it. -/
theorem lookups_agree_limit :
    letI := sampleKeccak
    let app := loggingApp (.ofNat 20 1) loggingCall none
    let bs : List BlockTx :=
      [sampleBlockTx (legacyTx 3 (some (.ofNat 20 2))) .completes,
        sampleBlockTx (legacyTx 4 (some (.ofNat 20 2))) (.aborts 1 .blockGas),
        sampleBlockTx (legacyTx 5 (some (.ofNat 20 2))) .beforeAnte]
    let block := deliveredBlock (sampleJson []) app sampleSdk bs threeTxStore
    (getEthereumMsgsFromTendermintBlock block).map Located.tx = [0, 1] ∧
      ∀ idx : UInt64, idx.toNat < 2 ^ 63 → LookupsAgree block idx := by
  let _ := sampleKeccak
  intro app bs block
  refine ⟨by decide +kernel, ?_⟩
  let ends := (deliverBlock app (sampleJson []) sampleSdk bs threeTxStore).1
  obtain ⟨out, results, out', hends⟩ := exists_of_exceedsSecond (by decide +kernel : exceedsSecond ends = true)
  have hgas : ∀ e ∈ ends, ∀ res ∈ e.responses, res.gasUsed.toNat < 2 ^ 63 := by decide +kernel
  let ended : EndedBlock (sampleJson []) :=
    { ends := ends.map Ended.ethereum
      numbered := deliverBlock_numbered (sampleJson []) app sampleSdk bs threeTxStore
      gasEndsBlock := by
        rw [hends]
        simp [GasEndsBlock, Ended.Silent]
      gasFits := by
        intro e he
        obtain ⟨e', he', rfl⟩ := List.mem_map.mp he
        exact hgas e' he'
      small := by decide +kernel }
  refine (lookups_agree_iff (sampleJson []) ended
    (deliverBlock_reports (sampleJson []) app sampleSdk bs threeTxStore)).1.mpr ?_
  show (∀ e ∈ ends.map Ended.ethereum, ¬e.FailsAfterAnte) ∧ NestedLast (ends.map Ended.ethereum)
  rw [hends]
  simp [Ended.FailsAfterAnte, NestedLast]

/-- A transaction that fails after the ante handler, and one that is executed: both are announced with the
index 0, and the index of events leads to the first. -/
theorem failed_shadows :
    letI := sampleKeccak
    let app := loggingApp (.ofNat 20 1) loggingCall none
    let bs : List BlockTx :=
      [sampleBlockTx (legacyTx 3 (some (.ofNat 20 2))) (.aborts 1 .other),
        sampleBlockTx (legacyTx 4 (some (.ofNat 20 2))) .completes]
    let block := deliveredBlock (sampleJson []) app sampleSdk bs threeTxStore
    (∃ eth eth' : MsgEthereumTx, findByEvents block 0 = .ok (some ⟨0, 0, eth⟩) ∧
      (getEthereumMsgsFromTendermintBlock block)[0]? = some ⟨1, 0, eth'⟩) ∧ ¬LookupsAgree block 0 := by
  let _ := sampleKeccak
  intro app bs block
  have hfind : findByEvents block 0 = .ok (some ⟨0, 0, ⟨legacyTx 3 (some (.ofNat 20 2)), none, ""⟩⟩) := by
    decide +kernel
  have hcounted : (getEthereumMsgsFromTendermintBlock block)[0]? =
      some ⟨1, 0, ⟨legacyTx 4 (some (.ofNat 20 2)), none, ""⟩⟩ := by
    decide +kernel
  refine ⟨⟨_, _, hfind, hcounted⟩, ?_⟩
  rintro ⟨hagree, -⟩
  rw [hfind] at hagree
  exact absurd (hagree.trans (congrArg Except.ok hcounted)) (by decide)

end Smartdoge.Rpc
