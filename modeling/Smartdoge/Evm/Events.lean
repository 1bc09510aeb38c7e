import Smartdoge.Evm.StateTransition
import Smartdoge.Types.Text

/-!
# Events

What an Ethereum message leaves for the indexer: the events `EthereumTx` emits after `ApplyTransaction`.
Their attributes are text. Logs are stored in the protobuf type of the module, with hashes and addresses
as text, and that is written as JSON into an attribute of the event `tx_log`.

* `toEthereum_newLogFromEth`: a log goes through the protobuf type unchanged.
* `ethereumTx_ok`: the events of a message that was executed.
-/

set_option linter.unusedSectionVars false

namespace Smartdoge.Evm

open Smartdoge.Lib.Writes
open Smartdoge.Statedb

/-- Source: tendermint `abci.EventAttribute` -/
structure Attribute where
  key : String
  value : String
deriving DecidableEq

/-- Source: tendermint `abci.Event` -/
structure Event where
  type : String
  attributes : List Attribute
deriving DecidableEq

/-- The value of the first attribute with a given key. -/
def Event.get? (event : Event) (key : String) : Option String :=
  (event.attributes.find? fun attr => attr.key = key).map Attribute.value

/-! ## Logs in protobuf -/

/-- Source: `types/evm.pb.go` `Log` -/
structure ProtoLog where
  address : String
  topics : List String
  data : Bytes
  blockNumber : ℕ
  txHash : String
  txIndex : ℕ
  blockHash : String
  index : ℕ
  removed : Bool
deriving DecidableEq

section logs

variable [Keccak]

/-- Source: `types/logs.go` `NewLogFromEth` -/
def newLogFromEth (log : Log) : ProtoLog where
  address := addressHex log.address
  topics := log.topics.map hashHex
  data := log.data
  blockNumber := log.blockNumber
  txHash := hashHex log.txHash
  txIndex := log.txIndex
  blockHash := hashHex log.blockHash
  index := log.index
  removed := log.removed

/-- Source: `types/logs.go` `ToEthereum` -/
def ProtoLog.toEthereum (log : ProtoLog) : Log where
  address := hexToAddress log.address
  topics := log.topics.map hexToHash
  data := log.data
  blockNumber := log.blockNumber
  txHash := hexToHash log.txHash
  txIndex := log.txIndex
  blockHash := hexToHash log.blockHash
  index := log.index
  removed := log.removed

/-- **A log goes through the protobuf type unchanged.** -/
@[simp] theorem toEthereum_newLogFromEth (log : Log) : (newLogFromEth log).toEthereum = log := by
  have htopics : (log.topics.map hashHex).map hexToHash = log.topics := by
    rw [List.map_map]
    exact List.map_id'' (fun h => hexToHash_hashHex h) log.topics
  simp only [ProtoLog.toEthereum, newLogFromEth, hexToAddress_addressHex, hexToHash_hashHex, htopics]

end logs

/-- Encodings of logs by code outside this repository. -/
structure LogJson where
  /-- `json.Marshal(log)`, which does not fail on a log. -/
  marshal : ProtoLog → String
  /-- `json.Unmarshal`; `none` is an error. -/
  unmarshal : String → Option ProtoLog

/-! ## The message server -/

section server

variable [Keccak] (app : App) (json : LogJson)

/-- The attributes of the event of a message that was executed.
Source: `keeper/msg_server.go` `EthereumTx`, `attrs` -/
def ethereumTxAttributes (tx : TxData) (txIndex : ℕ) (txHash : Option String) (response : Response) :
    List Attribute :=
  [⟨"amount", toString (tx.getValue.getD 0)⟩,
    ⟨"ethereumTxHash", hashHex response.hash⟩,
    ⟨"txIndex", formatUint txIndex⟩,
    ⟨"txGasUsed", formatUint response.gasUsed.toNat⟩] ++
  (txHash.map fun hash => ⟨"txHash", hash⟩).toList ++
  (tx.getTo.map fun dst => ⟨"recipient", addressHex dst⟩).toList ++
  if response.failed then [⟨"ethereumTxFailed", response.vmError⟩] else []

/-- `fmt.Sprintf("%d", tx.Type())`. -/
def TxType.text : TxType → String
  | .legacy => "0"
  | .accessList => "1"
  | .dynamicFee => "2"

/-- Source: `keeper/msg_server.go` `EthereumTx`, the emitted events -/
def ethereumTxEvents (tx : TxData) (sender : String) (txIndex : ℕ) (txHash : Option String)
    (response : Response) : List Event :=
  [⟨"ethereum_tx", ethereumTxAttributes tx txIndex txHash response⟩,
    ⟨"tx_log", response.logs.map fun log => ⟨"txLog", json.marshal (newLogFromEth log)⟩⟩,
    ⟨"message", [⟨"module", "evm"⟩, ⟨"sender", sender⟩, ⟨"txType", tx.txType.text⟩]⟩]

/-- The response and the events of a message. `txHash` is the hash of the Cosmos transaction, if its
bytes are known.
Source: `keeper/msg_server.go` `EthereumTx` -/
def App.ethereumTx (ctx : Context) (tx : TxData) (sender : String) (txHash : Option String) :
    TxM (Response × List Event) := do
  let st ← get
  let txIndex := st.transient.txIndex
  let response ← app.applyTransaction ctx tx
  pure (response, ethereumTxEvents json tx sender txIndex txHash response)

variable {app json}

/-- **The events of a message that was executed.** -/
theorem App.ethereumTx_ok {ctx : Context} {tx : TxData} {sender : String} {txHash : Option String}
    {st st' : Store} {response : Response} {events : List Event} :
    app.ethereumTx json ctx tx sender txHash st = .ok (response, events) st' ↔
      app.applyTransaction ctx tx st = .ok response st' ∧
        events = ethereumTxEvents json tx sender st.transient.txIndex txHash response := by
  unfold ethereumTx
  rw [bind_ok]
  constructor
  · rintro ⟨st₁, st₂, h₁, h⟩
    obtain ⟨rfl, rfl⟩ := get_ok.mp h₁
    obtain ⟨res, st₃, happly, h⟩ := bind_ok.mp h
    obtain ⟨heq, rfl⟩ := pure_ok.mp h
    obtain ⟨rfl, rfl⟩ := Prod.mk.inj heq
    exact ⟨happly, rfl⟩
  · rintro ⟨happly, rfl⟩
    exact ⟨st, st, get_ok.mpr ⟨rfl, rfl⟩, bind_ok.mpr ⟨response, st', happly, pure_ok.mpr ⟨rfl, rfl⟩⟩⟩

/-- The event carries the hash of the response and the index of the transaction. -/
theorem ethereumTxEvents_get (json : LogJson) (tx : TxData) (sender : String) (txIndex : ℕ) (txHash : Option String)
    (response : Response) :
    ∃ event ∈ ethereumTxEvents json tx sender txIndex txHash response, event.type = "ethereum_tx" ∧
      event.get? "ethereumTxHash" = some (hashHex response.hash) ∧
      event.get? "txIndex" = some (formatUint txIndex) :=
  ⟨_, List.mem_cons_self, rfl, rfl, rfl⟩

end server

/-! ## For concrete runs -/

/-- An encoding that knows a list of logs by their indexes. -/
def sampleJson (known : List ProtoLog) : LogJson where
  marshal log := formatUint log.index
  unmarshal s := known.find? fun log => formatUint log.index = s

end Smartdoge.Evm
