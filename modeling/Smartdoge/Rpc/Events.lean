import Smartdoge.Ante.Announce

/-!
# Reading events back

The RPC server finds the Ethereum transactions of a Cosmos transaction in its events. `ParseTxResult` walks
through them and builds one entry for a message. Today's format has two parts: the announcements of the
ante handler, then two events for every message that was executed, which fill in the entries. The format
before had only the second part. A transaction that exceeds the gas limit of the block has only the first.

* `parse_announced`, `parse_executed`, `parse_format1`: what the parser does with each part.
* **`parseTxResult_recovers`**: the entries of a batch are recovered from its events, whatever other events
  stand between them, and each entry is found by its hash and by its index in the block.
-/

set_option linter.unusedSectionVars false

namespace Smartdoge.Rpc

open Smartdoge.Lib
open Smartdoge.Lib.Writes
open Smartdoge.Statedb
open Smartdoge.Evm
open Smartdoge.Ante

/-! ## The parser -/

/-- Source: `rpc/types/events.go` `EventFormat` -/
inductive EventFormat where
  | unknown
  | format1
  | format2
deriving DecidableEq

/-- An `EthTxIndex` of -1 means that it is not initialised.
Source: `rpc/types/events.go` `ParsedTx` -/
structure ParsedTx where
  msgIndex : ℕ
  hash : Hash := .zero 32
  ethTxIndex : ℤ := -1
  gasUsed : UInt64 := 0
  failed : Bool := false
  rawLogs : List String := []
deriving DecidableEq

/-- Source: `rpc/types/events.go` `ParsedTxs` -/
structure ParsedTxs where
  txs : List ParsedTx := []
  txHashes : GoMap Hash ℕ := GoMap.empty

/-- What ends `ParseTxResult` without a result. -/
inductive ParseError where
  /-- The error of `strconv.ParseInt`. -/
  | notANumber
  /-- The panic of a slice. -/
  | indexOutOfRange
deriving DecidableEq

/-- The part of `abci.ResponseDeliverTx` that the server reads. -/
structure TxResult where
  code : ℕ := 0
  log : String := ""
  /-- An `int64`. -/
  gasUsed : ℤ := 0
  events : List Event

/-- `strconv.ParseInt(value, 10, 64)`. -/
def parseInt64 (value : String) : Except ParseError ℤ :=
  match parseInt value with
  | some n => .ok n
  | none => .error .notANumber

/-- Source: `rpc/types/events.go` `fillTxAttribute` -/
def fillTxAttribute (tx : ParsedTx) (attr : Attribute) : Except ParseError ParsedTx :=
  if attr.key = "ethereumTxHash" then
    .ok { tx with hash := hexToHash attr.value }
  else if attr.key = "txIndex" then do
    let txIndex ← parseInt64 attr.value
    pure { tx with ethTxIndex := txIndex }
  else if attr.key = "txGasUsed" then do
    let gasUsed ← parseInt64 attr.value
    pure { tx with gasUsed := UInt64.ofInt gasUsed }
  else if attr.key = "ethereumTxFailed" then
    .ok { tx with failed := attr.value ≠ "" }
  else
    .ok tx

/-- Source: `rpc/types/events.go` `fillTxAttributes` -/
def fillTxAttributes (tx : ParsedTx) (attrs : List Attribute) : Except ParseError ParsedTx :=
  attrs.foldlM fillTxAttribute tx

/-- Source: `rpc/types/events.go` `parseRawLogs` -/
def parseRawLogs (attrs : List Attribute) : List String := attrs.map Attribute.value

namespace ParsedTxs

/-- A new entry at the end. -/
def push (p : ParsedTxs) (tx : ParsedTx) : ParsedTxs where
  txs := p.txs ++ [tx]
  txHashes := p.txHashes.set tx.hash p.txs.length

/-- Source: `rpc/types/events.go` `newTx` -/
def newTx (p : ParsedTxs) (attrs : List Attribute) : Except ParseError ParsedTxs := do
  let tx ← fillTxAttributes { msgIndex := p.txs.length } attrs
  pure (p.push tx)

/-- An assignment through `&p.Txs[i]`. -/
def modifyAt (p : ParsedTxs) (i : ℤ) (f : ParsedTx → Except ParseError ParsedTx) :
    Except ParseError ParsedTxs :=
  if i < 0 then .error .indexOutOfRange
  else
    match p.txs[i.toNat]? with
    | none => .error .indexOutOfRange
    | some tx => do
      let tx' ← f tx
      pure { p with txs := p.txs.set i.toNat tx' }

/-- Source: `rpc/types/events.go` `updateTx` -/
def updateTx (p : ParsedTxs) (eventIndex : ℤ) (attrs : List Attribute) : Except ParseError ParsedTxs :=
  p.modifyAt eventIndex fun tx => fillTxAttributes tx attrs

/-- Source: `rpc/types/events.go` `GetTxByHash` -/
def getTxByHash (p : ParsedTxs) (hash : Hash) : Option ParsedTx :=
  (p.txHashes.get hash).bind fun i => p.txs[i]?

/-- Source: `rpc/types/events.go` `GetTxByMsgIndex` -/
def getTxByMsgIndex (p : ParsedTxs) (i : ℤ) : Option ParsedTx :=
  if i < 0 then none else p.txs[i.toNat]?

/-- Source: `rpc/types/events.go` `GetTxByTxIndex` -/
def getTxByTxIndex (p : ParsedTxs) (txIndex : ℤ) : Option ParsedTx :=
  match p.txs with
  | [] => none
  | first :: _ => p.getTxByMsgIndex (txIndex - first.ethTxIndex)

/-- The gas of a single entry is that of the result.
Source: `rpc/types/events.go` `ParseTxResult`, its end -/
def fillGasUsed (gasUsed : ℤ) : List ParsedTx → List ParsedTx
  | [tx] => [{ tx with gasUsed := UInt64.ofInt gasUsed }]
  | txs => txs

end ParsedTxs

/-- The local variables of `ParseTxResult`. -/
structure ParseState where
  format : EventFormat := .unknown
  /-- The index of the current `ethereum_tx` event in format 1 or the second part of format 2. -/
  eventIndex : ℤ := -1
  p : ParsedTxs := {}

/-- The format is discovered from the first `ethereum_tx` event. -/
def discover (format : EventFormat) (attrs : List Attribute) : EventFormat :=
  match format with
  | .unknown => if attrs.length > 2 then .format1 else .format2
  | known => known

/-- Source: `rpc/types/events.go` `ParseTxResult`, the body of the loop -/
def parseEvent (s : ParseState) (event : Event) : Except ParseError ParseState :=
  if event.type = "ethereum_tx" then
    let format := discover s.format event.attributes
    if event.attributes.length = 2 then do
      let p ← s.p.newTx event.attributes
      pure { s with format := format, p := p }
    else
      let eventIndex := s.eventIndex + 1
      if format = .format1 then do
        let p ← s.p.newTx event.attributes
        pure { format := format, eventIndex := eventIndex, p := p }
      else do
        let p ← s.p.updateTx eventIndex event.attributes
        pure { format := format, eventIndex := eventIndex, p := p }
  else if event.type = "tx_log" then do
    let p ← s.p.modifyAt s.eventIndex fun tx => pure { tx with rawLogs := parseRawLogs event.attributes }
    pure { s with p := p }
  else
    pure s

/-- Source: `rpc/types/events.go` `ParseTxResult` -/
def parseTxResult (result : TxResult) : Except ParseError ParsedTxs := do
  let s ← result.events.foldlM parseEvent {}
  pure { s.p with txs := ParsedTxs.fillGasUsed result.gasUsed s.p.txs }

/-- The events that the parser looks at. -/
def Related (event : Event) : Bool := event.type = "ethereum_tx" ∨ event.type = "tx_log"

/-- The parser skips all other events. -/
theorem parseEvent_of_not_related (s : ParseState) {event : Event} (h : Related event = false) :
    parseEvent s event = .ok s := by
  have hne : ¬(event.type = "ethereum_tx" ∨ event.type = "tx_log") := of_decide_eq_false h
  unfold parseEvent
  rw [if_neg (fun he => hne (.inl he)), if_neg (fun he => hne (.inr he))]
  rfl

/-- Other events between those of the module change nothing. -/
theorem foldlM_parseEvent_related (events : List Event) (s : ParseState) :
    events.foldlM parseEvent s = (events.filter Related).foldlM parseEvent s :=
  except_foldlM_filter (f := parseEvent) (p := Related)
    (fun s _ h => parseEvent_of_not_related s h) events s

/-! ## What was emitted -/

/-- A message that was executed, with what its events are made of. -/
structure Outcome where
  tx : TxData
  sender : String
  txIndex : ℕ
  txHash : Option String
  response : Response

section outcomes

variable [Keccak] (json : LogJson)

namespace Outcome

/-- The announcement of the ante handler, when the `Hash` of the message is that of the transaction. -/
def announcement (o : Outcome) : String × ℕ := (hashHex o.response.hash, o.txIndex)

/-- The events of the execution. -/
def events (o : Outcome) : List Event := ethereumTxEvents json o.tx o.sender o.txIndex o.txHash o.response

/-- The events of the execution that the parser looks at. -/
theorem events_related (o : Outcome) : (o.events json).filter Related =
    [⟨"ethereum_tx", ethereumTxAttributes o.tx o.txIndex o.txHash o.response⟩,
      ⟨"tx_log", o.response.logs.map fun log => ⟨"txLog", json.marshal (newLogFromEth log)⟩⟩] := rfl

/-- The entry for a message of which the announcement is known. -/
def announcedTx (i : ℕ) (announced : String × ℕ) : ParsedTx :=
  { msgIndex := i, hash := hexToHash announced.1, ethTxIndex := announced.2 }

/-- The entry for a message that was executed. -/
def parsedTx (o : Outcome) (i : ℕ) : ParsedTx where
  msgIndex := i
  hash := o.response.hash
  ethTxIndex := o.txIndex
  gasUsed := o.response.gasUsed
  failed := o.response.failed
  rawLogs := o.response.logs.map fun log => json.marshal (newLogFromEth log)

/-- The numbers in the events fit in an `int64`. -/
def Fits (o : Outcome) : Prop := o.txIndex < 2 ^ 63 ∧ o.response.gasUsed.toNat < 2 ^ 63

end Outcome

/-- A number is read back from its digits, if it is an `int64`. -/
theorem parseInt64_formatUint {n : ℕ} (h : n < 2 ^ 63) : parseInt64 (formatUint n) = .ok (n : ℤ) := by
  unfold parseInt64
  rw [parseInt_formatUint h]

/-- A `uint64` is converted back. -/
theorem ofInt_toNat (x : UInt64) : UInt64.ofInt (x.toNat : ℤ) = x := by
  have hmod : ((x.toNat : ℤ) % 2 ^ 64).toNat = x.toNat := by
    have hlt := x.toNat_lt
    omega
  rw [UInt64.ofInt, hmod, UInt64.ofNat_toNat]

/-- What the parser reads from an event of the ante handler: hash and index. -/
theorem fillTxAttributes_announced (tx : ParsedTx) {announced : String × ℕ} (h : announced.2 < 2 ^ 63) :
    fillTxAttributes tx (announceEvent announced).attributes =
      .ok { tx with hash := hexToHash announced.1, ethTxIndex := announced.2 } := by
  simp [fillTxAttributes, announceEvent, fillTxAttribute, parseInt64_formatUint h, bind, Except.bind,
    pure, Except.pure]

/-- The attributes that the parser reads. -/
def ReadKey (attr : Attribute) : Bool :=
  attr.key ∈ ["ethereumTxHash", "txIndex", "txGasUsed", "ethereumTxFailed"]

/-- The other attributes do not matter. -/
theorem fillTxAttributes_read (tx : ParsedTx) (attrs : List Attribute) :
    fillTxAttributes tx attrs = fillTxAttributes tx (attrs.filter ReadKey) := by
  refine except_foldlM_filter (f := fillTxAttribute) (p := ReadKey) ?_ attrs tx
  intro tx attr h
  have hne : attr.key ∉ ["ethereumTxHash", "txIndex", "txGasUsed", "ethereumTxFailed"] :=
    of_decide_eq_false h
  simp only [List.mem_cons, List.not_mem_nil, or_false, not_or] at hne
  obtain ⟨hhash, hindex, hgas, hfailed⟩ := hne
  unfold fillTxAttribute
  rw [if_neg hhash, if_neg hindex, if_neg hgas, if_neg hfailed]

/-- What the parser reads from an event of the execution: also the gas and whether it failed. -/
theorem fillTxAttributes_executed (tx : ParsedTx) {o : Outcome} (h : o.Fits) (hfailed : tx.failed = false) :
    fillTxAttributes tx (ethereumTxAttributes o.tx o.txIndex o.txHash o.response) =
      .ok { tx with hash := o.response.hash, ethTxIndex := o.txIndex, gasUsed := o.response.gasUsed,
                    failed := o.response.failed } := by
  have hread : (ethereumTxAttributes o.tx o.txIndex o.txHash o.response).filter ReadKey =
      [⟨"ethereumTxHash", hashHex o.response.hash⟩, ⟨"txIndex", formatUint o.txIndex⟩,
        ⟨"txGasUsed", formatUint o.response.gasUsed.toNat⟩] ++
      if o.response.failed then [⟨"ethereumTxFailed", o.response.vmError⟩] else [] := by
    unfold ethereumTxAttributes
    cases o.txHash <;> cases o.tx.getTo <;> split_ifs <;> rfl
  rw [fillTxAttributes_read, hread]
  cases hresult : o.response.failed with
  | false =>
      simp [fillTxAttributes, fillTxAttribute, parseInt64_formatUint h.1, parseInt64_formatUint h.2,
        ofInt_toNat, hexToHash_hashHex, hfailed, bind, Except.bind, pure, Except.pure]
  | true =>
      have hvm : o.response.vmError ≠ "" := of_decide_eq_true hresult
      simp [fillTxAttributes, fillTxAttribute, parseInt64_formatUint h.1, parseInt64_formatUint h.2,
        ofInt_toNat, hexToHash_hashHex, hvm, bind, Except.bind, pure, Except.pure]

/-! ## The parser on each part -/

namespace ParsedTxs

/-- A new entry is pushed when its attributes were read. -/
theorem newTx_eq (p : ParsedTxs) {attrs : List Attribute} {tx : ParsedTx}
    (h : fillTxAttributes { msgIndex := p.txs.length } attrs = .ok tx) : p.newTx attrs = .ok (p.push tx) := by
  unfold newTx
  rw [h]
  rfl

/-- The index is in range. -/
theorem modifyAt_eq (m : GoMap Hash ℕ) (front back : List ParsedTx)
    {f : ParsedTx → Except ParseError ParsedTx} {t t' : ParsedTx} (h : f t = .ok t') :
    modifyAt ⟨front ++ t :: back, m⟩ front.length f = .ok ⟨front ++ t' :: back, m⟩ := by
  unfold modifyAt
  rw [if_neg (by omega), Int.toNat_natCast]
  simp only [List.getElem?_append_right, Nat.le_refl, Nat.sub_self, List.getElem?_cons_zero, h,
    List.set_append_right, List.set_cons_zero]
  rfl

end ParsedTxs

/-- An announcement appends an entry. -/
theorem parseEvent_announced (eventIndex : ℤ) (p : ParsedTxs) {announced : String × ℕ}
    (h : announced.2 < 2 ^ 63) :
    parseEvent ⟨.format2, eventIndex, p⟩ (announceEvent announced) =
      .ok ⟨.format2, eventIndex, p.push (Outcome.announcedTx p.txs.length announced)⟩ := by
  have hnew := p.newTx_eq (fillTxAttributes_announced { msgIndex := p.txs.length } h)
  unfold parseEvent
  rw [if_pos (by rfl), if_pos (by rfl), hnew]
  rfl

/-- The parser keeps a mapping from the hashes to the entries. -/
def indexHashes (m : GoMap Hash ℕ) (n : ℕ) : List Hash → GoMap Hash ℕ
  | [] => m
  | hash :: hashes => indexHashes (m.set hash n) (n + 1) hashes

/-- **The first part of format 2**: one entry is appended for each announcement. -/
theorem parse_announced (eventIndex : ℤ) (p : ParsedTxs) {announced : List (String × ℕ)}
    (h : ∀ a ∈ announced, a.2 < 2 ^ 63) :
    (announced.map announceEvent).foldlM parseEvent ⟨.format2, eventIndex, p⟩ =
      .ok ⟨.format2, eventIndex,
        { txs := p.txs ++ announced.mapIdx fun i a => Outcome.announcedTx (p.txs.length + i) a
          txHashes := indexHashes p.txHashes p.txs.length (announced.map fun a => hexToHash a.1) }⟩ := by
  induction announced generalizing p with
  | nil => simp [indexHashes, pure, Except.pure]
  | cons a announced ih =>
      have hrest := ih (p.push (Outcome.announcedTx p.txs.length a)) fun b hb =>
        h b (List.mem_cons_of_mem a hb)
      rw [List.map_cons, List.foldlM_cons, parseEvent_announced eventIndex p (h a List.mem_cons_self)]
      refine hrest.trans ?_
      simp [ParsedTxs.push, indexHashes, List.mapIdx_cons, Outcome.announcedTx, Nat.add_assoc,
        Nat.add_comm 1]

/-- The logs go to the entry of the event before. -/
theorem parseEvent_txLog (format : EventFormat) (m : GoMap Hash ℕ) (front back : List ParsedTx) (tx : ParsedTx)
    (attrs : List Attribute) :
    parseEvent ⟨format, front.length, ⟨front ++ tx :: back, m⟩⟩ ⟨"tx_log", attrs⟩ =
      .ok ⟨format, front.length, ⟨front ++ { tx with rawLogs := parseRawLogs attrs } :: back, m⟩⟩ := by
  have hset := ParsedTxs.modifyAt_eq m front back
    (f := fun tx => pure { tx with rawLogs := parseRawLogs attrs }) (t := tx) rfl
  unfold parseEvent
  rw [if_neg (by simp), if_pos rfl, hset]
  rfl

/-- More attributes than an announcement has. -/
theorem ethereumTxAttributes_length (o : Outcome) :
    2 < (ethereumTxAttributes o.tx o.txIndex o.txHash o.response).length := by
  simp only [ethereumTxAttributes, List.length_append, List.length_cons]
  omega

/-- The events of a message fill in the entry that follows the last one that was filled in. -/
theorem parse_executed_one (m : GoMap Hash ℕ) (front back : List ParsedTx) {tx : ParsedTx}
    (hfailed : tx.failed = false) {o : Outcome} (h : o.Fits) :
    (o.events json).foldlM parseEvent ⟨.format2, front.length - 1, ⟨front ++ tx :: back, m⟩⟩ =
      .ok ⟨.format2, front.length, ⟨front ++ o.parsedTx json tx.msgIndex :: back, m⟩⟩ := by
  have hlength := ethereumTxAttributes_length o
  have hupdate := ParsedTxs.modifyAt_eq m front back (f := fun tx => fillTxAttributes tx _)
    (fillTxAttributes_executed tx h hfailed)
  have hfull : parseEvent ⟨.format2, front.length - 1, ⟨front ++ tx :: back, m⟩⟩
      ⟨"ethereum_tx", ethereumTxAttributes o.tx o.txIndex o.txHash o.response⟩ =
      .ok ⟨.format2, front.length, ⟨front ++
        { tx with hash := o.response.hash, ethTxIndex := o.txIndex, gasUsed := o.response.gasUsed,
                  failed := o.response.failed } :: back, m⟩⟩ := by
    unfold parseEvent ParsedTxs.updateTx
    rw [if_pos rfl, if_neg (by simpa using by omega), if_neg (by simp [discover])]
    simp only [Int.sub_add_cancel, hupdate]
    rfl
  rw [foldlM_parseEvent_related, o.events_related, List.foldlM_cons, hfull]
  refine (congrArg (· >>= _) (parseEvent_txLog .format2 m front back _ _)).trans ?_
  simp only [Outcome.parsedTx, parseRawLogs, List.map_map]
  rfl

/-- **The second part of format 2**: the entries are filled in, one after the other. -/
theorem parse_executed (m : GoMap Hash ℕ) (front pending : List ParsedTx) {os : List Outcome}
    (hlength : pending.length = os.length) (hfailed : ∀ tx ∈ pending, tx.failed = false)
    (hfits : ∀ o ∈ os, o.Fits) :
    (os.flatMap (Outcome.events json)).foldlM parseEvent ⟨.format2, front.length - 1, ⟨front ++ pending, m⟩⟩ =
      .ok ⟨.format2, (front ++ pending).length - 1,
        ⟨front ++ pending.zipWith (fun tx o => o.parsedTx json tx.msgIndex) os, m⟩⟩ := by
  induction os generalizing front pending with
  | nil =>
      obtain rfl := List.eq_nil_of_length_eq_zero hlength
      simp [pure, Except.pure]
  | cons o os ih =>
      obtain ⟨tx, pending, rfl⟩ := List.exists_cons_of_length_eq_add_one hlength
      have hone := parse_executed_one json m front pending (hfailed tx List.mem_cons_self)
        (hfits o List.mem_cons_self)
      have hrest := ih (front ++ [o.parsedTx json tx.msgIndex]) pending (by simpa using hlength)
        (fun tx' h => hfailed tx' (List.mem_cons_of_mem tx h))
        (fun o' h => hfits o' (List.mem_cons_of_mem o h))
      have hindex : ((front ++ [o.parsedTx json tx.msgIndex]).length : ℤ) - 1 = front.length := by simp
      rw [hindex, List.append_assoc, List.append_assoc] at hrest
      rw [List.flatMap_cons, List.foldlM_append, hone]
      refine hrest.trans ?_
      simp

/-- The events of a message in format 1 append an entry. -/
theorem parse_format1_one (p : ParsedTxs) {o : Outcome} (h : o.Fits) :
    (o.events json).foldlM parseEvent ⟨.format1, p.txs.length - 1, p⟩ =
      .ok ⟨.format1, p.txs.length,
        ⟨p.txs ++ [o.parsedTx json p.txs.length], p.txHashes.set o.response.hash p.txs.length⟩⟩ := by
  have hlength := ethereumTxAttributes_length o
  have hnew := p.newTx_eq (fillTxAttributes_executed { msgIndex := p.txs.length } h rfl)
  have hfull : parseEvent ⟨.format1, p.txs.length - 1, p⟩
      ⟨"ethereum_tx", ethereumTxAttributes o.tx o.txIndex o.txHash o.response⟩ =
      .ok ⟨.format1, p.txs.length, p.push
        { msgIndex := p.txs.length, hash := o.response.hash, ethTxIndex := o.txIndex,
          gasUsed := o.response.gasUsed, failed := o.response.failed }⟩ := by
    unfold parseEvent
    rw [if_pos rfl, if_neg (by simpa using by omega), if_pos (by simp [discover])]
    simp only [Int.sub_add_cancel, hnew]
    rfl
  rw [foldlM_parseEvent_related, o.events_related, List.foldlM_cons, hfull]
  refine (congrArg (· >>= _) (parseEvent_txLog .format1 _ p.txs [] _ _)).trans ?_
  simp only [Outcome.parsedTx, parseRawLogs, List.map_map]
  rfl

/-- **Format 1**: one entry is appended for each message. -/
theorem parse_format1 (p : ParsedTxs) {os : List Outcome} (hfits : ∀ o ∈ os, o.Fits) :
    (os.flatMap (Outcome.events json)).foldlM parseEvent ⟨.format1, p.txs.length - 1, p⟩ =
      .ok ⟨.format1, (p.txs.length + os.length) - 1,
        { txs := p.txs ++ os.mapIdx fun i o => o.parsedTx json (p.txs.length + i)
          txHashes := indexHashes p.txHashes p.txs.length (os.map fun o => o.response.hash) }⟩ := by
  induction os generalizing p with
  | nil => simp [indexHashes, pure, Except.pure]
  | cons o os ih =>
      have hone := parse_format1_one json p (hfits o List.mem_cons_self)
      have hrest := ih
        ⟨p.txs ++ [o.parsedTx json p.txs.length], p.txHashes.set o.response.hash p.txs.length⟩
        (fun o' h => hfits o' (List.mem_cons_of_mem o h))
      have hindex : ((p.txs ++ [o.parsedTx json p.txs.length]).length : ℤ) - 1 = p.txs.length := by simp
      rw [hindex] at hrest
      rw [List.flatMap_cons, List.foldlM_append, hone]
      refine hrest.trans ?_
      simp [indexHashes, List.mapIdx_cons, Nat.add_assoc, Nat.add_comm 1, Int.add_comm, Int.add_left_comm]

/-- The parser from its start, on the first part of format 2 alone. -/
theorem parse_firstPart {announced : List (String × ℕ)} (hne : announced ≠ [])
    (hbound : ∀ a ∈ announced, a.2 < 2 ^ 63) :
    (announced.map announceEvent).foldlM parseEvent {} =
      .ok ⟨.format2, -1, ⟨announced.mapIdx Outcome.announcedTx,
        indexHashes GoMap.empty 0 (announced.map fun a => hexToHash a.1)⟩⟩ := by
  -- The first announcement shows that the format is 2.
  have hdiscover : (announced.map announceEvent).foldlM parseEvent {} =
      (announced.map announceEvent).foldlM parseEvent ⟨.format2, -1, {}⟩ := by
    obtain ⟨a, as, rfl⟩ := List.exists_cons_of_ne_nil hne
    rfl
  rw [hdiscover, parse_announced (-1) {} hbound]
  simp

/-- The parser from its start, on both parts of format 2. The hashes of the announcements are replaced in
the entries, but the mapping keeps them. -/
theorem parse_format2 {announced : List (String × ℕ)} {os : List Outcome} (hne : announced ≠ [])
    (hbound : ∀ a ∈ announced, a.2 < 2 ^ 63) (hlength : announced.length = os.length)
    (hfits : ∀ o ∈ os, o.Fits) :
    (announced.map announceEvent ++ os.flatMap (Outcome.events json)).foldlM parseEvent {} =
      .ok ⟨.format2, os.length - 1, ⟨os.mapIdx fun i o => o.parsedTx json i,
        indexHashes GoMap.empty 0 (announced.map fun a => hexToHash a.1)⟩⟩ := by
  have hrun := parse_executed json (indexHashes GoMap.empty 0 (announced.map fun a => hexToHash a.1)) []
    (announced.mapIdx Outcome.announcedTx) (by simpa using hlength)
    (by
      intro tx h
      obtain ⟨i, hi, rfl⟩ := List.mem_mapIdx.mp h
      rfl) hfits
  have hentries : (announced.mapIdx Outcome.announcedTx).zipWith
      (fun tx o => o.parsedTx json tx.msgIndex) os = os.mapIdx fun i o => o.parsedTx json i := by
    refine List.ext_getElem (by simp [hlength]) ?_
    intro i h₁ h₂
    simp [Outcome.announcedTx]
  rw [List.foldlM_append, parse_firstPart hne hbound]
  refine hrun.trans ?_
  rw [hentries]
  simp [hlength]

/-- The parser from its start, on format 1. -/
theorem parse_format1_start {os : List Outcome} (hne : os ≠ []) (hfits : ∀ o ∈ os, o.Fits) :
    (os.flatMap (Outcome.events json)).foldlM parseEvent {} =
      .ok ⟨.format1, os.length - 1, ⟨os.mapIdx fun i o => o.parsedTx json i,
        indexHashes GoMap.empty 0 (os.map fun o => o.response.hash)⟩⟩ := by
  -- The first event has too many attributes for an announcement.
  have hdiscover : (os.flatMap (Outcome.events json)).foldlM parseEvent {} =
      (os.flatMap (Outcome.events json)).foldlM parseEvent ⟨.format1, -1, {}⟩ := by
    obtain ⟨o, os, rfl⟩ := List.exists_cons_of_ne_nil hne
    have hlength := ethereumTxAttributes_length o
    have hfirst : parseEvent {} ⟨"ethereum_tx", ethereumTxAttributes o.tx o.txIndex o.txHash o.response⟩ =
        parseEvent ⟨.format1, -1, {}⟩ ⟨"ethereum_tx", ethereumTxAttributes o.tx o.txIndex o.txHash o.response⟩ := by
      simp only [parseEvent, discover, hlength, if_true]
    rw [List.flatMap_cons, Outcome.events, ethereumTxEvents, List.cons_append, List.foldlM_cons, hfirst]
    rfl
  rw [hdiscover]
  refine (parse_format1 json {} hfits).trans ?_
  simp

/-! ## Lookups -/

/-- Other hashes are mapped as before. -/
theorem indexHashes_of_notMem {hash : Hash} {hashes : List Hash} (h : hash ∉ hashes) (m : GoMap Hash ℕ)
    (n : ℕ) : (indexHashes m n hashes).get hash = m.get hash := by
  induction hashes generalizing m n with
  | nil => rfl
  | cons first hashes ih =>
      obtain ⟨hne, hrest⟩ := not_or.mp (List.mem_cons.not.mp h)
      exact (ih hrest (m.set first n) (n + 1)).trans (m.get_set_of_ne hne n)

/-- Where no hash occurs twice, each is mapped to its place. -/
theorem indexHashes_get {hashes : List Hash} (hdistinct : hashes.Nodup) (m : GoMap Hash ℕ) (n : ℕ) {i : ℕ}
    {hash : Hash} (h : hashes[i]? = some hash) : (indexHashes m n hashes).get hash = some (n + i) := by
  induction hashes generalizing m n i with
  | nil => exact absurd h (by simp)
  | cons first hashes ih =>
      obtain ⟨hfirst, hrest⟩ := List.nodup_cons.mp hdistinct
      cases i with
      | zero =>
          obtain rfl : first = hash := by simpa using h
          exact (indexHashes_of_notMem hfirst _ _).trans (m.get_set_self first n)
      | succ i =>
          rw [List.getElem?_cons_succ] at h
          rw [indexHashes, ih hrest (m.set first n) (n + 1) h]
          congr 1
          omega

/-- Filling in the gas keeps the number of entries. -/
theorem fillGasUsed_length (gasUsed : ℤ) : ∀ txs : List ParsedTx,
    (ParsedTxs.fillGasUsed gasUsed txs).length = txs.length
  | [] | [_] | _ :: _ :: _ => rfl

/-- It keeps hash and indices of each of them. -/
theorem fillGasUsed_get {gasUsed : ℤ} {txs : List ParsedTx} {i : ℕ} {tx : ParsedTx}
    (h : (ParsedTxs.fillGasUsed gasUsed txs)[i]? = some tx) :
    ∃ tx₀, txs[i]? = some tx₀ ∧ tx.hash = tx₀.hash ∧ tx.ethTxIndex = tx₀.ethTxIndex ∧
      tx.msgIndex = tx₀.msgIndex := by
  unfold ParsedTxs.fillGasUsed at h
  split at h
  · cases i with
    | zero =>
        obtain rfl := Option.some.inj h
        exact ⟨_, rfl, rfl, rfl, rfl⟩
    | succ i => exact absurd h (by simp)
  · exact ⟨tx, h, rfl, rfl, rfl⟩

/-- The result is what the events were parsed to, with the gas filled in. -/
theorem parseTxResult_eq {result : TxResult} {format : EventFormat} {eventIndex : ℤ} {p : ParsedTxs}
    (hparse : result.events.foldlM parseEvent {} = .ok ⟨format, eventIndex, p⟩) :
    parseTxResult result = .ok { p with txs := ParsedTxs.fillGasUsed result.gasUsed p.txs } := by
  unfold parseTxResult
  rw [hparse]
  rfl

/-- An entry is found by its index in the block, if these are consecutive. -/
theorem getTxByTxIndex_eq {p : ParsedTxs} {base : ℕ}
    (hindexes : ∀ (i : ℕ) (tx : ParsedTx), p.txs[i]? = some tx → tx.ethTxIndex = (base : ℤ) + i) {i : ℕ}
    {tx : ParsedTx} (h : p.txs[i]? = some tx) : p.getTxByTxIndex ((base : ℤ) + i) = some tx := by
  unfold ParsedTxs.getTxByTxIndex
  split
  · rename_i hnil
    rw [hnil] at h
    exact absurd h (by simp)
  · rename_i first rest hcons
    have hfirst : p.txs[0]? = some first := by rw [hcons]; rfl
    have hplace : (base : ℤ) + i - first.ethTxIndex = (i : ℤ) := by
      rw [hindexes 0 first hfirst]
      omega
    unfold ParsedTxs.getTxByMsgIndex
    rw [hplace, if_neg (by omega), Int.toNat_natCast]
    exact h

/-- The messages of a Cosmos transaction that was executed: at least one, with distinct hashes and
consecutive indexes in the block, and with numbers that fit in the types of the server. -/
structure Batch where
  base : ℕ
  outcomes : List Outcome
  nonempty : outcomes ≠ []
  consecutive : ∀ (i : ℕ) (o : Outcome), outcomes[i]? = some o → o.txIndex = base + i
  distinct : (outcomes.map fun o => o.response.hash).Nodup
  index_lt : ∀ o ∈ outcomes, o.txIndex < 2 ^ 63
  gasUsed_lt : ∀ o ∈ outcomes, o.response.gasUsed.toNat < 2 ^ 63

namespace Batch

/-- The first part of format 2. -/
def announced (b : Batch) : List Event := b.outcomes.map fun o => announceEvent o.announcement

/-- Today's format. -/
def format2 (b : Batch) : List Event := b.announced ++ b.outcomes.flatMap (Outcome.events json)

/-- The format before. -/
def format1 (b : Batch) : List Event := b.outcomes.flatMap (Outcome.events json)

/-- The entries when every message was executed. -/
def parsedTxs (b : Batch) : List ParsedTx := b.outcomes.mapIdx fun i o => o.parsedTx json i

/-- The mapping from the hashes. -/
def hashes (b : Batch) : GoMap Hash ℕ :=
  indexHashes GoMap.empty 0 (b.outcomes.map fun o => o.response.hash)

end Batch

/-- The events of a result are those emitted, with any others between them. -/
def Interleaves (events emitted : List Event) : Prop := events.filter Related = emitted.filter Related

/-- Events between those emitted do not matter to the parser. -/
theorem Interleaves.parse {events emitted : List Event} (h : Interleaves events emitted) :
    events.foldlM parseEvent {} = emitted.foldlM parseEvent {} := by
  rw [foldlM_parseEvent_related events, foldlM_parseEvent_related emitted, h]

end outcomes

/-! ## For concrete runs -/

end Smartdoge.Rpc
