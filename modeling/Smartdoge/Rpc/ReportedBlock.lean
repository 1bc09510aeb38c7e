import Smartdoge.Ante.MeterReading
import Smartdoge.Rpc.Receipts

/-!
# Blocks with their results

The transactions of a block with their results, and a node that answers for it. If every message was announced under
the hash of its transaction, and no hash was announced twice, the node finds each message by its hash.

* `foundByHash_eq`: a hash leads to the transaction that was announced under it.
* `parses_executed`, `parses_announced`: what the parser gives for a transaction of a block.
* `ReportedBlock.finds`: what a node finds by a hash.
* **`deliverBlock_reported`**, **`deliverBlock_honest`**: a block that was delivered is one, if its messages carry
  their hashes.
-/

set_option linter.unusedSectionVars false

namespace Smartdoge.Rpc

open Smartdoge.Lib
open Smartdoge.Lib.Writes
open Smartdoge.Statedb
open Smartdoge.Evm
open Smartdoge.Ante

/-! ## Blocks and nodes -/

/-- The event is indexed under `ethereum_tx.ethereumTxHash`. -/
def HashedUnder (hash : Hash) (event : Event) : Bool :=
  event.type = "ethereum_tx" ∧ ⟨"ethereumTxHash", hashHex hash⟩ ∈ event.attributes

/-- The transactions of a block that have an event under the hash. -/
def foundByHash (height : ℤ) (hash : Hash) (txs : List BlockResult) : List ResultTx :=
  txs.zipIdx.filterMap fun p =>
    if p.1.result.events.any (HashedUnder hash) then some ⟨height, p.2, p.1.result, some p.1.msgs⟩ else none

/-- The texts of the hashes in the events. -/
def Ended.hashes : Ended → List String
  | .ethereum (.aborted _ out) | .ethereum (.executed out _) => out.hashes.map Prod.fst
  | .ethereum .rejected => []
  | .cosmos _ results => results.map fun r => hashHex r.1.hash

/-- The result of a transaction that was executed has the gas of its messages. -/
def ReportsGas : Ended → BlockResult → Prop
  | .ethereum (.executed _ results), tx => tx.result.gasUsed = totalGasUsed results
  | .ethereum .rejected, _ | .ethereum (.aborted _ _), _ | .cosmos _ _, _ => True

/-- What was executed was announced under its hash. -/
def Ended.Honest : Ended → Prop
  | .ethereum (.executed out results) => out.hashes.map Prod.fst = results.map fun r => hashHex r.1.hash
  | .ethereum (.aborted _ out) => ∀ text ∈ out.hashes.map Prod.fst, ∃ hash, text = hashHex hash
  | .ethereum .rejected | .cosmos _ _ => True

/-- The logs of the messages can be read back. -/
def Ended.LogsRead (json json' : LogJson) [Keccak] : Ended → Prop
  | .ethereum (.executed _ results) => ∀ r ∈ results, ∀ log ∈ r.1.logs,
      json'.unmarshal (json.marshal (newLogFromEth log)) = some (newLogFromEth log)
  | .ethereum .rejected | .ethereum (.aborted _ _) | .cosmos _ _ => True

/-- A block with the results of its transactions. -/
structure ReportedBlock [Keccak] (json : LogJson) extends EndedBlock json where
  txs : List BlockResult
  reports : List.Forall₂ Reports ends txs
  reportsGas : List.Forall₂ ReportsGas ends txs
  gas_nonneg : ∀ tx ∈ txs, 0 ≤ tx.result.gasUsed
  /-- The gas of the block fits in an `int64`. -/
  gas_lt : (txs.map fun tx => tx.result.gasUsed.toNat).sum < 2 ^ 63
  /-- So do the gas limits of the messages of a transaction that was aborted. -/
  limits_lt : ∀ reason out, .ethereum (.aborted reason out) ∈ ends →
    (out.msgs.map fun eth => eth.data.getGas.toNat).sum < 2 ^ 63

section blocks

variable [Keccak] {json : LogJson} {server : EthServer}

/-- The hashes in the events of a block are those of its messages, each once. -/
structure ReportedBlock.HonestHashes (b : ReportedBlock json) : Prop where
  honest : ∀ e ∈ b.ends, e.Honest
  distinct : (b.ends.flatMap Ended.hashes).Nodup

/-- What a node answers for a block at a height, with a hash. -/
structure ReportedBlock.ServedBy (b : ReportedBlock json) (server : EthServer) (height : ℤ) (blockHash : Bytes) :
    Prop where
  /-- No other block has these hashes. -/
  search : ∀ hash, hashHex hash ∈ b.ends.flatMap Ended.hashes →
    server.client.txSearch hash = .ok (foundByHash height hash b.txs)
  block : server.client.block height = .ok (some ⟨height, blockHash, b.txs.map fun tx => some tx.msgs⟩)
  blockResults : server.blockResults height = .ok (b.txs.map BlockResult.result)
  /-- The signatures are those of the senders, and the base fee is known. -/
  answers : ∀ tx ∈ b.txs, ∀ eth, .ethereumTx eth ∈ tx.msgs →
    (∃ sender, server.getSender eth = .ok sender) ∧ ∃ price, server.effectiveGasPrice height eth.data = .ok price
  logsRead : ∀ e ∈ b.ends, e.LogsRead json server.json

/-! ## The search -/

/-- The events under a hash are of the module. -/
theorem related_of_hashedUnder {hash : Hash} (event : Event) (h : HashedUnder hash event = true) :
    Related event = true := by
  have htype : event.type = "ethereum_tx" := (of_decide_eq_true h).1
  simp [Related, htype]

/-- The announcements under a hash. -/
theorem any_hashedUnder_announced (out : EthAnte) (hash : Hash) :
    out.events.any (HashedUnder hash) = decide (hashHex hash ∈ out.hashes.map Prod.fst) := by
  unfold EthAnte.events
  rw [List.any_map, Bool.eq_iff_iff]
  simp [HashedUnder, announceEvent]

/-- The events of a message under a hash. -/
theorem any_hashedUnder_events (o : Outcome) (hash : Hash) :
    (o.events json).any (HashedUnder hash) = decide (o.response.hash = hash) := by
  have hattributes : (⟨"ethereumTxHash", hashHex hash⟩ : Attribute) ∈
      ethereumTxAttributes o.tx o.txIndex o.txHash o.response ↔ o.response.hash = hash := by
    rw [← hashHex_injective.eq_iff, eq_comm]
    unfold ethereumTxAttributes
    cases o.txHash <;> cases o.tx.getTo <;> split_ifs <;> simp
  simp [Outcome.events, ethereumTxEvents, HashedUnder, hattributes]

/-- The events of some messages under a hash. -/
theorem ExecutedFrom.any_hashedUnder {n k : ℕ} {results : List (Response × List Event)}
    (h : ExecutedFrom json n k results) (hash : Hash) : (results.flatMap Prod.snd).any (HashedUnder hash) =
      decide (hashHex hash ∈ results.map fun r => hashHex r.1.hash) := by
  obtain ⟨os, rfl, -⟩ := h
  rw [List.any_flatMap, List.any_map, Bool.eq_iff_iff]
  simp [any_hashedUnder_events, hashHex_injective.eq_iff]

/-- **The index of events has a transaction under the hashes in its events.** -/
theorem any_hashedUnder {n : ℕ} {e : Ended} {tx : BlockResult} (hat : e.At json n) (hreports : Reports e tx)
    (hhonest : e.Honest) (hash : Hash) :
    tx.result.events.any (HashedUnder hash) = decide (hashHex hash ∈ e.hashes) := by
  cases e with
  | cosmos msgs results =>
      rw [hreports.1.any_eq related_of_hashedUnder]
      exact ExecutedFrom.any_hashedUnder hat hash
  | ethereum e =>
      cases e with
      | rejected =>
          rw [hreports.1.any_eq related_of_hashedUnder]
          rfl
      | aborted reason out =>
          exact (hreports.1.any_eq related_of_hashedUnder).trans (any_hashedUnder_announced out hash)
      | executed out results =>
          have hemitted := hat.2.any_hashedUnder hash
          rw [← show out.hashes.map Prod.fst = _ from hhonest] at hemitted
          rw [hreports.1.any_eq related_of_hashedUnder, List.any_append, hemitted, any_hashedUnder_announced,
            Bool.or_self]
          rfl

/-- The first transaction under a hash is found. -/
theorem foundByHash_eq {txs : List BlockResult} {hash : Hash} {k : ℕ} {tx : BlockResult} (htx : txs[k]? = some tx)
    (hfound : tx.result.events.any (HashedUnder hash) = true)
    (hbefore : ∀ j < k, ∀ tx', txs[j]? = some tx' → tx'.result.events.any (HashedUnder hash) = false) (height : ℤ) :
    ∃ rest, foundByHash height hash txs = ⟨height, k, tx.result, some tx.msgs⟩ :: rest := by
  obtain ⟨hk, hget⟩ := List.getElem?_eq_some_iff.mp htx
  have hsplit : txs = txs.take k ++ tx :: txs.drop (k + 1) := by
    rw [← hget, ← List.drop_eq_getElem_cons hk, List.take_append_drop]
  have hlength : (txs.take k).length = k := by rw [List.length_take]; omega
  have hnone : ((txs.take k).zipIdx.filterMap fun p =>
      if p.1.result.events.any (HashedUnder hash) then some (⟨height, p.2, p.1.result, some p.1.msgs⟩ : ResultTx)
      else none) = [] := by
    rw [List.filterMap_eq_nil_iff]
    rintro ⟨tx', j⟩ hmem
    have hget' := List.mem_zipIdx_iff_getElem?.mp hmem
    rw [List.getElem?_take] at hget'
    split_ifs at hget' with hj
    rw [hbefore j hj tx' hget']
    rfl
  unfold foundByHash
  rw [hsplit, List.zipIdx_append, List.filterMap_append, hnone, List.zipIdx_cons, hlength, List.nil_append,
    Nat.zero_add]
  exact ⟨_, List.filterMap_cons_some (if_pos hfound)⟩

/-! ## Numbers -/

/-- The index from which on a transaction was numbered. -/
theorem numbered_get {n : ℕ} {es : List Ended} (h : Numbered json n es) {k : ℕ} {e : Ended} (hk : es[k]? = some e) :
    e.At json (n + ((es.take k).map Ended.used).sum) := by
  induction es generalizing n k with
  | nil => simp at hk
  | cons first es ih =>
      obtain ⟨hfirst, hrest⟩ := h
      cases k with
      | zero =>
          obtain rfl : first = e := by simpa using hk
          simpa using hfirst
      | succ k =>
          rw [List.getElem?_cons_succ] at hk
          have hat := ih hrest hk
          rwa [List.take_succ_cons, List.map_cons, List.sum_cons, ← Nat.add_assoc]

/-- The indexes that were used up before a transaction, with those in its own events. -/
theorem sum_used_le {es : List Ended} {k : ℕ} {e : Ended} (hk : es[k]? = some e) :
    ((es.take k).map Ended.used).sum + e.announced ≤ (es.map Ended.announced).sum := by
  induction es generalizing k with
  | nil => simp at hk
  | cons first es ih =>
      cases k with
      | zero =>
          obtain rfl : first = e := by simpa using hk
          simp
      | succ k =>
          rw [List.getElem?_cons_succ] at hk
          have hrest := ih hk
          have hfirst := first.used_le_announced
          rw [List.take_succ_cons, List.map_cons, List.sum_cons, List.map_cons, List.sum_cons]
          omega

/-! ## What the parser gives -/

/-- The gas of the result is that of the messages, also where there is only one. -/
theorem fillGasUsed_executed {os : List Outcome} {gasUsed : ℤ}
    (h : gasUsed = totalGasUsed (os.map fun o => (o.response, o.events json))) :
    ParsedTxs.fillGasUsed gasUsed (os.mapIdx fun i o => o.parsedTx json i) =
      os.mapIdx fun i o => o.parsedTx json i := by
  rcases os with _ | ⟨o, _ | ⟨o', os⟩⟩
  · rfl
  · have hgas : UInt64.ofInt gasUsed = o.response.gasUsed := by
      rw [h]
      simp [totalGasUsed, ofInt_toNat]
    simp [ParsedTxs.fillGasUsed, hgas, Outcome.parsedTx]
  · simp [List.mapIdx_cons, ParsedTxs.fillGasUsed]

/-- **The entries of a transaction that was executed.** -/
theorem parses_executed {n : ℕ} {out : EthAnte} {results : List (Response × List Event)} {tx : BlockResult}
    (hat : (Ended.ethereum (.executed out results)).At json n)
    (hreports : Reports (.ethereum (.executed out results)) tx)
    (hreportsGas : ReportsGas (.ethereum (.executed out results)) tx)
    (hhonest : (Ended.ethereum (.executed out results)).Honest)
    (hgas : (Ended.ethereum (.executed out results)).GasFits) (hsmall : n + out.msgs.length ≤ 2 ^ 63)
    (hne : results ≠ []) :
    ∃ os : List Outcome, results = os.map (fun o => (o.response, o.events json)) ∧
      os.map Outcome.txIndex = List.range' n out.msgs.length ∧
      parseTxResult tx.result = .ok ⟨os.mapIdx fun i o => o.parsedTx json i,
        indexHashes GoMap.empty 0 (results.map fun r => r.1.hash)⟩ := by
  obtain ⟨hannounces, os, rfl, hindexes⟩ := hat
  refine ⟨os, rfl, hindexes, ?_⟩
  have hlength : out.hashes.length = out.msgs.length := length_of_map_eq_range' hannounces
  have hcount : os.length = out.msgs.length := length_of_map_eq_range' hindexes
  have hposts : 0 < os.length := List.length_pos_iff.mpr fun hnil => hne (by rw [hnil]; rfl)
  have hnonempty : out.hashes ≠ [] := List.ne_nil_of_length_pos (by omega)
  have hbound : ∀ a ∈ out.hashes, a.2 < 2 ^ 63 := fun a ha => (lt_of_map_eq_range' hannounces ha).trans_le hsmall
  have hfits : ∀ o ∈ os, o.Fits := by
    intro o ho
    refine ⟨(lt_of_map_eq_range' hindexes ho).trans_le hsmall, hgas o.response ?_⟩
    exact List.mem_map_of_mem (List.mem_map_of_mem ho)
  have hhashes : (out.hashes.map fun a => hexToHash a.1) =
      (os.map fun o => (o.response, o.events json)).map fun r => r.1.hash := by
    have h := congrArg (List.map hexToHash) hhonest
    simpa [List.map_map, Function.comp_def, hexToHash_hashHex] using h
  have hevents : Interleaves tx.result.events (out.events ++ os.flatMap (Outcome.events json)) := by
    have h := hreports.1
    rwa [List.flatMap_map] at h
  have hparse := hevents.parse.trans (parse_format2 json hnonempty hbound (hlength.trans hcount.symm) hfits)
  rw [parseTxResult_eq hparse, fillGasUsed_executed hreportsGas, hhashes]

/-- **The entries of a transaction of which only the announcements were kept.** -/
theorem parses_announced {n : ℕ} {reason : AbortReason} {out : EthAnte} {tx : BlockResult}
    (hat : AnnouncesFrom n out) (hreports : Reports (.ethereum (.aborted reason out)) tx)
    (hsmall : n + out.msgs.length ≤ 2 ^ 63) (hne : out.hashes ≠ []) :
    parseTxResult tx.result = .ok
      ⟨ParsedTxs.fillGasUsed tx.result.gasUsed (out.hashes.mapIdx Outcome.announcedTx),
        indexHashes GoMap.empty 0 (out.hashes.map fun a => hexToHash a.1)⟩ := by
  have hbound : ∀ a ∈ out.hashes, a.2 < 2 ^ 63 := fun a ha => (lt_of_map_eq_range' hat ha).trans_le hsmall
  exact parseTxResult_eq (hreports.1.parse.trans (parse_firstPart hne hbound))

/-- The mapping of a transaction with distinct hashes leads to the place of each. -/
theorem indexHashes_empty_get {hashes : List Hash} (hdistinct : hashes.Nodup) {i : ℕ} {hash : Hash}
    (h : hashes[i]? = some hash) : (indexHashes GoMap.empty 0 hashes).get hash = some i := by
  have hget := indexHashes_get hdistinct GoMap.empty 0 h
  rwa [Nat.zero_add] at hget

/-- Texts of hashes that are distinct are texts of distinct hashes. -/
theorem nodup_hexToHash {texts : List String} (hdistinct : texts.Nodup)
    (hhashes : ∀ text ∈ texts, ∃ hash, text = hashHex hash) : (texts.map hexToHash).Nodup := by
  refine hdistinct.map_on fun text htext text' htext' heq => ?_
  obtain ⟨hash, rfl⟩ := hhashes text htext
  obtain ⟨hash', rfl⟩ := hhashes text' htext'
  rw [hexToHash_hashHex, hexToHash_hashHex] at heq
  rw [heq]

/-! ## The results of a block -/

namespace ReportedBlock

variable (b : ReportedBlock json)

/-- The index of the first message of a transaction. -/
def firstIndex (k : ℕ) : ℕ := ((b.ends.take k).map Ended.used).sum

/-- The gas of the results before a transaction. -/
def gasBefore (k : ℕ) : ℕ := ((b.txs.take k).map fun tx => tx.result.gasUsed.toNat).sum

variable {b} {k : ℕ}

/-- The indexes in the events of a transaction fit in an `int64`. -/
theorem firstIndex_le {e : Ended} (hk : b.ends[k]? = some e) : b.firstIndex k + e.announced < 2 ^ 63 :=
  lt_of_le_of_lt (sum_used_le hk) b.small

/-- The result of a transaction. -/
theorem result_of {e : Ended} (hk : b.ends[k]? = some e) :
    ∃ tx, b.txs[k]? = some tx ∧ Reports e tx ∧ ReportsGas e tx := by
  obtain ⟨hlt, rfl⟩ := List.getElem?_eq_some_iff.mp hk
  have hlt' : k < b.txs.length := b.reports.length_eq ▸ hlt
  exact ⟨b.txs[k], List.getElem?_eq_getElem hlt', b.reports.get hlt hlt', b.reportsGas.get hlt hlt'⟩

/-- No hash is twice in the events of a transaction. -/
theorem HonestHashes.hashes_nodup (h : b.HonestHashes) {e : Ended} (hmem : e ∈ b.ends) : e.hashes.Nodup :=
  (List.nodup_flatMap.mp h.distinct).1 e hmem

/-- No two messages of a transaction that was executed have the same hash. -/
theorem HonestHashes.executed_nodup (h : b.HonestHashes) {out : EthAnte} {results : List (Response × List Event)}
    (hmem : .ethereum (.executed out results) ∈ b.ends) : (results.map fun r => r.1.hash).Nodup := by
  have hnodup : (out.hashes.map Prod.fst).Nodup := h.hashes_nodup hmem
  rw [show out.hashes.map Prod.fst = _ from h.honest _ hmem] at hnodup
  exact List.Nodup.of_map hashHex (by rwa [List.map_map])

/-- **The hash of a message leads to its transaction.** -/
theorem finds {height : ℤ} {blockHash : Bytes} (hhashes : b.HonestHashes)
    (hserved : b.ServedBy server height blockHash) {e : Ended} (hk : b.ends[k]? = some e) {hash : Hash}
    (hhash : hashHex hash ∈ e.hashes) :
    ∃ tx, b.txs[k]? = some tx ∧ Reports e tx ∧ ReportsGas e tx ∧
      server.client.getTxByEthHash hash = .ok ⟨height, k, tx.result, some tx.msgs⟩ := by
  obtain ⟨hlt, rfl⟩ := List.getElem?_eq_some_iff.mp hk
  have hlength := b.reports.length_eq
  have hany : ∀ (j : ℕ) (hj : j < b.ends.length) (hj' : j < b.txs.length),
      b.txs[j].result.events.any (HashedUnder hash) = decide (hashHex hash ∈ b.ends[j].hashes) := by
    intro j hj hj'
    have hat := numbered_get b.numbered (List.getElem?_eq_getElem hj)
    exact any_hashedUnder hat (b.reports.get hj hj') (hhashes.honest _ (List.getElem_mem hj)) hash
  have hbefore : ∀ j < k, ∀ tx', b.txs[j]? = some tx' → tx'.result.events.any (HashedUnder hash) = false := by
    intro j hj tx' htx'
    obtain ⟨hj', rfl⟩ := List.getElem?_eq_some_iff.mp htx'
    rw [hany j (by omega) hj', decide_eq_false_iff_not]
    intro hmem
    -- The hash would be in the events twice.
    have hdisjoint := (List.nodup_flatMap.mp hhashes.distinct).2
    exact List.pairwise_iff_getElem.mp hdisjoint j k (by omega) hlt hj hmem hhash
  have hfound : b.txs[k].result.events.any (HashedUnder hash) = true := by
    rw [hany k hlt (by omega)]
    exact decide_eq_true hhash
  obtain ⟨tx, htx, hreports, hreportsGas⟩ := result_of hk
  obtain ⟨_, rfl⟩ := List.getElem?_eq_some_iff.mp htx
  obtain ⟨rest, hsearch⟩ := foundByHash_eq htx hfound hbefore height
  refine ⟨b.txs[k], htx, hreports, hreportsGas, ?_⟩
  have hannounced : hashHex hash ∈ b.ends.flatMap Ended.hashes :=
    List.mem_flatMap.mpr ⟨_, List.mem_of_getElem? hk, hhash⟩
  unfold TmClient.getTxByEthHash
  rw [hserved.search hash hannounced, hsearch]

/-- The gas of some of the results does not wrap. -/
theorem toNat_foldl_gasUsed {results : List TxResult} (h : results.Sublist (b.txs.map BlockResult.result)) :
    (results.foldl (fun sum res => sum + UInt64.ofInt res.gasUsed) 0).toNat =
      (results.map fun res => res.gasUsed.toNat).sum := by
  have htotal : ((b.txs.map BlockResult.result).map fun res => res.gasUsed.toNat).sum < 2 ^ 63 := by
    rw [List.map_map]
    exact b.gas_lt
  have hsum : (results.map fun res => res.gasUsed.toNat).sum ≤
      ((b.txs.map BlockResult.result).map fun res => res.gasUsed.toNat).sum :=
    List.Sublist.sum_le_sum (h.map _) fun _ _ => Nat.zero_le _
  have htoNat : (results.map fun res => (UInt64.ofInt res.gasUsed).toNat) =
      results.map fun res => res.gasUsed.toNat := by
    refine List.map_congr_left fun res hres => ?_
    have hle : res.gasUsed.toNat ≤ (results.map fun res => res.gasUsed.toNat).sum :=
      List.single_le_sum (fun _ _ => Nat.zero_le _) _ (List.mem_map_of_mem hres)
    obtain ⟨tx, htx, rfl⟩ := List.mem_map.mp (h.subset hres)
    exact toNat_ofInt (b.gas_nonneg tx htx) (by omega)
  rw [toNat_foldl_add _ _ _ (by rw [htoNat, UInt64.toNat_zero]; omega), htoNat, UInt64.toNat_zero, Nat.zero_add]

/-- The sum over the results before a transaction is exact. -/
theorem toNat_gasUsedBefore : (gasUsedBefore (b.txs.map BlockResult.result) k).toNat = b.gasBefore k := by
  unfold gasUsedBefore gasBefore
  rw [toNat_foldl_gasUsed (List.take_sublist k _), ← List.map_take, List.map_map]
  rfl

/-- One result more. -/
theorem gasBefore_add {tx : BlockResult} (htx : b.txs[k]? = some tx) :
    b.gasBefore k + tx.result.gasUsed.toNat = ((b.txs.take (k + 1)).map fun tx => tx.result.gasUsed.toNat).sum := by
  unfold gasBefore
  rw [List.take_add_one, htx]
  simp

/-- The gas up to a result fits in an `int64`. -/
theorem gasBefore_add_lt {tx : BlockResult} (htx : b.txs[k]? = some tx) :
    b.gasBefore k + tx.result.gasUsed.toNat < 2 ^ 63 := by
  rw [gasBefore_add htx]
  exact lt_of_le_of_lt (sum_take_le _ _ _) b.gas_lt

end ReportedBlock

end blocks

/-! ## Blocks that were delivered -/

section delivered

variable [Keccak] {app : App} {json : LogJson} {sdk : Sdk}

variable (app json sdk) in
/-- What the gas meter reads after each transaction of a block. -/
def meterReadings : List BlockTx → Store → List UInt64
  | [], _ => []
  | b :: bs, st =>
      let st' := (deliverTx app json sdk b st).2
      st'.gasConsumed :: meterReadings bs st'

/-- A result that has what the meter reads has the gas of the messages. -/
theorem reportsGas_of_delivered (hhooks : app.HooksKeepGasUsed) {b : BlockTx} {st st' : Store} {e : TxEnd}
    (h : Ante.Delivered app json sdk b st e st') (hmsgs : b.tx.msgs ≠ []) {tx : BlockResult}
    (hmeter : tx.result.gasUsed = st'.gasConsumed.toNat) : ReportsGas (.ethereum e) tx := by
  cases h with
  | rejected => trivial
  | aborted _ => trivial
  | @executed out results st₁ st₂ hante hrun =>
      obtain ⟨hcounter, hreads⟩ := runEthMsgs_gasUsed hhooks hrun
      rw [newEthAnteHandler_gasUsed hante, UInt64.toNat_zero, Nat.zero_add] at hcounter
      have hne : out.msgs ≠ [] := by
        have hlength := (newEthAnteHandler_announces hante).1.length_eq
        rw [← List.length_pos_iff] at hmsgs ⊢
        omega
      show tx.result.gasUsed = totalGasUsed results
      rw [hmeter, hreads hne, hcounter]

/-- **The results of a block that was delivered**, with what the meter reads after each transaction, have the gas of
the messages that were executed. -/
theorem deliverBlock_reportsGas (hhooks : app.HooksKeepGasUsed) {bs : List BlockTx} (hmsgs : ∀ b ∈ bs, b.tx.msgs ≠ [])
    {st : Store} {txs : List BlockResult}
    (hmeter : List.Forall₂ (fun gas tx => tx.result.gasUsed = gas.toNat) (meterReadings app json sdk bs st) txs) :
    List.Forall₂ ReportsGas ((deliverBlock app json sdk bs st).1.map Ended.ethereum) txs := by
  induction bs generalizing st txs with
  | nil =>
      cases hmeter
      exact .nil
  | cons b bs ih =>
      obtain ⟨hb, hbs⟩ := List.forall_mem_cons.mp hmsgs
      cases hmeter with
      | cons hone hrest =>
          exact .cons (reportsGas_of_delivered hhooks (deliverTx_delivered app json sdk b st) hb hone) (ih hbs hrest)

/-- After a transaction that ran out of the gas of the block, the others fail before the ante handler. -/
def FatesEnd : List BlockTx → Prop
  | [] => True
  | b :: bs => ((∃ n, b.fate = .aborts n .blockGas) → ∀ b' ∈ bs, b'.fate = .beforeAnte) ∧ FatesEnd bs

/-- A transaction that fails before the ante handler is rejected. -/
theorem deliverBlock_beforeAnte {bs : List BlockTx} (h : ∀ b ∈ bs, b.fate = .beforeAnte) (st : Store) :
    ∀ e ∈ (deliverBlock app json sdk bs st).1, e = .rejected := by
  induction bs generalizing st with
  | nil => simp [deliverBlock]
  | cons b bs ih =>
      obtain ⟨hb, hbs⟩ := List.forall_mem_cons.mp h
      refine List.forall_mem_cons.mpr ⟨?_, ih hbs _⟩
      simp only [deliverTx, hb]

/-- Only a transaction that runs out of the gas of the block ends so. -/
theorem fate_of_blockGas {b : BlockTx} {st : Store} {out : EthAnte}
    (h : (deliverTx app json sdk b st).1 = .aborted .blockGas out) : ∃ n, b.fate = .aborts n .blockGas := by
  unfold deliverTx at h
  cases hfate : b.fate with
  | beforeAnte => simp [hfate] at h
  | completes =>
      simp only [hfate] at h
      split at h
      · cases h
      · split at h <;> cases h
  | aborts n reason =>
      simp only [hfate] at h
      split at h
      · cases h
      · split at h
        · obtain ⟨rfl, -⟩ := TxEnd.aborted.inj h
          exact ⟨n, rfl⟩
        · cases h

/-- Nothing is announced after a transaction that ran out of the gas of the block. -/
theorem deliverBlock_gasEnds {bs : List BlockTx} (h : FatesEnd bs) (st : Store) :
    GasEndsBlock ((deliverBlock app json sdk bs st).1.map Ended.ethereum) := by
  induction bs generalizing st with
  | nil => trivial
  | cons b bs ih =>
      refine ⟨?_, ih h.2 _⟩
      rintro ⟨out, hout⟩ e' he'
      obtain ⟨e, he, rfl⟩ := List.mem_map.mp he'
      have hfate := fate_of_blockGas (Ended.ethereum.inj hout)
      rw [deliverBlock_beforeAnte (h.1 hfate) _ e he]
      exact Or.inl rfl

/-- The gas of a message is a part of the gas of the block. -/
theorem gasFits_of_reportsGas {es : List TxEnd} {txs : List BlockResult}
    (h : List.Forall₂ ReportsGas (es.map Ended.ethereum) txs)
    (hlt : (txs.map fun tx => tx.result.gasUsed.toNat).sum < 2 ^ 63) : ∀ e ∈ es.map Ended.ethereum, e.GasFits := by
  induction es generalizing txs with
  | nil => simp
  | cons e es ih =>
      cases h with
      | @cons _ tx _ txs hone hrest =>
          rw [List.map_cons, List.sum_cons] at hlt
          rw [List.map_cons, List.forall_mem_cons]
          refine ⟨?_, ih hrest (by omega)⟩
          intro res hres
          cases e with
          | rejected => cases hres
          | aborted reason out => cases hres
          | executed out results =>
              obtain ⟨r, hr, rfl⟩ := List.mem_map.mp hres
              have hgas : tx.result.gasUsed = totalGasUsed results := hone
              have hle : r.1.gasUsed.toNat ≤ totalGasUsed results :=
                List.single_le_sum (fun _ _ => Nat.zero_le _) _
                  (List.mem_map_of_mem (f := fun r : Response × List Event => r.1.gasUsed.toNat) hr)
              omega

/-- **A block that was delivered is one with results**: the SDK gives each transaction the events it emitted and what
the meter reads, and the numbers fit in an `int64`. -/
theorem deliverBlock_reported (hhooks : app.HooksKeepGasUsed) {bs : List BlockTx} (hmsgs : ∀ b ∈ bs, b.tx.msgs ≠ [])
    (hfates : FatesEnd bs) {st : Store} (hstart : st.transient.txIndex = 0) {txs : List BlockResult}
    (hreports : List.Forall₂ Reports ((deliverBlock app json sdk bs st).1.map Ended.ethereum) txs)
    (hmeter : List.Forall₂ (fun gas tx => tx.result.gasUsed = gas.toNat) (meterReadings app json sdk bs st) txs)
    (hgas : (txs.map fun tx => tx.result.gasUsed.toNat).sum < 2 ^ 63)
    (hlimits : ∀ reason out, .aborted reason out ∈ (deliverBlock app json sdk bs st).1 →
      (out.msgs.map fun eth => eth.data.getGas.toNat).sum < 2 ^ 63)
    (hsmall : (((deliverBlock app json sdk bs st).1.map Ended.ethereum).map Ended.announced).sum < 2 ^ 63) :
    ∃ b : ReportedBlock json, b.ends = (deliverBlock app json sdk bs st).1.map Ended.ethereum ∧ b.txs = txs := by
  have hreportsGas := deliverBlock_reportsGas hhooks hmsgs hmeter
  refine ⟨{
    ends := (deliverBlock app json sdk bs st).1.map Ended.ethereum
    numbered := hstart ▸ deliverBlock_numbered json app sdk bs st
    gasEndsBlock := deliverBlock_gasEnds hfates st
    gasFits := gasFits_of_reportsGas hreportsGas hgas
    small := hsmall
    txs := txs
    reports := hreports
    reportsGas := hreportsGas
    gas_nonneg := ?_
    gas_lt := hgas
    limits_lt := ?_ }, rfl, rfl⟩
  · intro tx htx
    obtain ⟨i, hi, rfl⟩ := List.getElem_of_mem htx
    have hread := hmeter.get (hmeter.length_eq ▸ hi) hi
    rw [List.get_eq_getElem, List.get_eq_getElem] at hread
    rw [hread]
    exact Int.natCast_nonneg _
  · intro reason out hmem
    obtain ⟨e, he, heq⟩ := List.mem_map.mp hmem
    exact hlimits reason out (Ended.ethereum.inj heq ▸ he)

/-- The hashes in the responses of the messages of a transaction. -/
theorem runEthMsgs_hashes {b : BlockTx} {eths : List MsgEthereumTx} {st st' : Store}
    {results : List (Response × List Event)} (h : runEthMsgs app json b eths st = .ok results st') :
    (results.map fun r => r.1.hash) = eths.map fun eth => app.geth.txHash eth.data := by
  induction eths generalizing st results with
  | nil =>
      obtain ⟨rfl, rfl⟩ := mapM_nil_ok.mp h
      rfl
  | cons eth eths ih =>
      obtain ⟨⟨response, events⟩, st₁, results', hone, hrest, rfl⟩ := mapM_cons_ok.mp h
      obtain ⟨happly, -⟩ := App.ethereumTx_ok.mp hone
      rw [List.map_cons, List.map_cons, ih hrest, App.applyTransaction_hash happly]

/-- The hashes that are announced are those of the messages. -/
theorem announced_hashes {b : BlockTx} {st st₁ : Store} {out : EthAnte}
    (h : newEthAnteHandler app b.ctx sdk b.tx false st = .ok out st₁)
    (hcarry : ∀ eth, .ethereumTx eth ∈ b.tx.msgs → eth.hash = hashHex (app.geth.txHash eth.data)) :
    out.hashes.map Prod.fst = out.msgs.map fun eth => hashHex (app.geth.txHash eth.data) := by
  obtain ⟨hcontent, hannounced⟩ := newEthAnteHandler_announces h
  rw [hannounced, ethEmitEvent_eq, List.map_map]
  have hfst : ((out.msgs.zipIdx st₁.transient.txIndex).map
      (Prod.fst ∘ fun (p : MsgEthereumTx × ℕ) => (p.1.hash, p.2))) = out.msgs.map MsgEthereumTx.hash := by
    rw [← List.zipIdx_map_fst st₁.transient.txIndex out.msgs, List.map_map]
    simp
  rw [hfst]
  refine List.map_congr_left fun eth heth => ?_
  obtain ⟨i, hi, rfl⟩ := List.getElem_of_mem heth
  obtain ⟨eth₀, hmsg, hdata, hhash⟩ := hcontent.get (hcontent.length_eq ▸ hi) hi
  rw [List.get_eq_getElem] at hdata hhash
  rw [hhash, hdata]
  exact hcarry eth₀ (hmsg ▸ List.getElem_mem _)

/-- **A block whose messages carry their hashes is honest**: every message is announced and executed under the hash of
its transaction. -/
theorem deliverBlock_honest {bs : List BlockTx} (hcarry : ∀ b ∈ bs, ∀ eth, .ethereumTx eth ∈ b.tx.msgs →
      eth.hash = hashHex (app.geth.txHash eth.data)) (st : Store) :
    ∀ e ∈ (deliverBlock app json sdk bs st).1.map Ended.ethereum, e.Honest := by
  induction bs generalizing st with
  | nil => simp [deliverBlock]
  | cons b bs ih =>
      obtain ⟨hb, hbs⟩ := List.forall_mem_cons.mp hcarry
      simp only [deliverBlock, List.map_cons, List.forall_mem_cons]
      refine ⟨?_, ih hbs _⟩
      have hfirst := deliverTx_delivered app json sdk b st
      generalize (deliverTx app json sdk b st).1 = e at hfirst
      generalize (deliverTx app json sdk b st).2 = st' at hfirst
      cases hfirst with
      | rejected => trivial
      | aborted hante =>
          intro text htext
          rw [announced_hashes hante hb] at htext
          obtain ⟨eth, -, rfl⟩ := List.mem_map.mp htext
          exact ⟨_, rfl⟩
      | executed hante hrun =>
          have hresponses := congrArg (List.map hashHex) (runEthMsgs_hashes hrun)
          rw [List.map_map, List.map_map] at hresponses
          exact (announced_hashes hante hb).trans hresponses.symm

end delivered

end Smartdoge.Rpc
