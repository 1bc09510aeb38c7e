import Smartdoge.Rpc.ReportedBlock

/-!
# The receipts of a block

In a block with its results, whose messages were announced under their hashes, each message that was executed has a
receipt, and so has each message of a transaction that exceeded the gas limit of the block.

* `receipt_of_entry`: the receipt that is made from what the parser gives for a message.
* `receipt_executed`, `receipt_exceeded`: what the parser gives for the two kinds of messages.
* **`receipts_of_block`**: the receipts of the messages that were executed, and of those that exceeded the gas limit.
* **`cumulative_exact_iff`**: when the gas in the receipts of a block adds up.
* **`blockGasUsed_splits`**: the gas of the block, by that of a receipt.
-/

set_option linter.unusedSectionVars false

namespace Smartdoge.Rpc

open Smartdoge.Lib
open Smartdoge.Lib.Writes
open Smartdoge.Statedb
open Smartdoge.Evm
open Smartdoge.Ante

section blocks

variable [Keccak] {json : LogJson} {server : EthServer}

/-! ## Receipts -/

/-- The receipt is about a message of a block. -/
structure TxReceipt.IsFor (receipt : TxReceipt) (server : EthServer) (height : ℤ) (blockHash : Bytes)
    (eth : MsgEthereumTx) (hash : Hash) : Prop where
  transactionHash : receipt.transactionHash = hash
  type : receipt.type = eth.data.txType
  recipient : receipt.recipient = eth.data.getTo
  sender : server.getSender eth = .ok receipt.sender
  contractAddress : receipt.contractAddress =
    if eth.data.getTo = none then some (server.createAddress receipt.sender eth.data.getNonce) else none
  blockHash : receipt.blockHash = bytesToHash blockHash
  blockNumber : receipt.blockNumber = UInt64.ofInt height
  effectiveGasPrice : server.effectiveGasPrice height eth.data = .ok receipt.effectiveGasPrice

/-- The receipt shows how a message ended, and where it stands in the block. -/
structure TxReceipt.Tells (receipt : TxReceipt) (success : Bool) (gasUsed : UInt64) (logs : List Log)
    (index cumulativeGasUsed : ℕ) : Prop where
  status : receipt.status = success
  gasUsed : receipt.gasUsed = gasUsed
  logs : receipt.logs = logs
  logsBloom : receipt.logsBloom = Evm.logsBloom receipt.logs
  transactionIndex : receipt.transactionIndex.toNat = index
  cumulativeGasUsed : receipt.cumulativeGasUsed.toNat = cumulativeGasUsed

/-- The messages of a transaction that passed the ante handler. -/
theorem eths_of_sameContent {msgs : List Msg} {eths : List MsgEthereumTx} (h : List.Forall₂ SameContent msgs eths) :
    ∃ eths₀ : List MsgEthereumTx, msgs = eths₀.map .ethereumTx ∧
      List.Forall₂ (fun eth₀ eth => eth₀.data = eth.data) eths₀ eths := by
  induction h with
  | nil => exact ⟨[], rfl, .nil⟩
  | cons hone hrest ih =>
      obtain ⟨eth₀, rfl, hdata, -⟩ := hone
      obtain ⟨eths₀, rfl, hdatas⟩ := ih
      exact ⟨eth₀ :: eths₀, rfl, .cons hdata.symm hdatas⟩

/-- The gas limits are read from the data. -/
theorem gasLimits_of_data {eths₀ eths : List MsgEthereumTx}
    (h : List.Forall₂ (fun eth₀ eth => eth₀.data = eth.data) eths₀ eths) :
    (eths₀.map fun eth => eth.data.getGas.toNat) = eths.map fun eth => eth.data.getGas.toNat := by
  induction h with
  | nil => rfl
  | cons hone _ ih => rw [List.map_cons, List.map_cons, hone, ih]

/-- The sum of two gas counts that fit in an `int64`. -/
theorem toNat_add_of_lt {a b : UInt64} {m n : ℕ} (ha : a.toNat = m) (hb : b.toNat = n) (hm : m < 2 ^ 63)
    (hn : n < 2 ^ 63) : (a + b).toNat = m + n := by
  rw [UInt64.toNat_add, ha, hb]
  exact Nat.mod_eq_of_lt (by omega)

/-- The gas of the entries of some messages. -/
theorem gas_mapIdx (os : List Outcome) (n : ℕ) :
    (((os.mapIdx fun i o => o.parsedTx json i).take n).map fun tx => tx.gasUsed.toNat).sum =
      totalGasUsed ((os.map fun o => (o.response, o.events json)).take n) := by
  unfold totalGasUsed
  rw [List.map_take, List.map_take, List.map_map]
  have hgas : (os.mapIdx fun i o => o.parsedTx json i).map (fun tx => tx.gasUsed.toNat) =
      os.map fun o => o.response.gasUsed.toNat := by
    refine List.ext_getElem (by simp) ?_
    intro i h₁ h₂
    simp [Outcome.parsedTx]
  rw [hgas]
  rfl

section served

variable {b : ReportedBlock json} {height : ℤ} {blockHash : Bytes}

/-- **The receipt of an entry of a transaction of the block.** -/
theorem receipt_of_entry (hserved : b.ServedBy server height blockHash) {k i n m : ℕ} {hash : Hash}
    {tx : BlockResult} {parsedTxs : ParsedTxs} {first entry : ParsedTx} {txs : List ParsedTx} {eth : MsgEthereumTx}
    (htx : b.txs[k]? = some tx)
    (hsearch : server.client.getTxByEthHash hash = .ok ⟨height, k, tx.result, some tx.msgs⟩)
    (hcounted : txSuccessOrExceedsBlockGasLimit tx.result = true) (hparse : parseTxResult tx.result = .ok parsedTxs)
    (hmapped : parsedTxs.txHashes.get hash = some i) (hfirst : parsedTxs.txs[i]? = some first)
    (hfirstIndex : first.msgIndex = i) (htxs : setGasLimits tx.result.code tx.msgs i parsedTxs.txs = .ok txs)
    (hentry : txs[i]? = some entry) (hindex : entry.msgIndex = i) (heth : tx.msgs[i]? = some (.ethereumTx eth))
    (hethTxIndex : entry.ethTxIndex = n) (hn : n < 2 ^ 63)
    (hgas : ((txs.take (i + 1)).map fun tx => tx.gasUsed.toNat).sum = m) (hm : m < 2 ^ 63) :
    ∃ receipt, server.getTransactionReceipt hash = .ok (some receipt) ∧
      receipt.IsFor server height blockHash eth hash ∧
      receipt.Tells (tx.result.code = 0 ∧ ¬entry.failed) entry.gasUsed ((entry.parseTxLogs server.json).getD []) n
        (b.gasBefore k + m) := by
  obtain ⟨⟨sender, hsender⟩, price, hprice⟩ :=
    hserved.answers tx (List.mem_of_getElem? htx) eth (List.mem_of_getElem? heth)
  refine ⟨_, (EthServer.getTransactionReceipt_eq hsearch hcounted hparse hmapped).trans
    (EthServer.receiptAt_eq hserved.block rfl hfirst hfirstIndex htxs hentry hindex heth hserved.blockResults hsender
      hethTxIndex hprice), ?_, ?_⟩
  · exact ⟨rfl, rfl, rfl, hsender, rfl, rfl, rfl, hprice⟩
  · refine ⟨rfl, rfl, rfl, rfl, ?_, ?_⟩
    · show (UInt64.ofInt (n : ℤ)).toNat = n
      rw [toNat_ofInt (Int.natCast_nonneg n) (by rw [Int.toNat_natCast]; omega), Int.toNat_natCast]
    · have hsum : ((txs.take (i + 1)).foldl (fun sum (tx : ParsedTx) => sum + tx.gasUsed) 0).toNat = m := by
        rw [toNat_foldl_add _ _ _ (by rw [hgas, UInt64.toNat_zero]; omega), hgas, UInt64.toNat_zero, Nat.zero_add]
      have hbefore := ReportedBlock.gasBefore_add_lt htx
      exact toNat_add_of_lt ReportedBlock.toNat_gasUsedBefore hsum (by omega) hm

/-- The message of an entry. -/
theorem message_of_sameContent {msgs : List Msg} {eths : List MsgEthereumTx} (h : List.Forall₂ SameContent msgs eths)
    {i : ℕ} (hi : i < eths.length) : ∃ eth, msgs[i]? = some (.ethereumTx eth) := by
  have hlt : i < msgs.length := by rw [h.length_eq]; exact hi
  obtain ⟨eth, hmsg, -⟩ := h.get hlt hi
  refine ⟨eth, ?_⟩
  rw [List.getElem?_eq_getElem hlt]
  exact congrArg some hmsg

/-- The receipt of a message that was executed. -/
theorem receipt_executed (hhashes : b.HonestHashes) (hserved : b.ServedBy server height blockHash) {k : ℕ}
    {out : EthAnte} {results : List (Response × List Event)}
    (hk : b.ends[k]? = some (.ethereum (.executed out results))) {i : ℕ} {res : Response} {events : List Event}
    (hi : results[i]? = some (res, events)) :
    ∃ tx eth receipt, b.txs[k]? = some tx ∧ tx.msgs[i]? = some (.ethereumTx eth) ∧
      server.getTransactionReceipt res.hash = .ok (some receipt) ∧
      receipt.IsFor server height blockHash eth res.hash ∧
      receipt.Tells (!res.failed) res.gasUsed res.logs (b.firstIndex k + i)
        (b.gasBefore k + totalGasUsed (results.take (i + 1))) := by
  have hmem := List.mem_of_getElem? hk
  have hhonest := hhashes.honest _ hmem
  have hhash : hashHex res.hash ∈ (Ended.ethereum (.executed out results)).hashes := by
    show hashHex res.hash ∈ out.hashes.map Prod.fst
    rw [hhonest]
    exact List.mem_map.mpr ⟨(res, events), List.mem_of_getElem? hi, rfl⟩
  obtain ⟨tx, htx, hreports, hreportsGas, hsearch⟩ := ReportedBlock.finds hhashes hserved hk hhash
  have hsmall : b.firstIndex k + out.msgs.length < 2 ^ 63 := ReportedBlock.firstIndex_le hk
  have hat := numbered_get b.numbered hk
  rw [Nat.zero_add] at hat
  obtain ⟨os, rfl, hindexes, hparse⟩ := parses_executed hat hreports hreportsGas hhonest (b.gasFits _ hmem)
    (le_of_lt hsmall) (List.ne_nil_of_mem (List.mem_of_getElem? hi))
  obtain ⟨o, ho, heq⟩ := Option.map_eq_some_iff.mp (List.getElem?_map.symm.trans hi)
  cases heq
  obtain ⟨hindex, hindex_lt⟩ := getElem?_of_map_eq_range' hindexes ho
  have hplace : ((os.map fun o => (o.response, o.events json)).map fun r => r.1.hash)[i]? = some o.response.hash := by
    rw [List.getElem?_map, hi]
    rfl
  have hmapped := indexHashes_empty_get (hhashes.executed_nodup hmem) hplace
  have hentry : (os.mapIdx fun i o => o.parsedTx json i)[i]? = some (o.parsedTx json i) := by
    rw [List.getElem?_mapIdx, ho]
    rfl
  obtain ⟨eth, heth⟩ := message_of_sameContent hreports.2.1 (by omega : i < out.msgs.length)
  have hcode : tx.result.code = 0 := hreports.2.2
  have hgas_le : totalGasUsed ((os.map fun o => (o.response, o.events json)).take (i + 1)) ≤
      totalGasUsed (os.map fun o => (o.response, o.events json)) := sum_take_le _ _ _
  have hgas_eq : tx.result.gasUsed.toNat = totalGasUsed (os.map fun o => (o.response, o.events json)) := by
    rw [hreportsGas, Int.toNat_natCast]
  have hgas_lt := ReportedBlock.gasBefore_add_lt htx
  obtain ⟨receipt, hreceipt, hfor, htells⟩ := receipt_of_entry hserved htx hsearch
    (by simp [txSuccessOrExceedsBlockGasLimit, hcode]) hparse hmapped hentry rfl (if_neg (by simpa using hcode)) hentry
    rfl heth (n := b.firstIndex k + i) (by rw [Outcome.parsedTx, hindex]; rfl) (by omega) (gas_mapIdx os (i + 1))
    (by omega)
  refine ⟨tx, eth, receipt, htx, heth, hreceipt, hfor, ?_⟩
  have hread := hserved.logsRead _ hmem (o.response, o.events json) (List.mem_map_of_mem (List.mem_of_getElem? ho))
  have hstatus : decide (tx.result.code = 0 ∧ ¬(o.parsedTx json i).failed = true) = !o.response.failed := by
    simp [hcode, Outcome.parsedTx]
  rw [hstatus, parseTxLogs_parsedTx i hread] at htells
  exact htells

/-- The announced entries keep what was announced, whatever their gas is set to. -/
theorem fillGasUsed_announced {announced : List (String × ℕ)} {i : ℕ} {a : String × ℕ} (h : announced[i]? = some a)
    (gasUsed : ℤ) : ∃ gas, (ParsedTxs.fillGasUsed gasUsed (announced.mapIdx Outcome.announcedTx))[i]? =
      some { Outcome.announcedTx i a with gasUsed := gas } := by
  have hentry : (announced.mapIdx Outcome.announcedTx)[i]? = some (Outcome.announcedTx i a) := by
    rw [List.getElem?_mapIdx, h]
    rfl
  unfold ParsedTxs.fillGasUsed
  split
  · rename_i tx hone
    rw [hone] at hentry
    obtain ⟨rfl, rfl⟩ : i = 0 ∧ tx = Outcome.announcedTx i a := by
      cases i with
      | zero => exact ⟨rfl, by simpa using hentry⟩
      | succ i => simp at hentry
    exact ⟨UInt64.ofInt gasUsed, rfl⟩
  · exact ⟨0, hentry⟩

/-- The receipt of a message of a transaction that exceeded the gas limit of the block. -/
theorem receipt_exceeded (hhashes : b.HonestHashes) (hserved : b.ServedBy server height blockHash) {k : ℕ}
    {out : EthAnte} (hk : b.ends[k]? = some (.ethereum (.aborted .blockGas out))) {i : ℕ} {hash : Hash} {index : ℕ}
    (hi : out.hashes[i]? = some (hashHex hash, index)) :
    ∃ tx eth receipt, b.txs[k]? = some tx ∧ tx.msgs[i]? = some (.ethereumTx eth) ∧
      server.getTransactionReceipt hash = .ok (some receipt) ∧ receipt.IsFor server height blockHash eth hash ∧
      receipt.Tells false eth.data.getGas [] (b.firstIndex k + i)
        (b.gasBefore k + ((out.msgs.take (i + 1)).map fun eth => eth.data.getGas.toNat).sum) := by
  have hmem := List.mem_of_getElem? hk
  have hhash : hashHex hash ∈ (Ended.ethereum (.aborted .blockGas out)).hashes :=
    List.mem_map.mpr ⟨_, List.mem_of_getElem? hi, rfl⟩
  obtain ⟨tx, htx, hreports, -, hsearch⟩ := ReportedBlock.finds hhashes hserved hk hhash
  have hsmall : b.firstIndex k + out.msgs.length < 2 ^ 63 := ReportedBlock.firstIndex_le hk
  have hat : AnnouncesFrom (0 + b.firstIndex k) out := numbered_get b.numbered hk
  rw [Nat.zero_add] at hat
  obtain ⟨hindex, hindex_lt⟩ := getElem?_of_map_eq_range' hat hi
  have hcount : out.hashes.length = out.msgs.length := length_of_map_eq_range' hat
  have hparse := parses_announced hat hreports (le_of_lt hsmall) (List.ne_nil_of_mem (List.mem_of_getElem? hi))
  have hdistinct : (out.hashes.map fun a => hexToHash a.1).Nodup := by
    have hnodup := nodup_hexToHash (hhashes.hashes_nodup hmem) (hhashes.honest _ hmem)
    rwa [Ended.hashes, List.map_map] at hnodup
  have hplace : (out.hashes.map fun a => hexToHash a.1)[i]? = some hash := by
    rw [List.getElem?_map, hi, Option.map_some, hexToHash_hashHex]
  have hmapped := indexHashes_empty_get hdistinct hplace
  obtain ⟨gas, hfirst⟩ := fillGasUsed_announced hi tx.result.gasUsed
  obtain ⟨eths, hmsgs, hdata⟩ := eths_of_sameContent hreports.2.1
  have heths := hdata.length_eq
  have hlength : (ParsedTxs.fillGasUsed tx.result.gasUsed (out.hashes.mapIdx Outcome.announcedTx)).length =
      eths.length := by
    rw [fillGasUsed_length, List.length_mapIdx]
    omega
  obtain ⟨txs, htxs, hentry, hlimits⟩ := setGasLimits_eq hreports.2.2.1 hlength (by omega) hfirst
  have hsum : ((txs.take (i + 1)).map fun tx => tx.gasUsed.toNat).sum =
      ((out.msgs.take (i + 1)).map fun eth => eth.data.getGas.toNat).sum := by
    rw [hlimits, List.map_take, List.map_take, gasLimits_of_data hdata]
  have hsum_lt : ((out.msgs.take (i + 1)).map fun eth => eth.data.getGas.toNat).sum < 2 ^ 63 :=
    lt_of_le_of_lt (sum_take_le _ _ _) (b.limits_lt _ _ hmem)
  have heth : tx.msgs[i]? = some (.ethereumTx eths[i]) := by
    rw [hmsgs, List.getElem?_map, List.getElem?_eq_getElem (by omega)]
    rfl
  have hexceeds : txExceedBlockGasLimit tx.result = true := hreports.2.2.2.mpr rfl
  obtain ⟨receipt, hreceipt, hfor, htells⟩ := receipt_of_entry hserved htx hsearch
    (by simp [txSuccessOrExceedsBlockGasLimit, hexceeds]) hparse hmapped hfirst rfl (hmsgs ▸ htxs) hentry rfl heth
    (n := b.firstIndex k + i) (congrArg Nat.cast hindex) (by omega) hsum hsum_lt
  refine ⟨tx, eths[i], receipt, htx, heth, hreceipt, hfor, ?_⟩
  have hstatus :
      decide (tx.result.code = 0 ∧ ¬(Outcome.announcedTx i (hashHex hash, index)).failed = true) = false := by
    simp [hreports.2.2.1]
  exact hstatus ▸ htells

end served

/-! ## Sums -/

/-- The gas of the messages of a transaction that was executed. -/
def Ended.executedGas : Ended → ℕ
  | .ethereum (.executed _ results) => totalGasUsed results
  | .ethereum .rejected | .ethereum (.aborted _ _) | .cosmos _ _ => 0

/-- A transaction of Ethereum messages that were executed. -/
def Ended.IsExecuted (e : Ended) : Prop := ∃ out results, e = .ethereum (.executed out results)

/-- Sums of which one is never behind are equal if and only if they agree at every place. -/
theorem sum_eq_iff_of_forall₂ {α β : Type} {f : α → ℕ} {g : β → ℕ} {xs : List α} {ys : List β}
    (h : List.Forall₂ (fun x y => f x ≤ g y) xs ys) :
    (xs.map f).sum ≤ (ys.map g).sum ∧
      ((ys.map g).sum = (xs.map f).sum ↔ List.Forall₂ (fun x y => f x = g y) xs ys) := by
  induction h with
  | nil => exact ⟨le_refl _, iff_of_true rfl .nil⟩
  | cons hone hrest ih =>
      obtain ⟨hle, hiff⟩ := ih
      rw [List.map_cons, List.sum_cons, List.map_cons, List.sum_cons, List.forall₂_cons, ← hiff]
      omega

/-- The result has at least the gas of the messages, and exactly that if they were executed. -/
theorem ReportsGas.executedGas_le {e : Ended} {tx : BlockResult} (h : ReportsGas e tx)
    (hnonneg : 0 ≤ tx.result.gasUsed) :
    e.executedGas ≤ tx.result.gasUsed.toNat ∧
      (e.executedGas = tx.result.gasUsed.toNat ↔ ¬e.IsExecuted → tx.result.gasUsed = 0) := by
  have hother : ¬e.IsExecuted → e.executedGas = 0 → e.executedGas ≤ tx.result.gasUsed.toNat ∧
      (e.executedGas = tx.result.gasUsed.toNat ↔ ¬e.IsExecuted → tx.result.gasUsed = 0) := by
    intro hnot hzero
    rw [hzero]
    refine ⟨Nat.zero_le _, fun heq _ => by omega, fun himp => by rw [himp hnot]; rfl⟩
  cases e with
  | cosmos msgs results => exact hother (fun ⟨_, _, heq⟩ => by cases heq) rfl
  | ethereum e =>
      cases e with
      | rejected => exact hother (fun ⟨_, _, heq⟩ => by cases heq) rfl
      | aborted reason out => exact hother (fun ⟨_, _, heq⟩ => by cases heq) rfl
      | executed out results =>
          have heq : totalGasUsed results = tx.result.gasUsed.toNat := by
            rw [show tx.result.gasUsed = _ from h, Int.toNat_natCast]
          exact ⟨le_of_eq heq, iff_of_true heq fun hnot => absurd ⟨out, results, rfl⟩ hnot⟩

/-- The gas before a transaction is that of the messages executed before it, if nothing else used any. -/
theorem ReportedBlock.gasBefore_eq_iff {b : ReportedBlock json} (k : ℕ) :
    b.gasBefore k = ((b.ends.take k).map Ended.executedGas).sum ↔
    ∀ j < k, ∀ e tx, b.ends[j]? = some e → b.txs[j]? = some tx → ¬e.IsExecuted → tx.result.gasUsed = 0 := by
  have hgas := List.forall₂_iff_get.mp b.reportsGas
  have hle : List.Forall₂ (fun e tx => e.executedGas ≤ tx.result.gasUsed.toNat) b.ends b.txs := by
    refine List.forall₂_iff_get.mpr ⟨hgas.1, fun j hj hj' => ?_⟩
    exact (ReportsGas.executedGas_le (hgas.2 j hj hj') (b.gas_nonneg _ (List.getElem_mem hj'))).1
  refine (sum_eq_iff_of_forall₂ (List.forall₂_take k hle)).2.trans ?_
  rw [List.forall₂_iff_get]
  constructor
  · rintro ⟨-, hall⟩ j hj e tx he htx
    obtain ⟨hje, rfl⟩ := List.getElem?_eq_some_iff.mp he
    obtain ⟨hjt, rfl⟩ := List.getElem?_eq_some_iff.mp htx
    have heq := hall j (by rw [List.length_take]; omega) (by rw [List.length_take]; omega)
    simp only [List.get_eq_getElem, List.getElem_take] at heq
    exact (ReportsGas.executedGas_le (hgas.2 j hje hjt) (b.gas_nonneg _ (List.getElem_mem hjt))).2.mp heq
  · intro hall
    refine ⟨by rw [List.length_take, List.length_take, hgas.1], fun j hj hj' => ?_⟩
    rw [List.length_take] at hj hj'
    have hje : j < b.ends.length := by omega
    have hjt : j < b.txs.length := by omega
    simp only [List.get_eq_getElem, List.getElem_take]
    refine (ReportsGas.executedGas_le (hgas.2 j hje hjt) (b.gas_nonneg _ (List.getElem_mem hjt))).2.mpr ?_
    exact hall j (by omega) _ _ (List.getElem?_eq_getElem hje) (List.getElem?_eq_getElem hjt)

/-- The loop over the results stops at the first that found the block full. -/
theorem blockGasUsed_eq (sum : UInt64) (results : List TxResult) : blockGasUsed sum results =
    (results.takeWhile fun res => !shouldIgnoreGasUsed res).foldl
      (fun sum res => sum + UInt64.ofInt res.gasUsed) sum := by
  induction results generalizing sum with
  | nil => rfl
  | cons res results ih =>
      unfold blockGasUsed
      cases hignored : shouldIgnoreGasUsed res with
      | true => simp [hignored]
      | false => simp [hignored, ih]

/-- The gas of some results, up to the first that has the error of a full block. -/
def gasUntilFull (results : List TxResult) : ℕ :=
  ((results.takeWhile fun res => !shouldIgnoreGasUsed res).map fun res => res.gasUsed.toNat).sum

/-- The gas of messages, split in two. -/
theorem totalGasUsed_split (results : List (Response × List Event)) (n : ℕ) :
    totalGasUsed results = totalGasUsed (results.take n) + totalGasUsed (results.drop n) := by
  unfold totalGasUsed
  rw [← List.sum_append, ← List.map_append, List.take_append_drop]

/-- No transaction up to an executed one found the block full, if none before it did. -/
theorem ReportedBlock.counted_to_executed (b : ReportedBlock json) {k : ℕ} {tx : BlockResult}
    (htx : b.txs[k]? = some tx) (hcode : tx.result.code = 0)
    (hfull : ∀ j < k, ∀ tx, b.txs[j]? = some tx → shouldIgnoreGasUsed tx.result = false) :
    ∀ res ∈ (b.txs.take (k + 1)).map BlockResult.result, (!shouldIgnoreGasUsed res) = true := by
  intro res hres
  obtain ⟨tx', hmem, rfl⟩ := List.mem_map.mp hres
  rw [List.take_add_one, htx, List.mem_append] at hmem
  rcases hmem with hbefore | hlast
  · obtain ⟨j, hj, hget⟩ := List.mem_take_iff_getElem.mp hbefore
    rw [hfull j (by omega) tx' (hget ▸ List.getElem?_eq_getElem _)]
    rfl
  · obtain rfl : tx' = tx := by simpa using hlast
    simp [shouldIgnoreGasUsed, hcode]

end blocks

/-! ## A block of two transactions -/

/-- The results of a block that was delivered, with what the meter reads. -/
def meteredBlock [Keccak] (json : LogJson) (app : App) (sdk : Sdk) (bs : List BlockTx) (st : Store) :
    List BlockResult :=
  (meterReadings app json sdk bs st).zipWith
    (fun gas tx => { tx with result := { tx.result with gasUsed := gas.toNat } }) (deliveredBlock json app sdk bs st)

/-- The gas of a result says nothing about how the transaction ended. -/
theorem Reports.setGasUsed {e : Ended} {tx : BlockResult} (h : Reports e tx) (gas : ℤ) :
    Reports e { tx with result := { tx.result with gasUsed := gas } } := by
  cases e with
  | cosmos msgs results => exact h
  | ethereum e => cases e <;> exact h

/-- The meter is read, and a result reported, for every transaction of a block. -/
theorem meteredBlock_spec [Keccak] (json : LogJson) (app : App) (sdk : Sdk) (bs : List BlockTx) (st : Store) :
    List.Forall₂ Reports ((deliverBlock app json sdk bs st).1.map Ended.ethereum) (meteredBlock json app sdk bs st) ∧
      List.Forall₂ (fun gas tx => tx.result.gasUsed = gas.toNat) (meterReadings app json sdk bs st)
        (meteredBlock json app sdk bs st) := by
  induction bs generalizing st with
  | nil => exact ⟨.nil, .nil⟩
  | cons b bs ih =>
      obtain ⟨hreports, hmeter⟩ := ih (deliverTx app json sdk b st).2
      have hfirst := reports_of_delivered json (deliverTx_delivered app json sdk b st)
      exact ⟨.cons (hfirst.setGasUsed _) hreports, .cons rfl hmeter⟩

/-- A message that carries its hash. -/
def hashedMsg (nonce : UInt64) : MsgEthereumTx :=
  ⟨legacyTx nonce (some (.ofNat 20 2)), none, hashHex (.ofNat 32 (1000 + nonce.toNat))⟩

/-- A transaction of one such message, for which the SDK metered some gas before the message. -/
def hashedBlockTx (nonce : UInt64) (fate : Fate) : BlockTx where
  ctx := { sampleContext with meteredGas := 21000 }
  tx := { ethCosmosTx [] 900000 100000 with msgs := [.ethereumTx (hashedMsg nonce)] }
  txHash := none
  fate := fate

/-- One transaction that is executed, and one that exceeds the gas limit of the block. -/
def limitBlock : List BlockTx := [hashedBlockTx 3 .completes, hashedBlockTx 4 (.aborts 1 .blockGas)]

section limit

variable [Keccak]

/-- An application in which the hash of a transaction shows its nonce. -/
def hashedApp : App :=
  { sampleApp (.ofNat 20 1) transferCall transferCall with
    geth := { sampleGeth (.ofNat 20 1) transferCall transferCall with
      txHash := fun tx => .ofNat 32 (1000 + tx.getNonce.toNat) } }

/-- How the transactions end. -/
def limitEnds (json : LogJson) : List TxEnd := (deliverBlock hashedApp json sampleSdk limitBlock threeTxStore).1

/-- Their results. -/
def limitTxs (json : LogJson) : List BlockResult := meteredBlock json hashedApp sampleSdk limitBlock threeTxStore

/-- A node that has only this block, at height 7. -/
def limitServer (json : LogJson) : EthServer where
  client :=
    { txSearch hash := .ok (foundByHash 7 hash (limitTxs json))
      block _ := .ok (some ⟨7, [], (limitTxs json).map fun tx => some tx.msgs⟩)
      blockByHash _ := .ok none
      blockNumber := .ok 7 }
  blockResults _ := .ok ((limitTxs json).map BlockResult.result)
  getSender _ := .ok (.ofNat 20 1)
  baseFee _ := .ok none
  createAddress _ _ := .ofNat 20 9
  json := json

end limit

/-- The first transaction was executed and used 50000, and the second was announced with the index 1. -/
def endsAtLimit : List TxEnd → Bool
  | [.executed _ [(res, _)], .aborted .blockGas out] =>
      res = ⟨.ofNat 32 1003, [], [], "", 50000⟩ ∧ out.hashes = [(hashHex (.ofNat 32 1004), 1)] ∧
        out.msgs.map (fun eth => eth.data.getGas.toNat) = [100000]
  | _ => false

/-- What the evaluation of the sample block shows. -/
theorem exists_of_endsAtLimit {ends : List TxEnd} (h : endsAtLimit ends = true) :
    ∃ out events out', ends = [.executed out [(⟨.ofNat 32 1003, [], [], "", 50000⟩, events)], .aborted .blockGas out'] ∧
      out'.hashes = [(hashHex (.ofNat 32 1004), 1)] ∧ out'.msgs.map (fun eth => eth.data.getGas.toNat) = [100000] := by
  unfold endsAtLimit at h
  split at h
  · obtain ⟨rfl, hhashes, hlimits⟩ := of_decide_eq_true h
    exact ⟨_, _, _, rfl, hhashes, hlimits⟩
  · exact absurd h (by simp)

/-- The gas of the message that was executed. -/
theorem totalGasUsed_limit (events : List Event) :
    totalGasUsed [(⟨.ofNat 32 1003, [], [], "", 50000⟩, events)] = 50000 := by
  show (50000 : UInt64).toNat + 0 = 50000
  decide

/-- **The block is reported as it was delivered, honest, and served.** -/
theorem limit_served :
    letI := sampleKeccak
    let json := sampleJson []
    ∃ b : ReportedBlock json, b.ends = (limitEnds json).map Ended.ethereum ∧ b.txs = limitTxs json ∧
      b.HonestHashes ∧ b.ServedBy (limitServer json) 7 [] := by
  let _ := sampleKeccak
  intro json
  obtain ⟨out, events, out', hends, hhashes, hlimits⟩ :=
    exists_of_endsAtLimit (by decide +kernel : endsAtLimit (limitEnds json) = true)
  obtain ⟨hreports, hmeter⟩ := meteredBlock_spec json hashedApp sampleSdk limitBlock threeTxStore
  have hfates : FatesEnd limitBlock := by simp [FatesEnd, limitBlock, hashedBlockTx]
  have hsums : ∀ reason aborted, .aborted reason aborted ∈ limitEnds json →
      (aborted.msgs.map fun eth => eth.data.getGas.toNat).sum < 2 ^ 63 := by
    intro reason aborted hmem
    rw [hends] at hmem
    rcases List.mem_pair.mp hmem with heq | heq
    · cases heq
    · cases heq
      rw [hlimits]
      decide
  have hcarry : ∀ tx ∈ limitBlock, ∀ eth, .ethereumTx eth ∈ tx.tx.msgs →
      eth.hash = hashHex (hashedApp.geth.txHash eth.data) := by
    intro tx htx eth heth
    rcases List.mem_pair.mp htx with rfl | rfl
    · cases List.mem_singleton.mp heth
      decide +kernel
    · cases List.mem_singleton.mp heth
      decide +kernel
  obtain ⟨b, hb, htxs⟩ : ∃ b : ReportedBlock json, b.ends = (limitEnds json).map Ended.ethereum ∧ b.txs = limitTxs json :=
    deliverBlock_reported (App.hooksKeepGasUsed_of_none rfl) (by decide) hfates rfl hreports hmeter (by decide +kernel)
      hsums (by decide +kernel)
  refine ⟨b, hb, htxs, ⟨?_, ?_⟩, ⟨?_, ?_, ?_, ?_, ?_⟩⟩
  · rw [hb]
    exact deliverBlock_honest hcarry threeTxStore
  · rw [hb]
    decide +kernel
  · rw [htxs]
    exact fun _ _ => rfl
  · rw [htxs]
    rfl
  · rw [htxs]
    rfl
  · intro tx htx eth heth
    refine ⟨⟨_, rfl⟩, none, ?_⟩
    have hmsgs : ∀ tx ∈ limitTxs json, ∃ nonce, tx.msgs = [.ethereumTx (hashedMsg nonce)] := by
      intro tx htx
      rcases List.mem_pair.mp (show tx ∈ [_, _] from htx) with rfl | rfl
      · exact ⟨3, rfl⟩
      · exact ⟨4, rfl⟩
    obtain ⟨nonce, hmsg⟩ := hmsgs tx (htxs ▸ htx)
    rw [hmsg] at heth
    cases List.mem_singleton.mp heth
    rfl
  · intro e he
    rw [hb, hends] at he
    rcases List.mem_pair.mp he with rfl | rfl
    · intro r hr log hlog
      cases List.mem_singleton.mp hr
      cases hlog
    · trivial

/-! ## The receipts of a block -/

section main

variable [Keccak] {json : LogJson} {server : EthServer} {b : ReportedBlock json} {height : ℤ} {blockHash : Bytes}

/-- **The receipts of a block.** Take a block with the results of its transactions, whose messages were announced
under their hashes, each once, and a node that serves it. The receipt of a message that was executed shows its
execution. That of a message of a transaction that exceeded the gas limit of the block shows a failure that used the
gas limit. Both are numbered by the messages executed before, and count the gas of the results before and of the
messages up to their own. -/
theorem receipts_of_block (hhashes : b.HonestHashes) (hserved : b.ServedBy server height blockHash) (k : ℕ)
    (out : EthAnte) :
    (∀ results, b.ends[k]? = some (.ethereum (.executed out results)) →
      ∀ i res events, results[i]? = some (res, events) → ∃ tx eth receipt, b.txs[k]? = some tx ∧
        tx.msgs[i]? = some (.ethereumTx eth) ∧ server.getTransactionReceipt res.hash = .ok (some receipt) ∧
        receipt.IsFor server height blockHash eth res.hash ∧
        receipt.Tells (!res.failed) res.gasUsed res.logs (b.firstIndex k + i)
          (b.gasBefore k + totalGasUsed (results.take (i + 1)))) ∧
    (b.ends[k]? = some (.ethereum (.aborted .blockGas out)) →
      ∀ i hash index, out.hashes[i]? = some (hashHex hash, index) → ∃ tx eth receipt, b.txs[k]? = some tx ∧
        tx.msgs[i]? = some (.ethereumTx eth) ∧ server.getTransactionReceipt hash = .ok (some receipt) ∧
        receipt.IsFor server height blockHash eth hash ∧
        receipt.Tells false eth.data.getGas [] (b.firstIndex k + i)
          (b.gasBefore k + ((out.msgs.take (i + 1)).map fun eth => eth.data.getGas.toNat).sum)) :=
  ⟨fun _ hk _ _ _ hi => receipt_executed hhashes hserved hk hi,
    fun hk _ _ _ hi => receipt_exceeded hhashes hserved hk hi⟩

end main

/-- The receipt of the message that was executed, and of the one that exceeded the gas limit of the block, although
the result says that it used 21000. -/
theorem receipts_of_block_limit :
    letI := sampleKeccak
    ∃ receipt receipt', (limitServer (sampleJson [])).getTransactionReceipt (.ofNat 32 1003) = .ok (some receipt) ∧
      receipt.Tells true 50000 [] 0 50000 ∧
      (limitServer (sampleJson [])).getTransactionReceipt (.ofNat 32 1004) = .ok (some receipt') ∧
      receipt'.Tells false 100000 [] 1 150000 := by
  let _ := sampleKeccak
  obtain ⟨out, events, out', hends, hhashes, hlimits⟩ :=
    exists_of_endsAtLimit (by decide +kernel : endsAtLimit (limitEnds (sampleJson [])) = true)
  obtain ⟨b, hb, htxs, hhonest, hserved⟩ := limit_served
  have hindex : b.firstIndex 1 + 0 = 1 := by
    unfold ReportedBlock.firstIndex
    rw [hb]
    decide +kernel
  have hgas : b.gasBefore 0 = 0 ∧ b.gasBefore 1 = 50000 := by
    unfold ReportedBlock.gasBefore
    rw [htxs]
    decide +kernel
  rw [hends] at hb
  obtain ⟨-, -, receipt, -, -, hreceipt, -, htells⟩ :=
    (receipts_of_block hhonest hserved 0 out).1 _ (by rw [hb]; rfl) 0 _ _ rfl
  obtain ⟨tx, eth, receipt', htx, heth, hreceipt', -, htells'⟩ :=
    (receipts_of_block hhonest hserved 1 out').2 (by rw [hb]; rfl) 0 (.ofNat 32 1004) 1 (by rw [hhashes]; rfl)
  rw [htxs] at htx
  cases htx
  cases heth
  rw [List.take_succ_cons, List.take_zero, totalGasUsed_limit, hgas.1] at htells
  rw [hindex, hgas.2, List.map_take, hlimits] at htells'
  exact ⟨receipt, receipt', hreceipt, htells, hreceipt', htells'⟩

section main

variable [Keccak] {json : LogJson} {server : EthServer} {b : ReportedBlock json} {height : ℤ} {blockHash : Bytes}

/-- **The cumulative gas of the receipts adds up**, each being the gas of the messages of the transactions executed so
far, if and only if no other transaction before an executed message used gas. -/
theorem cumulative_exact_iff (hhashes : b.HonestHashes) (hserved : b.ServedBy server height blockHash) :
    (∀ k out results, b.ends[k]? = some (.ethereum (.executed out results)) →
      ∀ i res events, results[i]? = some (res, events) →
        ∃ receipt, server.getTransactionReceipt res.hash = .ok (some receipt) ∧
          receipt.cumulativeGasUsed.toNat =
            ((b.ends.take k).map Ended.executedGas).sum + totalGasUsed (results.take (i + 1))) ↔
      ∀ (k : ℕ) (out : EthAnte) (results : List (Response × List Event)),
        b.ends[k]? = some (.ethereum (.executed out results)) → results ≠ [] → ∀ j < k,
          ∀ e tx, b.ends[j]? = some e → b.txs[j]? = some tx → ¬e.IsExecuted → tx.result.gasUsed = 0 := by
  constructor
  · intro h k out results hk hne
    obtain ⟨⟨res, events⟩, results', rfl⟩ := List.exists_cons_of_ne_nil hne
    obtain ⟨-, -, receipt, -, -, hreceipt, -, htells⟩ := receipt_executed hhashes hserved hk (i := 0) rfl
    obtain ⟨receipt', hreceipt', hsum⟩ := h k out _ hk 0 res events rfl
    rw [hreceipt] at hreceipt'
    cases hreceipt'
    have hcumulative := htells.cumulativeGasUsed
    exact (ReportedBlock.gasBefore_eq_iff k).mp (by omega)
  · intro h k out results hk i res events hi
    obtain ⟨-, -, receipt, -, -, hreceipt, -, htells⟩ := receipt_executed hhashes hserved hk hi
    refine ⟨receipt, hreceipt, ?_⟩
    rw [htells.cumulativeGasUsed,
      (ReportedBlock.gasBefore_eq_iff k).mpr (h k out results hk (List.ne_nil_of_mem (List.mem_of_getElem? hi)))]

end main

/-- Nothing is before the message that was executed, so that its receipt counts its own gas alone. -/
theorem cumulative_exact_limit :
    letI := sampleKeccak
    ∃ receipt, (limitServer (sampleJson [])).getTransactionReceipt (.ofNat 32 1003) = .ok (some receipt) ∧
      receipt.cumulativeGasUsed.toNat = 50000 := by
  let _ := sampleKeccak
  obtain ⟨out, events, out', hends, -, -⟩ :=
    exists_of_endsAtLimit (by decide +kernel : endsAtLimit (limitEnds (sampleJson [])) = true)
  obtain ⟨b, hb, -, hhonest, hserved⟩ := limit_served
  rw [hends] at hb
  -- The only transaction that was executed is the first.
  have hfirst : ∀ (k : ℕ) (out : EthAnte) (results : List (Response × List Event)),
      b.ends[k]? = some (.ethereum (.executed out results)) → k = 0 := by
    intro k _ _ hk
    rw [hb] at hk
    rcases k with _ | _ | k
    · rfl
    · cases hk
    · cases hk
  obtain ⟨receipt, hreceipt, hsum⟩ := (cumulative_exact_iff hhonest hserved).mpr
    (fun k out results hk _ j hj => absurd hj (by rw [hfirst k out results hk]; exact Nat.not_lt_zero j))
    0 out _ (by rw [hb]; rfl) 0 _ _ rfl
  rw [List.take_zero, List.take_succ_cons, List.take_zero, totalGasUsed_limit, List.map_nil, List.sum_nil,
    Nat.zero_add] at hsum
  exact ⟨receipt, hreceipt, hsum⟩

section main

variable [Keccak] {json : LogJson} {server : EthServer} {b : ReportedBlock json} {height : ℤ} {blockHash : Bytes}

/-- **The gas of the block and the receipts.** If no transaction before a message that was executed found the block
full, the gas that `eth_getBlockByNumber` shows is that up to the message, as its receipt counts it, with that of the
messages after it in its transaction, and that of the transactions after, up to one that found the block full. -/
theorem blockGasUsed_splits (hhashes : b.HonestHashes) (hserved : b.ServedBy server height blockHash) {k : ℕ}
    {out : EthAnte} {results : List (Response × List Event)}
    (hk : b.ends[k]? = some (.ethereum (.executed out results)))
    (hfull : ∀ j < k, ∀ tx, b.txs[j]? = some tx → shouldIgnoreGasUsed tx.result = false) {i : ℕ} {res : Response}
    {events : List Event} (hi : results[i]? = some (res, events)) :
    ∃ receipt, server.getTransactionReceipt res.hash = .ok (some receipt) ∧
      (blockGasUsed 0 (b.txs.map BlockResult.result)).toNat = receipt.cumulativeGasUsed.toNat +
        totalGasUsed (results.drop (i + 1)) + gasUntilFull ((b.txs.drop (k + 1)).map BlockResult.result) := by
  obtain ⟨tx, -, receipt, htx, -, hreceipt, -, htells⟩ := receipt_executed hhashes hserved hk hi
  refine ⟨receipt, hreceipt, ?_⟩
  obtain ⟨tx', htx', hreports, hreportsGas⟩ := ReportedBlock.result_of hk
  obtain rfl : tx = tx' := Option.some_injective _ (htx.symm.trans htx')
  have hgas : tx.result.gasUsed.toNat = totalGasUsed results := by
    rw [show tx.result.gasUsed = _ from hreportsGas, Int.toNat_natCast]
  have hsplit : b.txs.map BlockResult.result =
      (b.txs.take (k + 1)).map BlockResult.result ++ (b.txs.drop (k + 1)).map BlockResult.result := by
    rw [← List.map_append, List.take_append_drop]
  rw [blockGasUsed_eq, ReportedBlock.toNat_foldl_gasUsed (List.takeWhile_sublist _), hsplit,
    List.takeWhile_append_of_pos (b.counted_to_executed htx hreports.2.2 hfull), List.map_append, List.sum_append,
    List.map_map, htells.cumulativeGasUsed]
  have hbefore := ReportedBlock.gasBefore_add htx
  have hparts := totalGasUsed_split results (i + 1)
  show ((b.txs.take (k + 1)).map fun tx => tx.result.gasUsed.toNat).sum + gasUntilFull _ = _
  omega

end main

/-- The receipt of the message that was executed counts all of the gas before the second transaction. -/
theorem blockGasUsed_splits_limit :
    letI := sampleKeccak
    ∃ receipt, (limitServer (sampleJson [])).getTransactionReceipt (.ofNat 32 1003) = .ok (some receipt) ∧
      (blockGasUsed 0 ((limitTxs (sampleJson [])).map BlockResult.result)).toNat =
        receipt.cumulativeGasUsed.toNat + 0 + 21000 := by
  let _ := sampleKeccak
  have hrest : gasUntilFull (((limitTxs (sampleJson [])).drop 1).map BlockResult.result) = 21000 := by decide +kernel
  obtain ⟨out, events, out', hends, -, -⟩ :=
    exists_of_endsAtLimit (by decide +kernel : endsAtLimit (limitEnds (sampleJson [])) = true)
  obtain ⟨b, hb, htxs, hhonest, hserved⟩ := limit_served
  rw [hends] at hb
  obtain ⟨receipt, hreceipt, hgas⟩ :=
    blockGasUsed_splits hhonest hserved (k := 0) (by rw [hb]; rfl) (by omega) (i := 0) rfl
  rw [htxs] at hgas
  exact ⟨receipt, hreceipt, hgas.trans (congrArg (receipt.cumulativeGasUsed.toNat + 0 + ·) hrest)⟩

end Smartdoge.Rpc
