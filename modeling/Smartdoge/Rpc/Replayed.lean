import Smartdoge.Rpc.Debug
import Smartdoge.Rpc.Lookup

/-!
# What a trace replays

`GetEthereumMsgsFromTendermintBlock` lists the messages of a block that count: those of transactions that succeeded
or exceeded the gas limit of the block. A trace executes other messages before the traced one. `traceBlock` and
`TraceTransaction` do not look at the results, and take every Ethereum message of the block.

* `ethereumMsgsFrom_get`: what stands before a message of the list.
* `flatMap_kept_iff`: nothing is left out, if and only if what is left out is empty.
* **`replaysBlock_iff`**: traces replay the messages that count, if and only if no transaction that the block
  rejected has Ethereum messages, and in the others they stand before all other messages.
* `rejected_replayed`: a transaction that the block rejected, and that is replayed.
-/

set_option linter.unusedSectionVars false

namespace Smartdoge.Rpc

open Smartdoge.Lib
open Smartdoge.Lib.Writes
open Smartdoge.Statedb
open Smartdoge.Evm
open Smartdoge.Ante

/-! ## The list of the block -/

/-- `located` from an index on. -/
def locatedFrom (place : ℕ) : ℕ → List Msg → List Located
  | _, [] => []
  | i, .ethereumTx eth :: msgs => ⟨place, i, eth⟩ :: locatedFrom place (i + 1) msgs
  | i, .exec _ _ :: msgs => locatedFrom place (i + 1) msgs
  | i, .other _ _ :: msgs => locatedFrom place (i + 1) msgs

/-- The messages of a transaction, with their places. -/
theorem located_eq_locatedFrom (place : ℕ) (msgs : List Msg) : located place msgs = locatedFrom place 0 msgs := by
  unfold located
  generalize 0 = i
  induction msgs generalizing i with
  | nil => rfl
  | cons msg msgs ih =>
      rw [List.zipIdx_cons]
      cases msg with
      | ethereumTx eth =>
          rw [locatedFrom, ← ih (i + 1)]
          rfl
      | exec grantee inner =>
          rw [locatedFrom, ← ih (i + 1)]
          rfl
      | other url signers =>
          rw [locatedFrom, ← ih (i + 1)]
          rfl

/-- Without their places they are its Ethereum messages. -/
theorem locatedFrom_data (place i : ℕ) (msgs : List Msg) :
    (locatedFrom place i msgs).map (fun l => l.eth.data) = ethereumMsgs msgs := by
  induction msgs generalizing i with
  | nil => rfl
  | cons msg msgs ih =>
      cases msg with
      | ethereumTx eth => exact congrArg (eth.data :: ·) (ih (i + 1))
      | exec grantee inner => exact ih (i + 1)
      | other url signers => exact ih (i + 1)

/-- A message that is not an Ethereum message moves the others by one. -/
theorem getElem?_cons_shift {α : Type} {x : α} {xs : List α} {i j : ℕ} {y : α} (hle : i + 1 ≤ j)
    (h : xs[j - (i + 1)]? = some y) : (x :: xs)[j - i]? = some y ∧
      (x :: xs).take (j - i) = x :: xs.take (j - (i + 1)) := by
  have hnext : j - i = j - (i + 1) + 1 := by omega
  rw [hnext]
  exact ⟨by rw [List.getElem?_cons_succ, h], List.take_succ_cons⟩

/-- Each of them is where it says, after those at earlier places. -/
theorem locatedFrom_get {place i : ℕ} {msgs : List Msg} {k : ℕ} {l : Located}
    (h : (locatedFrom place i msgs)[k]? = some l) :
    l.tx = place ∧ i ≤ l.msg ∧ msgs[l.msg - i]? = some (.ethereumTx l.eth) ∧
      (locatedFrom place i msgs).take k = locatedFrom place i (msgs.take (l.msg - i)) := by
  induction msgs generalizing i k with
  | nil => simp [locatedFrom] at h
  | cons msg msgs ih =>
      cases msg with
      | ethereumTx eth =>
          cases k with
          | zero =>
              rw [locatedFrom, List.getElem?_cons_zero, Option.some_inj] at h
              subst h
              simp [locatedFrom]
          | succ k =>
              rw [locatedFrom, List.getElem?_cons_succ] at h
              obtain ⟨hplace, hle, hmsg, htake⟩ := ih h
              obtain ⟨hget, hbefore⟩ := getElem?_cons_shift (x := Msg.ethereumTx eth) hle hmsg
              refine ⟨hplace, by omega, hget, ?_⟩
              rw [hbefore, locatedFrom, locatedFrom, List.take_succ_cons, htake]
      | exec grantee inner =>
          obtain ⟨hplace, hle, hmsg, htake⟩ := ih h
          obtain ⟨hget, hbefore⟩ := getElem?_cons_shift (x := Msg.exec grantee inner) hle hmsg
          refine ⟨hplace, by omega, hget, ?_⟩
          rw [hbefore, locatedFrom, locatedFrom, htake]
      | other url signers =>
          obtain ⟨hplace, hle, hmsg, htake⟩ := ih h
          obtain ⟨hget, hbefore⟩ := getElem?_cons_shift (x := Msg.other url signers) hle hmsg
          refine ⟨hplace, by omega, hget, ?_⟩
          rw [hbefore, locatedFrom, locatedFrom, htake]

/-- Every Ethereum message of the transaction is one of them. -/
theorem mem_locatedFrom (place : ℕ) {i j : ℕ} {msgs : List Msg} {eth : MsgEthereumTx}
    (h : msgs[j]? = some (.ethereumTx eth)) : ⟨place, i + j, eth⟩ ∈ locatedFrom place i msgs := by
  induction msgs generalizing i j with
  | nil => simp at h
  | cons msg msgs ih =>
      cases j with
      | zero =>
          rw [List.getElem?_cons_zero, Option.some_inj] at h
          subst h
          exact List.mem_cons_self
      | succ j =>
          rw [List.getElem?_cons_succ] at h
          have hmem := ih (i := i + 1) h
          rw [Nat.add_right_comm, Nat.add_assoc] at hmem
          cases msg with
          | ethereumTx eth' => exact List.mem_cons_of_mem _ hmem
          | exec grantee inner => exact hmem
          | other url signers => exact hmem

/-- The block accepted the transaction. -/
abbrev BlockResult.Accepted (tx : BlockResult) : Prop := txSuccessOrExceedsBlockGasLimit tx.result = true

/-- Without their places, the messages of a block are those of its accepted transactions. -/
theorem ethereumMsgsFrom_data (place : ℕ) (block : List BlockResult) :
    (ethereumMsgsFrom place block).map (fun l => l.eth.data) =
      block.flatMap fun tx => if tx.Accepted then ethereumMsgs tx.msgs else [] := by
  induction block generalizing place with
  | nil => rfl
  | cons tx txs ih =>
      rw [ethereumMsgsFrom, List.map_append, ih, List.flatMap_cons]
      by_cases haccepted : tx.Accepted
      · rw [if_pos haccepted, if_pos haccepted, located_eq_locatedFrom, locatedFrom_data]
      · rw [if_neg haccepted, if_neg haccepted, List.map_nil]

/-- **What stands before a message of the list**: the messages of the transactions before, and those before it in
its own transaction. -/
theorem ethereumMsgsFrom_get {place : ℕ} {block : List BlockResult} {k : ℕ} {l : Located}
    (h : (ethereumMsgsFrom place block)[k]? = some l) :
    place ≤ l.tx ∧ ∃ tx, block[l.tx - place]? = some tx ∧ tx.Accepted ∧
      tx.msgs[l.msg]? = some (.ethereumTx l.eth) ∧
      (ethereumMsgsFrom place block).take k =
        ethereumMsgsFrom place (block.take (l.tx - place)) ++ locatedFrom l.tx 0 (tx.msgs.take l.msg) := by
  induction block generalizing place k with
  | nil => simp [ethereumMsgsFrom] at h
  | cons tx txs ih =>
      rw [ethereumMsgsFrom, located_eq_locatedFrom] at h ⊢
      generalize hhere : (if txSuccessOrExceedsBlockGasLimit tx.result = true then locatedFrom place 0 tx.msgs
        else []) = here at h ⊢
      by_cases hk : k < here.length
      · rw [List.getElem?_append_left hk] at h
        have haccepted : tx.Accepted := by
          by_contra hnot
          rw [if_neg hnot] at hhere
          rw [← hhere] at hk
          exact absurd hk (Nat.not_lt_zero k)
        rw [if_pos haccepted] at hhere
        rw [← hhere] at h
        obtain ⟨hplace, -, hmsg, htake⟩ := locatedFrom_get h
        rw [Nat.sub_zero] at hmsg htake
        have hzero : l.tx - place = 0 := by omega
        refine ⟨by omega, tx, by rw [hzero]; rfl, haccepted, hmsg, ?_⟩
        rw [List.take_append_of_le_length (Nat.le_of_lt hk), ← hhere, htake, hzero, hplace]
        rfl
      · rw [not_lt] at hk
        rw [List.getElem?_append_right hk] at h
        obtain ⟨hle, tx', htx', haccepted, hmsg, htake⟩ := ih h
        obtain ⟨hget, hbefore⟩ := getElem?_cons_shift (x := tx) hle htx'
        refine ⟨by omega, tx', hget, haccepted, hmsg, ?_⟩
        rw [List.take_append, List.take_of_length_le hk, htake, hbefore, ethereumMsgsFrom, located_eq_locatedFrom,
          hhere, List.append_assoc]

/-- Every Ethereum message of an accepted transaction is one of them. -/
theorem mem_ethereumMsgsFrom {place : ℕ} {block : List BlockResult} {p i : ℕ} {tx : BlockResult}
    {eth : MsgEthereumTx} (htx : block[p]? = some tx) (haccepted : tx.Accepted)
    (hmsg : tx.msgs[i]? = some (.ethereumTx eth)) : ⟨place + p, i, eth⟩ ∈ ethereumMsgsFrom place block := by
  induction block generalizing place p with
  | nil => simp at htx
  | cons first txs ih =>
      rw [ethereumMsgsFrom, List.mem_append]
      cases p with
      | zero =>
          rw [List.getElem?_cons_zero, Option.some_inj] at htx
          subst htx
          left
          rw [if_pos haccepted, located_eq_locatedFrom]
          have hmem := mem_locatedFrom place (i := 0) hmsg
          rw [Nat.zero_add] at hmem
          exact hmem
      | succ p =>
          rw [List.getElem?_cons_succ] at htx
          right
          have hmem : ⟨place + 1 + p, i, eth⟩ ∈ ethereumMsgsFrom (place + 1) txs := ih htx
          rw [Nat.add_right_comm, Nat.add_assoc] at hmem
          exact hmem

/-! ## Requests -/

section requests

variable (height : ℤ) (hash : Bytes) (block : List BlockResult)

/-- The block as Tendermint returns it. -/
def resultBlock : ResultBlock := ⟨height, hash, block.map fun tx => some tx.msgs⟩

/-- A transaction of the block as Tendermint returns it. -/
def BlockResult.resultTx (tx : BlockResult) (place : ℕ) : ResultTx := ⟨height, place, tx.result, some tx.msgs⟩

/-- The `MsgIndex` of a message that is parsed from the events: they number the Ethereum messages of the
transaction. -/
def BlockResult.msgIndex (tx : BlockResult) (i : ℕ) : ℕ := (ethereumMsgs (tx.msgs.take i)).length

/-- **Traces replay the messages that count**: `TraceBlock` is asked for the list of the block, and `TraceTx` for a
message of that list with those before it. -/
structure ReplaysBlock (config : Option TraceConfig) : Prop where
  traceBlock : ∀ height' req, traceBlockRequest height config (resultBlock height hash block) = some (height', req) →
    req.txs = (getEthereumMsgsFromTendermintBlock block).map fun l => l.eth.data
  traceTransaction : ∀ k l tx, (getEthereumMsgsFromTendermintBlock block)[k]? = some l → block[l.tx]? = some tx →
    ∃ req, (tx.resultTx height l.tx).request (resultBlock height hash block) (tx.msgIndex l.msg) config = .ok req ∧
      req.msg = l.eth.data ∧
      req.predecessors = ((getEthereumMsgsFromTendermintBlock block).take k).map fun l => l.eth.data

end requests

/-- The Ethereum messages of a transaction stand before all other messages. -/
def EthereumFirst (msgs : List Msg) : Prop :=
  ∀ (i : ℕ) (eth : MsgEthereumTx), msgs[i]? = some (.ethereumTx eth) →
    ∀ j < i, ∃ eth' : MsgEthereumTx, msgs[j]? = some (.ethereumTx eth')

/-- Nothing is left out, if and only if what is left out is empty. -/
theorem flatMap_kept_iff {α β : Type} {p : α → Prop} [DecidablePred p] {f : α → List β} {xs : List α} :
    xs.flatMap f = xs.flatMap (fun x => if p x then f x else []) ↔ ∀ x ∈ xs, ¬p x → f x = [] := by
  have hshorter : ∀ ys : List α, (ys.flatMap fun x => if p x then f x else []).length ≤ (ys.flatMap f).length := by
    intro ys
    induction ys with
    | nil => exact le_refl _
    | cons y ys ih =>
        rw [List.flatMap_cons, List.flatMap_cons, List.length_append, List.length_append]
        split_ifs
        · omega
        · rw [List.length_nil]
          omega
  induction xs with
  | nil => simp
  | cons x xs ih =>
      rw [List.flatMap_cons, List.flatMap_cons, List.forall_mem_cons]
      refine Iff.trans ?_ (and_congr_right' ih)
      by_cases hx : p x
      · rw [if_pos hx, List.append_cancel_left_eq]
        exact (and_iff_right fun hnot => absurd hx hnot).symm
      · rw [if_neg hx, List.nil_append]
        constructor
        · intro h
          have hlength := congrArg List.length h
          rw [List.length_append] at hlength
          have hempty : (f x).length = 0 := by
            have hle := hshorter xs
            omega
          rw [List.length_eq_zero_iff] at hempty
          rw [hempty, List.nil_append] at h
          exact ⟨fun _ => hempty, h⟩
        · rintro ⟨hempty, h⟩
          rw [hempty hx, List.nil_append, h]

/-- A block that is traced has the messages of all its transactions. -/
theorem decodedMsgs_block (block : List BlockResult) :
    decodedMsgs (block.map fun tx => some tx.msgs) = block.flatMap fun tx => ethereumMsgs tx.msgs := by
  unfold decodedMsgs
  rw [List.flatMap_map]

/-- There are no more Ethereum messages than messages. -/
theorem ethereumMsgs_length_le (msgs : List Msg) : (ethereumMsgs msgs).length ≤ msgs.length :=
  List.length_filterMap_le _ _

/-- As many Ethereum messages as messages: there are no others. -/
theorem ethereumMsgs_full {msgs : List Msg} (h : (ethereumMsgs msgs).length = msgs.length) :
    ∀ msg ∈ msgs, ∃ eth : MsgEthereumTx, msg = .ethereumTx eth := by
  induction msgs with
  | nil => simp
  | cons msg msgs ih =>
      have hle := ethereumMsgs_length_le msgs
      cases msg with
      | ethereumTx eth =>
          have hrest : (ethereumMsgs msgs).length = msgs.length := Nat.succ.inj h
          exact List.forall_mem_cons.mpr ⟨⟨eth, rfl⟩, ih hrest⟩
      | exec grantee inner =>
          have hskip : (ethereumMsgs msgs).length = msgs.length + 1 := h
          omega
      | other url signers =>
          have hskip : (ethereumMsgs msgs).length = msgs.length + 1 := h
          omega

/-- There are as many, if all messages are. -/
theorem ethereumMsgs_all {msgs : List Msg} (h : ∀ msg ∈ msgs, ∃ eth : MsgEthereumTx, msg = .ethereumTx eth) :
    (ethereumMsgs msgs).length = msgs.length := by
  induction msgs with
  | nil => rfl
  | cons msg msgs ih =>
      obtain ⟨⟨eth, rfl⟩, hrest⟩ := List.forall_mem_cons.mp h
      exact congrArg (· + 1) (ih hrest)

/-- Where the Ethereum messages stand first, the events number them as the transaction does. -/
theorem msgIndex_of_ethereumFirst {tx : BlockResult} (h : EthereumFirst tx.msgs) {i : ℕ} {eth : MsgEthereumTx}
    (hmsg : tx.msgs[i]? = some (.ethereumTx eth)) : tx.msgIndex i = i := by
  have hi : i < tx.msgs.length := (List.getElem?_eq_some_iff.mp hmsg).1
  have hall : ∀ msg ∈ tx.msgs.take i, ∃ eth' : MsgEthereumTx, msg = .ethereumTx eth' := by
    intro msg hmem
    obtain ⟨j, hj⟩ := List.mem_iff_getElem?.mp hmem
    rw [List.getElem?_take] at hj
    split_ifs at hj with hlt
    obtain ⟨eth', heth'⟩ := h i eth hmsg j hlt
    rw [heth', Option.some_inj] at hj
    exact ⟨eth', hj.symm⟩
  unfold BlockResult.msgIndex
  rw [ethereumMsgs_all hall, List.length_take_of_le (Nat.le_of_lt hi)]

section agreement

variable {height : ℤ} {hash : Bytes} {block : List BlockResult}

/-- A transaction of the block passes the check of its index. -/
theorem request_eq (hsmall : block.length < 2 ^ 32) {p : ℕ} {tx : BlockResult} (htx : block[p]? = some tx)
    {i : ℕ} {eth : MsgEthereumTx} (hmsg : tx.msgs[i]? = some (.ethereumTx eth)) (config : Option TraceConfig) :
    (tx.resultTx height p).request (resultBlock height hash block) i config = .ok
      { msg := eth.data
        predecessors := decodedMsgs ((block.take p).map fun tx => some tx.msgs) ++ ethereumMsgs (tx.msgs.take i)
        traceConfig := config
        blockNumber := height
        blockHash := bytes2Hex hash } := by
  have hp : p < block.length := (List.getElem?_eq_some_iff.mp htx).1
  have hindex : ¬(resultBlock height hash block).txs.length % 2 ^ 32 < (tx.resultTx height p).index := by
    show ¬(block.map fun tx => some tx.msgs).length % 2 ^ 32 < p
    rw [List.length_map, Nat.mod_eq_of_lt hsmall]
    omega
  unfold ResultTx.request
  rw [if_neg hindex]
  simp only [BlockResult.resultTx, resultBlock, goIndex_ok_iff.mpr hmsg, List.map_take]

/-- The predecessors in the list, where no message is left out before the transaction. -/
theorem predecessors_eq (hrejected : ∀ tx ∈ block, ¬tx.Accepted → ethereumMsgs tx.msgs = []) {k : ℕ} {l : Located}
    (h : (getEthereumMsgsFromTendermintBlock block)[k]? = some l) {tx : BlockResult} (htx : block[l.tx]? = some tx) :
    ((getEthereumMsgsFromTendermintBlock block).take k).map (fun l => l.eth.data) =
      decodedMsgs ((block.take l.tx).map fun tx => some tx.msgs) ++ ethereumMsgs (tx.msgs.take l.msg) := by
  obtain ⟨-, tx', htx', -, -, htake⟩ := ethereumMsgsFrom_get h
  rw [Nat.sub_zero] at htx' htake
  obtain rfl : tx = tx' := Option.some_inj.mp (htx.symm.trans htx')
  have hkept := (flatMap_kept_iff (p := BlockResult.Accepted) (f := fun tx => ethereumMsgs tx.msgs)).mpr
    fun tx (hmem : tx ∈ block.take l.tx) => hrejected tx (List.mem_of_mem_take hmem)
  unfold getEthereumMsgsFromTendermintBlock
  rw [htake, List.map_append, ethereumMsgsFrom_data, locatedFrom_data, decodedMsgs_block, hkept]

/-- **A block is traced with the messages that were executed**, if and only if the transactions that were not accepted
have no Ethereum messages. -/
theorem traceBlock_iff (config : Option TraceConfig) :
    (∀ height' req, traceBlockRequest height config (resultBlock height hash block) = some (height', req) →
      req.txs = (getEthereumMsgsFromTendermintBlock block).map fun l => l.eth.data) ↔
    ∀ tx ∈ block, ¬tx.Accepted → ethereumMsgs tx.msgs = [] := by
  unfold getEthereumMsgsFromTendermintBlock
  rw [ethereumMsgsFrom_data, ← flatMap_kept_iff, ← decodedMsgs_block]
  constructor
  · intro h
    cases hblock : block with
    | nil => rfl
    | cons tx txs =>
        have hrequest : traceBlockRequest height config (resultBlock height hash block) = some (contextHeight height,
            ⟨decodedMsgs (block.map fun tx => some tx.msgs), config, height, bytes2Hex hash⟩) := by
          unfold traceBlockRequest
          rw [if_neg (by simp [resultBlock, hblock])]
          rfl
        rw [← hblock]
        exact h _ _ hrequest
  · intro h height' req hrequest
    rw [traceBlockRequest_eq hrequest]
    exact h

/-- **Traces replay the messages that count**, if and only if no transaction that the block rejected has Ethereum
messages, and in the others they stand before all other messages. The index of a transaction is a `uint32`; a block
has fewer than `2 ^ 32` transactions. -/
theorem replaysBlock_iff (height : ℤ) (hash : Bytes) (block : List BlockResult) (config : Option TraceConfig)
    (hsmall : block.length < 2 ^ 32) :
    ReplaysBlock height hash block config ↔
      (∀ tx ∈ block, ¬tx.Accepted → ethereumMsgs tx.msgs = []) ∧
        ∀ tx ∈ block, tx.Accepted → EthereumFirst tx.msgs := by
  constructor
  · rintro ⟨hblock, htransaction⟩
    have hrejected := (traceBlock_iff config).mp hblock
    refine ⟨hrejected, ?_⟩
    intro tx hmem haccepted i eth hmsg j hj
    obtain ⟨p, hp⟩ := List.mem_iff_getElem?.mp hmem
    have hlisted : ⟨0 + p, i, eth⟩ ∈ ethereumMsgsFrom 0 block := mem_ethereumMsgsFrom hp haccepted hmsg
    rw [Nat.zero_add] at hlisted
    obtain ⟨k, hk⟩ := List.mem_iff_getElem?.mp hlisted
    obtain ⟨req, hreq, -, hpredecessors⟩ := htransaction k ⟨p, i, eth⟩ tx hk hp
    obtain ⟨-, msgs, eth', hmsgs, hread, -, hcollected⟩ := ResultTx.request_ok hreq
    obtain rfl : tx.msgs = msgs := Option.some_inj.mp hmsgs
    rw [predecessors_eq hrejected hk hp, hcollected] at hpredecessors
    -- The messages before the one that was read are as many as their place says.
    have hsame : ethereumMsgs (tx.msgs.take (tx.msgIndex i)) = ethereumMsgs (tx.msgs.take i) := by
      have htake : (resultBlock height hash block).txs.take (tx.resultTx height p).index =
          (block.take p).map fun tx => some tx.msgs := List.map_take.symm
      rw [htake] at hpredecessors
      exact List.append_cancel_left hpredecessors
    have hi : i < tx.msgs.length := (List.getElem?_eq_some_iff.mp hmsg).1
    have hrank : tx.msgIndex i ≤ i := by
      have hle := ethereumMsgs_length_le (tx.msgs.take i)
      rw [List.length_take_of_le (Nat.le_of_lt hi)] at hle
      exact hle
    have hlength : (ethereumMsgs (tx.msgs.take (tx.msgIndex i))).length = tx.msgIndex i := by
      rw [hsame]
      rfl
    have hfull : ∀ msg ∈ tx.msgs.take (tx.msgIndex i), ∃ eth : MsgEthereumTx, msg = .ethereumTx eth := by
      apply ethereumMsgs_full
      rw [hlength, List.length_take_of_le (by omega)]
    have hplace : tx.msgIndex i = i := by
      by_contra hne
      have hlt : tx.msgIndex i < i := by omega
      -- The message that was read would be one more.
      have hkept : (tx.msgs.take i)[tx.msgIndex i]? = some (.ethereumTx eth') := by
        rw [List.getElem?_take, if_pos hlt, hread]
      have hsplit := ethereumMsgs_split hkept
      have hcount := congrArg List.length hsplit
      rw [List.length_append, List.length_cons, List.take_take, min_eq_left hrank, hlength] at hcount
      have hdef : (ethereumMsgs (tx.msgs.take i)).length = tx.msgIndex i := rfl
      omega
    rw [hplace] at hfull
    have hj' : j < tx.msgs.length := by omega
    obtain ⟨eth'', heth''⟩ := hfull tx.msgs[j] (List.mem_take_iff_getElem.mpr ⟨j, by omega, rfl⟩)
    exact ⟨eth'', by rw [List.getElem?_eq_getElem hj', heth'']⟩
  · rintro ⟨hrejected, hfirst⟩
    refine ⟨(traceBlock_iff config).mpr hrejected, ?_⟩
    intro k l tx hk htx
    obtain ⟨-, tx', htx', haccepted, hmsg, -⟩ := ethereumMsgsFrom_get hk
    rw [Nat.sub_zero] at htx'
    obtain rfl : tx = tx' := Option.some_inj.mp (htx.symm.trans htx')
    have hplace := msgIndex_of_ethereumFirst (hfirst tx (List.mem_of_getElem? htx) haccepted) hmsg
    rw [hplace]
    refine ⟨_, request_eq hsmall htx hmsg config, rfl, ?_⟩
    rw [predecessors_eq hrejected hk htx]

end agreement

/-! ## Concrete blocks -/

/-- A transaction with one Ethereum message, and its code in the block. -/
def ethereumResult (nonce : UInt64) (code : ℕ) : BlockResult where
  msgs := [.ethereumTx ⟨legacyTx nonce (some (.ofNat 20 2)), none, ""⟩]
  result := { code := code, events := [] }

/-- A transaction that the block rejected, before one that succeeded: the trace of the second executes the first. -/
theorem rejected_replayed :
    let block := [ethereumResult 3 5, ethereumResult 4 0]
    ((getEthereumMsgsFromTendermintBlock block).map fun l => l.eth.data) = [legacyTx 4 (some (.ofNat 20 2))] ∧
      (traceBlockRequest 11 none (resultBlock 11 [] block)).map (fun req => req.2.txs) =
        some [legacyTx 3 (some (.ofNat 20 2)), legacyTx 4 (some (.ofNat 20 2))] ∧
      (∃ req, ((ethereumResult 4 0).resultTx 11 1).request (resultBlock 11 [] block) 0 none = .ok req ∧
        req.predecessors = [legacyTx 3 (some (.ofNat 20 2))]) ∧
      ¬ReplaysBlock 11 [] block none := by
  intro block
  refine ⟨by decide +kernel, by decide +kernel, ⟨_, rfl, by decide +kernel⟩, ?_⟩
  rintro ⟨htraceBlock, -⟩
  have hempty := (traceBlock_iff none).mp htraceBlock (ethereumResult 3 5) List.mem_cons_self (by decide +kernel)
  cases hempty

/-- Two transactions that succeeded, and one without Ethereum messages that did not. -/
theorem replaysBlock_succeeded :
    let block := [ethereumResult 3 0, ⟨[.other "/cosmos.bank.v1beta1.MsgSend" []], { code := 5, events := [] }⟩,
      ethereumResult 4 0]
    (getEthereumMsgsFromTendermintBlock block).length = 2 ∧ ReplaysBlock 11 [] block none := by
  intro block
  have hfirst : ∀ nonce code, EthereumFirst (ethereumResult nonce code).msgs := by
    intro nonce code i eth hmsg j hj
    have hi : i < 1 := (List.getElem?_eq_some_iff.mp hmsg).1
    omega
  refine ⟨by decide +kernel, (replaysBlock_iff 11 [] block none (by decide)).mpr ⟨?_, ?_⟩⟩
  · intro tx hmem hnot
    rcases List.mem_cons.mp hmem with rfl | hmem
    · exact absurd (by decide +kernel) hnot
    rcases List.mem_cons.mp hmem with rfl | hmem
    · rfl
    rcases List.mem_singleton.mp hmem with rfl
    exact absurd (by decide +kernel) hnot
  · intro tx hmem haccepted
    rcases List.mem_cons.mp hmem with rfl | hmem
    · exact hfirst 3 0
    rcases List.mem_cons.mp hmem with rfl | hmem
    · exact absurd haccepted (by decide +kernel)
    rcases List.mem_singleton.mp hmem with rfl
    exact hfirst 4 0

end Smartdoge.Rpc
