import Smartdoge.Statedb.AccessList
import Smartdoge.Statedb.StateObject

/-!
# The journaled working state

`statedb/statedb.go` and `statedb/journal.go`: the `StateDB` that the EVM runs against, its
journal, snapshots and reverts. `Commit` is in `Commit.lean`.

Go objects are pointers that the object map shares with the journal. Here they are values: an
operation reads an object out of `stateObjects`, and stores what it did to the object back at the
object's address. The one object the journal holds (`resetObjectChange`) is out of the map for as
long as it is in the journal, so nothing can change it there.

`Op` lists the methods the EVM can call and `Op.run` runs one; `runOps` runs a list of them and is
the transition system every statement about reachable states quantifies over.
-/

set_option linter.unusedSectionVars false

namespace Smartdoge.Statedb

open Smartdoge.Lib

/-! ## Configuration and logs -/

/-- The read-only information about the current transaction.
Source: `config.go` `TxConfig` -/
structure TxConfig where
  blockHash : Hash
  txHash : Hash
  txIndex : ℕ
  logIndex : ℕ
deriving DecidableEq

/-- Source: `config.go` `NewEmptyTxConfig` -/
def TxConfig.newEmpty (bhash : Hash) : TxConfig := ⟨bhash, FixedBytes.zero 32, 0, 0⟩

/-- Source: go-ethereum `types.Log` -/
structure Log where
  address : Address
  topics : List Hash
  data : Bytes
  blockNumber : ℕ
  txHash : Hash
  txIndex : ℕ
  blockHash : Hash
  index : ℕ
  removed : Bool
deriving DecidableEq

/-! ## The journal -/

/-- A modification that can be reverted on demand.
Source: `journal.go`, the eleven `*Change` types -/
inductive JournalEntry where
  | createObjectChange (account : Address)
  | resetObjectChange (prev : StateObject)
  | suicideChange (account : Address) (prev : Bool) (prevbalance : ℤ)
  | balanceChange (account : Address) (prev : ℤ)
  | nonceChange (account : Address) (prev : UInt64)
  | storageChange (account : Address) (key prevalue : Hash)
  | codeChange (account : Address) (prevcode : Option Bytes) (prevhash : Hash)
  | refundChange (prev : UInt64)
  | addLogChange
  | accessListAddAccountChange (address : Address)
  | accessListAddSlotChange (address : Address) (slot : Hash)
deriving DecidableEq

/-- The address an entry marks dirty. A `resetObjectChange` marks none.
Source: `journal.go`, the `dirtied` methods -/
def JournalEntry.dirtied : JournalEntry → Option Address
  | .createObjectChange a => some a
  | .resetObjectChange _ => none
  | .suicideChange a _ _ => some a
  | .balanceChange a _ => some a
  | .nonceChange a _ => some a
  | .storageChange a _ _ => some a
  | .codeChange a _ _ => some a
  | .refundChange _ => none
  | .addLogChange => none
  | .accessListAddAccountChange _ => none
  | .accessListAddSlotChange _ _ => none

/-- Source: `journal.go` `journal` -/
structure Journal where
  /-- Current changes, oldest first. -/
  entries : List JournalEntry
  /-- Dirty accounts and the number of changes. -/
  dirties : GoMap Address ℤ
deriving DecidableEq

namespace Journal

/-- Source: `journal.go` `newJournal` -/
def new : Journal := ⟨[], GoMap.empty⟩

/-- Source: `journal.go` `sortedDirties` -/
def sortedDirties (j : Journal) : List Address := GoMap.sortedKeys FixedBytes.le j.dirties

/-- Source: `journal.go` `append` -/
def append (j : Journal) (entry : JournalEntry) : Journal where
  entries := j.entries ++ [entry]
  dirties :=
    match entry.dirtied with
    | some addr => j.dirties.set addr ((j.dirties.get addr).getD 0 + 1)
    | none => j.dirties

/-- Drop the dirty tracking induced by one entry.
Source: `journal.go` `revert`, the second half of the loop body -/
def dropDirty (j : Journal) (entry : JournalEntry) : Journal :=
  match entry.dirtied with
  | some addr =>
    let n := (j.dirties.get addr).getD 0 - 1
    if n = 0 then { j with dirties := j.dirties.delete addr }
    else { j with dirties := j.dirties.set addr n }
  | none => j

/-- Source: `journal.go` `length` -/
def length (j : Journal) : ℕ := j.entries.length

end Journal

/-! ## The working state -/

/-- The identifier of a version of the state.
Source: `statedb.go` `revision` -/
structure Revision where
  id : ℕ
  journalIndex : ℕ
deriving DecidableEq

/-- Source: `statedb.go` `StateDB` -/
structure StateDB (σ : Type) where
  keeper : Keeper σ
  ctx : σ
  journal : Journal
  validRevisions : List Revision
  nextRevisionID : ℕ
  stateObjects : GoMap Address StateObject
  txConfig : TxConfig
  /-- The refund counter. -/
  refund : UInt64
  /-- Per-transaction logs. -/
  logs : List Log
  /-- Per-transaction access list. -/
  accessList : AccessList

variable [Keccak] {σ : Type}

namespace StateDB

/-- Source: `statedb.go` `New` -/
def new (ctx : σ) (keeper : Keeper σ) (txConfig : TxConfig) : StateDB σ where
  keeper := keeper
  ctx := ctx
  journal := .new
  validRevisions := []
  nextRevisionID := 0
  stateObjects := GoMap.empty
  txConfig := txConfig
  refund := 0
  logs := []
  accessList := .new

/-- `s.journal.append(entry)`. -/
def append (s : StateDB σ) (entry : JournalEntry) : StateDB σ :=
  { s with journal := s.journal.append entry }

/-- Source: `statedb.go` `setStateObject` -/
def setStateObject (s : StateDB σ) (object : StateObject) : StateDB σ :=
  { s with stateObjects := s.stateObjects.set object.address object }

/-- Prefer live objects, else load from the keeper and insert into the live set.
Source: `statedb.go` `getStateObject` -/
def getStateObject (s : StateDB σ) (addr : Address) : Option StateObject × StateDB σ :=
  match s.stateObjects.get addr with
  | some obj => (some obj, s)
  | none =>
    match s.keeper.getAccount s.ctx addr with
    | none => (none, s)
    | some account =>
      let obj := newObject addr account
      (some obj, s.setStateObject obj)

/-- The new object and the one it replaces.
Source: `statedb.go` `createObject` -/
def createObject (s : StateDB σ) (addr : Address) :
    StateObject × Option StateObject × StateDB σ :=
  let (prev, s) := s.getStateObject addr
  let newobj := newObject addr .newEmpty
  let s :=
    match prev with
    | none => s.append (.createObjectChange addr)
    | some prev => s.append (.resetObjectChange prev)
  (newobj, prev, s.setStateObject newobj)

/-- Source: `statedb.go` `getOrNewStateObject` -/
def getOrNewStateObject (s : StateDB σ) (addr : Address) : StateObject × StateDB σ :=
  match s.getStateObject addr with
  | (some obj, s) => (obj, s)
  | (none, s) =>
    let (newobj, _, s) := s.createObject addr
    (newobj, s)

/-! ### Getters

Each returns the state it leaves behind, with the caches it filled. -/

/-- Run a read on the object at `addr`, and keep the object the read leaves behind. -/
def readObject {α : Type} (s : StateDB σ) (addr : Address) (dflt : α)
    (read : StateObject → α × StateObject) : α × StateDB σ :=
  match s.getStateObject addr with
  | (none, s) => (dflt, s)
  | (some obj, s) => ((read obj).1, s.setStateObject (read obj).2)

/-- Source: `statedb.go` `Exist` -/
def exist (s : StateDB σ) (addr : Address) : Bool × StateDB σ :=
  s.readObject addr false fun obj => (true, obj)

/-- Source: `statedb.go` `Empty` -/
def empty (s : StateDB σ) (addr : Address) : Bool × StateDB σ :=
  s.readObject addr true fun obj => (obj.empty, obj)

/-- Source: `statedb.go` `GetBalance` -/
def getBalance (s : StateDB σ) (addr : Address) : ℤ × StateDB σ :=
  s.readObject addr 0 fun obj => (obj.account.balance, obj)

/-- Source: `statedb.go` `GetNonce` -/
def getNonce (s : StateDB σ) (addr : Address) : UInt64 × StateDB σ :=
  s.readObject addr 0 fun obj => (obj.account.nonce, obj)

/-- Source: `statedb.go` `GetCode` -/
def getCode (s : StateDB σ) (addr : Address) : Option Bytes × StateDB σ :=
  s.readObject addr none fun obj => obj.getCode s.keeper s.ctx

/-- Source: `statedb.go` `GetCodeSize` -/
def getCodeSize (s : StateDB σ) (addr : Address) : ℕ × StateDB σ :=
  ((((s.getCode addr).1).getD []).length, (s.getCode addr).2)

/-- Source: `statedb.go` `GetCodeHash` -/
def getCodeHash (s : StateDB σ) (addr : Address) : Hash × StateDB σ :=
  s.readObject addr (FixedBytes.zero 32) fun obj => (obj.account.codeHash, obj)

/-- Source: `statedb.go` `GetState` -/
def getState (s : StateDB σ) (addr : Address) (key : Hash) : Hash × StateDB σ :=
  s.readObject addr (FixedBytes.zero 32) fun obj => obj.getState s.keeper s.ctx key

/-- Source: `statedb.go` `GetCommittedState` -/
def getCommittedState (s : StateDB σ) (addr : Address) (key : Hash) : Hash × StateDB σ :=
  s.readObject addr (FixedBytes.zero 32) fun obj => obj.getCommittedState s.keeper s.ctx key

/-- Source: `statedb.go` `HasSuicided` -/
def hasSuicided (s : StateDB σ) (addr : Address) : Bool × StateDB σ :=
  s.readObject addr false fun obj => (obj.suicided, obj)

/-- The committed entries of a contract, each with its dirty value where there is one; the
callback of the source is what the caller does with the list.
Source: `statedb.go` `ForEachStorage` -/
def forEachStorage (s : StateDB σ) (addr : Address) : List (Hash × Hash) × StateDB σ :=
  s.readObject addr [] fun obj =>
    ((s.keeper.storageEntries s.ctx addr).map fun (key, value) =>
      (key, (obj.dirtyStorage.get key).getD value), obj)

/-! ### Setters of state objects that journal the change -/

/-- Source: `state_object.go` `stateObject.SetBalance` -/
def objectSetBalance (s : StateDB σ) (obj : StateObject) (amount : ℤ) : StateDB σ :=
  (s.append (.balanceChange obj.address obj.account.balance)).setStateObject (obj.setBalance amount)

/-- Source: `state_object.go` `stateObject.AddBalance` -/
def objectAddBalance (s : StateDB σ) (obj : StateObject) (amount : ℤ) : StateDB σ :=
  if amount = 0 then s else s.objectSetBalance obj (obj.account.balance + amount)

/-- Source: `state_object.go` `stateObject.SubBalance` -/
def objectSubBalance (s : StateDB σ) (obj : StateObject) (amount : ℤ) : StateDB σ :=
  if amount = 0 then s else s.objectSetBalance obj (obj.account.balance - amount)

/-- Source: `state_object.go` `stateObject.SetNonce` -/
def objectSetNonce (s : StateDB σ) (obj : StateObject) (nonce : UInt64) : StateDB σ :=
  (s.append (.nonceChange obj.address obj.account.nonce)).setStateObject (obj.setNonce nonce)

/-- Source: `state_object.go` `stateObject.SetCode` -/
def objectSetCode (s : StateDB σ) (obj : StateObject) (codeHash : Hash) (code : Option Bytes) :
    StateDB σ :=
  let (prevcode, obj) := obj.getCode s.keeper s.ctx
  (s.append (.codeChange obj.address prevcode obj.account.codeHash)).setStateObject
    (obj.setCode codeHash code)

/-- Source: `state_object.go` `stateObject.SetState` -/
def objectSetState (s : StateDB σ) (obj : StateObject) (key value : Hash) : StateDB σ :=
  let (prev, obj) := obj.getState s.keeper s.ctx key
  -- If the new value is the same as old, don't set.
  if prev = value then s.setStateObject obj
  else (s.append (.storageChange obj.address key prev)).setStateObject (obj.setState key value)

/-! ### Setters -/

/-- Every call is given a log of its own, as the EVM does.
Source: `statedb.go` `AddLog` -/
def addLog (s : StateDB σ) (log : Log) : StateDB σ :=
  let s := s.append .addLogChange
  let log := { log with
    txHash := s.txConfig.txHash
    blockHash := s.txConfig.blockHash
    txIndex := s.txConfig.txIndex
    index := s.txConfig.logIndex + s.logs.length }
  { s with logs := s.logs ++ [log] }

/-- The addition wraps, as `uint64` does.
Source: `statedb.go` `AddRefund` -/
def addRefund (s : StateDB σ) (gas : UInt64) : StateDB σ :=
  let s := s.append (.refundChange s.refund)
  { s with refund := s.refund + gas }

/-- Source: `statedb.go` `SubRefund` -/
def subRefund (s : StateDB σ) (gas : UInt64) : Except Panic (StateDB σ) :=
  let s := s.append (.refundChange s.refund)
  if s.refund < gas then .error (.refundBelowZero gas s.refund)
  else .ok { s with refund := s.refund - gas }

/-- Source: `statedb.go` `CreateAccount` -/
def createAccount (s : StateDB σ) (addr : Address) : StateDB σ :=
  match s.createObject addr with
  | (newObj, some prev, s) => s.setStateObject (newObj.setBalance prev.account.balance)
  | (_, none, s) => s

/-- Source: `statedb.go` `AddBalance` -/
def addBalance (s : StateDB σ) (addr : Address) (amount : ℤ) : StateDB σ :=
  let (obj, s) := s.getOrNewStateObject addr
  s.objectAddBalance obj amount

/-- Source: `statedb.go` `SubBalance` -/
def subBalance (s : StateDB σ) (addr : Address) (amount : ℤ) : StateDB σ :=
  let (obj, s) := s.getOrNewStateObject addr
  s.objectSubBalance obj amount

/-- Source: `statedb.go` `SetNonce` -/
def setNonce (s : StateDB σ) (addr : Address) (nonce : UInt64) : StateDB σ :=
  let (obj, s) := s.getOrNewStateObject addr
  s.objectSetNonce obj nonce

/-- Source: `statedb.go` `SetCode` -/
def setCode (s : StateDB σ) (addr : Address) (code : Option Bytes) : StateDB σ :=
  let (obj, s) := s.getOrNewStateObject addr
  s.objectSetCode obj (keccak256 (code.getD [])) code

/-- Source: `statedb.go` `SetState` -/
def setState (s : StateDB σ) (addr : Address) (key value : Hash) : StateDB σ :=
  let (obj, s) := s.getOrNewStateObject addr
  s.objectSetState obj key value

/-- Source: `statedb.go` `Suicide` -/
def suicide (s : StateDB σ) (addr : Address) : Bool × StateDB σ :=
  match s.getStateObject addr with
  | (none, s) => (false, s)
  | (some obj, s) =>
    let s := s.append (.suicideChange addr obj.suicided obj.account.balance)
    (true, s.setStateObject (obj.markSuicided.setBalance 0))

/-! ### The access list -/

/-- Source: `statedb.go` `AddAddressToAccessList` -/
def addAddressToAccessList (s : StateDB σ) (addr : Address) : StateDB σ :=
  let (addrMod, accessList) := s.accessList.addAddress addr
  let s := { s with accessList := accessList }
  if addrMod then s.append (.accessListAddAccountChange addr) else s

/-- Source: `statedb.go` `AddSlotToAccessList` -/
def addSlotToAccessList (s : StateDB σ) (addr : Address) (slot : Hash) :
    Except Panic (StateDB σ) := do
  let ((addrMod, slotMod), accessList) ← s.accessList.addSlot addr slot
  let s := { s with accessList := accessList }
  let s := if addrMod then s.append (.accessListAddAccountChange addr) else s
  .ok (if slotMod then s.append (.accessListAddSlotChange addr slot) else s)

/-- Source: `statedb.go` `PrepareAccessList` -/
def prepareAccessList (s : StateDB σ) (sender : Address) (dst : Option Address)
    (precompiles : List Address) (list : List (Address × List Hash)) :
    Except Panic (StateDB σ) := do
  let s := s.addAddressToAccessList sender
  let s :=
    match dst with
    | some dst => s.addAddressToAccessList dst
    | none => s
  let s := precompiles.foldl addAddressToAccessList s
  list.foldlM (fun s el =>
    el.2.foldlM (fun s key => s.addSlotToAccessList el.1 key) (s.addAddressToAccessList el.1)) s

/-! ### Snapshots and reverts -/

/-- Source: `statedb.go` `Snapshot` -/
def snapshot (s : StateDB σ) : ℕ × StateDB σ :=
  (s.nextRevisionID,
    { s with
      nextRevisionID := s.nextRevisionID + 1
      validRevisions := s.validRevisions ++ [⟨s.nextRevisionID, s.journal.length⟩] })

/-- `s.getStateObject(addr).f(..)`, a nil dereference when there is no object. -/
def withStateObject (s : StateDB σ) (addr : Address) (f : StateObject → StateObject) :
    Except Panic (StateDB σ) :=
  match s.getStateObject addr with
  | (none, _) => .error .nilDereference
  | (some obj, s) => .ok (s.setStateObject (f obj))

end StateDB

/-- Undo the changes introduced by one entry.
Source: `journal.go`, the `revert` methods -/
def JournalEntry.revert (s : StateDB σ) : JournalEntry → Except Panic (StateDB σ)
  | .createObjectChange a => .ok { s with stateObjects := s.stateObjects.delete a }
  | .resetObjectChange prev => .ok (s.setStateObject prev)
  | .suicideChange a prev prevbalance =>
    match s.getStateObject a with
    | (none, s) => .ok s
    | (some obj, s) => .ok (s.setStateObject ({ obj with suicided := prev }.setBalance prevbalance))
  | .balanceChange a prev => s.withStateObject a (·.setBalance prev)
  | .nonceChange a prev => s.withStateObject a (·.setNonce prev)
  | .codeChange a prevcode prevhash => s.withStateObject a (·.setCode prevhash prevcode)
  | .storageChange a key prevalue => s.withStateObject a (·.setState key prevalue)
  | .refundChange prev => .ok { s with refund := prev }
  | .addLogChange => do
    let logs ← goDropLast s.logs
    .ok { s with logs := logs }
  | .accessListAddAccountChange a => .ok { s with accessList := s.accessList.deleteAddress a }
  | .accessListAddSlotChange a slot => do
    let accessList ← s.accessList.deleteSlot a slot
    .ok { s with accessList := accessList }

namespace StateDB

/-- The loop of a revert over the entries still to undo, newest first.
Source: `journal.go` `revert`, the loop -/
def revertEntries (s : StateDB σ) : List JournalEntry → Except Panic (StateDB σ)
  | [] => .ok s
  | entry :: older => do
    -- Undo the changes made by the operation, then drop the dirty tracking it induced.
    let s ← entry.revert s
    revertEntries { s with journal := s.journal.dropDirty entry } older

/-- Source: `journal.go` `revert` -/
def journalRevert (s : StateDB σ) (snapshot : ℕ) : Except Panic (StateDB σ) := do
  let s ← s.revertEntries (s.journal.entries.drop snapshot).reverse
  .ok { s with journal := { s.journal with entries := s.journal.entries.take snapshot } }

/-- `sort.Search` returns the first index at which the predicate holds, for a predicate that is
monotone, as this one is on the increasing ids of `validRevisions`.
Source: `statedb.go` `RevertToSnapshot` -/
def revertToSnapshot (s : StateDB σ) (revid : ℕ) : Except Panic (StateDB σ) :=
  let idx := s.validRevisions.findIdx fun r => revid ≤ r.id
  match s.validRevisions[idx]? with
  | none => .error (.revisionNotReverted revid)
  | some r =>
    if r.id ≠ revid then .error (.revisionNotReverted revid)
    else do
      -- Replay the journal to undo changes and remove invalidated snapshots.
      let s' ← s.journalRevert r.journalIndex
      .ok { s' with validRevisions := s'.validRevisions.take idx }

end StateDB

/-! ## Runs -/

/-- A method call on a `StateDB`. -/
inductive Op where
  | addLog (log : Log)
  | addRefund (gas : UInt64)
  | subRefund (gas : UInt64)
  | createAccount (addr : Address)
  | addBalance (addr : Address) (amount : ℤ)
  | subBalance (addr : Address) (amount : ℤ)
  | setNonce (addr : Address) (nonce : UInt64)
  | setCode (addr : Address) (code : Option Bytes)
  | setState (addr : Address) (key value : Hash)
  | suicide (addr : Address)
  | addAddressToAccessList (addr : Address)
  | addSlotToAccessList (addr : Address) (slot : Hash)
  | exist (addr : Address)
  | empty (addr : Address)
  | getBalance (addr : Address)
  | getNonce (addr : Address)
  | getCode (addr : Address)
  | getCodeSize (addr : Address)
  | getCodeHash (addr : Address)
  | getState (addr : Address) (key : Hash)
  | getCommittedState (addr : Address) (key : Hash)
  | hasSuicided (addr : Address)
  | forEachStorage (addr : Address)
  /-- The getters that read no object: `GetRefund`, `Logs`, `AddressInAccessList`,
  `SlotInAccessList`; also `AddPreimage`, which does nothing. -/
  | readOnly
  | snapshot
  | revertToSnapshot (revid : ℕ)
deriving DecidableEq

/-- The state after one call; an error is a panic. -/
def Op.run (s : StateDB σ) : Op → Except Panic (StateDB σ)
  | .addLog log => .ok (s.addLog log)
  | .addRefund gas => .ok (s.addRefund gas)
  | .subRefund gas => s.subRefund gas
  | .createAccount a => .ok (s.createAccount a)
  | .addBalance a amount => .ok (s.addBalance a amount)
  | .subBalance a amount => .ok (s.subBalance a amount)
  | .setNonce a nonce => .ok (s.setNonce a nonce)
  | .setCode a code => .ok (s.setCode a code)
  | .setState a key value => .ok (s.setState a key value)
  | .suicide a => .ok (s.suicide a).2
  | .addAddressToAccessList a => .ok (s.addAddressToAccessList a)
  | .addSlotToAccessList a slot => s.addSlotToAccessList a slot
  | .exist a => .ok (s.exist a).2
  | .empty a => .ok (s.empty a).2
  | .getBalance a => .ok (s.getBalance a).2
  | .getNonce a => .ok (s.getNonce a).2
  | .getCode a => .ok (s.getCode a).2
  | .getCodeSize a => .ok (s.getCodeSize a).2
  | .getCodeHash a => .ok (s.getCodeHash a).2
  | .getState a key => .ok (s.getState a key).2
  | .getCommittedState a key => .ok (s.getCommittedState a key).2
  | .hasSuicided a => .ok (s.hasSuicided a).2
  | .forEachStorage a => .ok (s.forEachStorage a).2
  | .readOnly => .ok s
  | .snapshot => .ok s.snapshot.2
  | .revertToSnapshot revid => s.revertToSnapshot revid

/-- Run a list of calls; a panic ends the run. -/
def runOps (s : StateDB σ) : List Op → Except Panic (StateDB σ)
  | [] => .ok s
  | op :: ops => do
    let s ← op.run s
    runOps s ops

/-- The first operation runs before the others. -/
theorem runOps_cons {s s' : StateDB σ} {op : Op} {ops : List Op} :
    runOps s (op :: ops) = .ok s' ↔ ∃ s₁, op.run s = .ok s₁ ∧ runOps s₁ ops = .ok s' := by
  simp only [runOps]
  cases op.run s with
  | error e => simp [bind, Except.bind]
  | ok s₁ => simp [bind, Except.bind]

/-- Two lists of operations run one after the other. -/
theorem runOps_append {s s' : StateDB σ} {ops₁ ops₂ : List Op} :
    runOps s (ops₁ ++ ops₂) = .ok s' ↔ ∃ s₁, runOps s ops₁ = .ok s₁ ∧ runOps s₁ ops₂ = .ok s' := by
  induction ops₁ generalizing s with
  | nil => simp [runOps]
  | cons op ops ih =>
      rw [List.cons_append, runOps_cons]
      simp only [ih, runOps_cons]
      constructor
      · rintro ⟨s₁, h₁, s₂, h₂, h₃⟩
        exact ⟨s₂, ⟨s₁, h₁, h₂⟩, h₃⟩
      · rintro ⟨s₂, ⟨s₁, h₁, h₂⟩, h₃⟩
        exact ⟨s₁, h₁, s₂, h₂, h₃⟩

end Smartdoge.Statedb
