import Smartdoge.Statedb.Commit
import Smartdoge.Statedb.Logs

/-!
# Runs under another configuration

The configuration of a transaction (its hash, its place in the block, the number of logs before it) is read by
`AddLog` only, to stamp the logs. So the same calls under another configuration do the same, and the logs carry
the stamps of that configuration.

* `StateDB.restamp`: a state under another configuration.
* **`runOps_restamp`**: a run of calls goes the same way, with panics at the same place.
* `prepareAccessList_restamp`: so does the preparation of the access list.
-/

set_option linter.unusedSectionVars false

namespace Smartdoge.Statedb

open Smartdoge.Lib

variable [Keccak] {σ : Type}

/-- The state as it were had the transaction another configuration. -/
def StateDB.restamp (c : TxConfig) (s : StateDB σ) : StateDB σ :=
  { s with txConfig := c, logs := s.logs.mapIdx c.stamp }

namespace StateDB

variable (c : TxConfig) (s : StateDB σ) (a : Address)

/-- A fresh state has no logs to restamp. -/
theorem new_restamp (ctx : σ) (keeper : Keeper σ) (c' : TxConfig) :
    (StateDB.new ctx keeper c').restamp c = StateDB.new ctx keeper c := rfl

/-- The keeper is the same. -/
theorem keeper_restamp : (s.restamp c).keeper = s.keeper := rfl

/-- The store is the same. -/
theorem ctx_restamp : (s.restamp c).ctx = s.ctx := rfl

/-- The objects are the same. -/
theorem stateObjects_restamp : (s.restamp c).stateObjects = s.stateObjects := rfl

/-- The snapshots are the same. -/
theorem validRevisions_restamp : (s.restamp c).validRevisions = s.validRevisions := rfl

/-! ## Objects -/

/-- Recording an entry commutes with restamping. -/
theorem append_restamp (e : JournalEntry) : (s.restamp c).append e = (s.append e).restamp c := rfl

/-- So does putting an object back. -/
theorem setStateObject_restamp (o : StateObject) :
    (s.restamp c).setStateObject o = (s.setStateObject o).restamp c := rfl

/-- So does reading an object. -/
theorem getStateObject_restamp :
    (s.restamp c).getStateObject a = ((s.getStateObject a).1, (s.getStateObject a).2.restamp c) := by
  unfold getStateObject
  rw [stateObjects_restamp, keeper_restamp, ctx_restamp]
  cases s.stateObjects.get a with
  | some obj => rfl
  | none =>
      cases s.keeper.getAccount s.ctx a with
      | none => rfl
      | some account => rfl

/-- So does creating one. -/
theorem createObject_restamp : (s.restamp c).createObject a =
    ((s.createObject a).1, (s.createObject a).2.1, (s.createObject a).2.2.restamp c) := by
  unfold createObject
  rw [getStateObject_restamp]
  cases hprev : (s.getStateObject a).1 with
  | none => simp only [hprev, append_restamp, setStateObject_restamp]
  | some prev => simp only [hprev, append_restamp, setStateObject_restamp]

/-- So does reading or creating one. -/
theorem getOrNewStateObject_restamp : (s.restamp c).getOrNewStateObject a =
    ((s.getOrNewStateObject a).1, (s.getOrNewStateObject a).2.restamp c) := by
  unfold getOrNewStateObject
  rw [getStateObject_restamp]
  rcases s.getStateObject a with ⟨_ | obj, s'⟩
  · simp only [createObject_restamp]
  · rfl

/-- So does reading from one. -/
theorem readObject_restamp {α : Type} (dflt : α) (read : StateObject → α × StateObject) :
    (s.restamp c).readObject a dflt read =
      ((s.readObject a dflt read).1, (s.readObject a dflt read).2.restamp c) := by
  unfold readObject
  rw [getStateObject_restamp]
  rcases s.getStateObject a with ⟨_ | obj, s'⟩
  · rfl
  · rfl

/-- So does setting a slot of one. -/
theorem objectSetState_restamp (o : StateObject) (key value : Hash) :
    (s.restamp c).objectSetState o key value = (s.objectSetState o key value).restamp c := by
  unfold objectSetState
  show (if (o.getState s.keeper s.ctx key).1 = value then _ else _) =
    restamp c (if (o.getState s.keeper s.ctx key).1 = value then _ else _)
  split_ifs
  · rfl
  · rfl

/-- So does changing one. -/
theorem withStateObject_restamp (f : StateObject → StateObject) :
    (s.restamp c).withStateObject a f = (s.withStateObject a f).map (restamp c) := by
  unfold withStateObject
  rw [getStateObject_restamp]
  rcases s.getStateObject a with ⟨_ | obj, s'⟩
  · rfl
  · rfl

/-! ## Calls -/

/-- **`AddLog`** stamps the new log as the others are stamped. -/
theorem addLog_restamp (log : Log) : (s.restamp c).addLog log = (s.addLog log).restamp c := by
  have hlogs : (s.restamp c).logs ++ [c.stamp (s.restamp c).logs.length log] =
      (s.logs ++ [s.txConfig.stamp s.logs.length log]).mapIdx c.stamp := by
    simp only [restamp, List.mapIdx_append, List.length_mapIdx, List.mapIdx_cons, List.mapIdx_nil, zero_add]
    rfl
  show { (s.restamp c).append .addLogChange with
    logs := (s.restamp c).logs ++ [c.stamp (s.restamp c).logs.length log] } = _
  rw [hlogs]
  rfl

/-- `CreateAccount` commutes with restamping. -/
theorem createAccount_restamp : (s.restamp c).createAccount a = (s.createAccount a).restamp c := by
  unfold createAccount
  rw [createObject_restamp]
  rcases s.createObject a with ⟨obj, _ | prev, s'⟩
  · rfl
  · rfl

/-- So does `AddBalance`. -/
theorem addBalance_restamp (amount : ℤ) :
    (s.restamp c).addBalance a amount = (s.addBalance a amount).restamp c := by
  simp only [addBalance, getOrNewStateObject_restamp, objectAddBalance]
  split_ifs
  · rfl
  · rfl

/-- So does `SubBalance`. -/
theorem subBalance_restamp (amount : ℤ) :
    (s.restamp c).subBalance a amount = (s.subBalance a amount).restamp c := by
  simp only [subBalance, getOrNewStateObject_restamp, objectSubBalance]
  split_ifs
  · rfl
  · rfl

/-- So does `SetNonce`. -/
theorem setNonce_restamp (nonce : UInt64) :
    (s.restamp c).setNonce a nonce = (s.setNonce a nonce).restamp c := by
  simp only [setNonce, getOrNewStateObject_restamp]
  rfl

/-- So does `SetCode`. -/
theorem setCode_restamp (code : Option Bytes) :
    (s.restamp c).setCode a code = (s.setCode a code).restamp c := by
  simp only [setCode, getOrNewStateObject_restamp]
  rfl

/-- So does `SetState`. -/
theorem setState_restamp (key value : Hash) :
    (s.restamp c).setState a key value = (s.setState a key value).restamp c := by
  simp only [setState, getOrNewStateObject_restamp, objectSetState_restamp]

/-- So does `Suicide`. -/
theorem suicide_restamp : ((s.restamp c).suicide a).2 = (s.suicide a).2.restamp c := by
  unfold suicide
  rw [getStateObject_restamp]
  rcases s.getStateObject a with ⟨_ | obj, s'⟩
  · rfl
  · rfl

/-- So does adding an address to the access list. -/
theorem addAddressToAccessList_restamp :
    (s.restamp c).addAddressToAccessList a = (s.addAddressToAccessList a).restamp c := by
  unfold addAddressToAccessList
  show (if (s.accessList.addAddress a).1 then _ else _) = restamp c (if (s.accessList.addAddress a).1 then _ else _)
  split_ifs
  · rfl
  · rfl

/-- So does adding a slot to it. -/
theorem addSlotToAccessList_restamp (slot : Hash) :
    (s.restamp c).addSlotToAccessList a slot = (s.addSlotToAccessList a slot).map (restamp c) := by
  unfold addSlotToAccessList
  show (s.accessList.addSlot a slot >>= _) = _
  cases s.accessList.addSlot a slot with
  | error p => rfl
  | ok r =>
      obtain ⟨⟨addrMod, slotMod⟩, accessList⟩ := r
      cases addrMod with
      | false => cases slotMod <;> rfl
      | true => cases slotMod <;> rfl

/-! ## Reverts -/

/-- Dropping the last log commutes with stamping the logs by their places. -/
theorem goDropLast_mapIdx {α β : Type} (f : ℕ → α → β) (l : List α) :
    goDropLast (l.mapIdx f) = (goDropLast l).map (List.mapIdx f) := by
  unfold goDropLast
  rcases l.eq_nil_or_concat with rfl | ⟨l, x, rfl⟩
  · rfl
  · simp [List.mapIdx_append, Except.map]

/-- So does reverting an entry. -/
theorem revert_restamp (e : JournalEntry) :
    e.revert (s.restamp c) = (e.revert s).map (restamp c) := by
  cases e with
  | createObjectChange a => rfl
  | resetObjectChange prev => rfl
  | suicideChange a prev prevbalance =>
      simp only [JournalEntry.revert, getStateObject_restamp]
      rcases s.getStateObject a with ⟨_ | obj, s'⟩
      · rfl
      · rfl
  | balanceChange a prev => exact withStateObject_restamp c s a _
  | nonceChange a prev => exact withStateObject_restamp c s a _
  | codeChange a prevcode prevhash => exact withStateObject_restamp c s a _
  | storageChange a key prevalue => exact withStateObject_restamp c s a _
  | refundChange prev => rfl
  | addLogChange =>
      show (goDropLast (s.logs.mapIdx c.stamp) >>= _) = _
      rw [goDropLast_mapIdx]
      simp only [JournalEntry.revert]
      cases goDropLast s.logs with
      | error p => rfl
      | ok logs => rfl
  | accessListAddAccountChange a => rfl
  | accessListAddSlotChange a slot =>
      show (s.accessList.deleteSlot a slot >>= _) = _
      simp only [JournalEntry.revert]
      cases s.accessList.deleteSlot a slot with
      | error p => rfl
      | ok accessList => rfl

/-- So does reverting several entries. -/
theorem revertEntries_restamp (entries : List JournalEntry) :
    (s.restamp c).revertEntries entries = (s.revertEntries entries).map (restamp c) := by
  induction entries generalizing s with
  | nil => rfl
  | cons e older ih =>
      simp only [revertEntries, revert_restamp]
      cases e.revert s with
      | error p => rfl
      | ok s₁ => exact ih { s₁ with journal := s₁.journal.dropDirty e }

/-- So does reverting the journal. -/
theorem journalRevert_restamp (snapshot : ℕ) :
    (s.restamp c).journalRevert snapshot = (s.journalRevert snapshot).map (restamp c) := by
  unfold journalRevert
  show ((s.restamp c).revertEntries (s.journal.entries.drop snapshot).reverse >>= _) = _
  rw [revertEntries_restamp]
  cases s.revertEntries (s.journal.entries.drop snapshot).reverse with
  | error p => rfl
  | ok s₁ => rfl

/-- So does `RevertToSnapshot`. -/
theorem revertToSnapshot_restamp (revid : ℕ) :
    (s.restamp c).revertToSnapshot revid = (s.revertToSnapshot revid).map (restamp c) := by
  unfold revertToSnapshot
  rw [validRevisions_restamp]
  cases hrev : s.validRevisions[s.validRevisions.findIdx fun r => revid ≤ r.id]? with
  | none => simp only [hrev, Except.map]
  | some r =>
      simp only [hrev]
      split_ifs
      · rfl
      · rw [journalRevert_restamp]
        cases s.journalRevert r.journalIndex with
        | error p => rfl
        | ok s₁ => rfl

end StateDB

/-! ## Runs -/

open StateDB

/-- **A call under another configuration** does the same. -/
theorem Op.run_restamp (c : TxConfig) (s : StateDB σ) (op : Op) :
    op.run (s.restamp c) = (op.run s).map (restamp c) := by
  cases op with
  | addLog log => exact congrArg Except.ok (addLog_restamp c s log)
  | addRefund gas => rfl
  | subRefund gas =>
      simp only [Op.run]
      show (if s.refund < gas then _ else _) = Except.map _ (if s.refund < gas then _ else _)
      split_ifs
      · rfl
      · rfl
  | createAccount a => exact congrArg Except.ok (createAccount_restamp c s a)
  | addBalance a amount => exact congrArg Except.ok (addBalance_restamp c s a amount)
  | subBalance a amount => exact congrArg Except.ok (subBalance_restamp c s a amount)
  | setNonce a nonce => exact congrArg Except.ok (setNonce_restamp c s a nonce)
  | setCode a code => exact congrArg Except.ok (setCode_restamp c s a code)
  | setState a key value => exact congrArg Except.ok (setState_restamp c s a key value)
  | suicide a => exact congrArg Except.ok (suicide_restamp c s a)
  | addAddressToAccessList a => exact congrArg Except.ok (addAddressToAccessList_restamp c s a)
  | addSlotToAccessList a slot => exact addSlotToAccessList_restamp c s a slot
  | exist a | empty a | getBalance a | getNonce a | getCode a | getCodeHash a | getState a key
  | getCommittedState a key | hasSuicided a | forEachStorage a =>
      exact congrArg (Except.ok ∘ Prod.snd) (readObject_restamp c s a _ _)
  | getCodeSize a =>
      exact congrArg (Except.ok ∘ Prod.snd) (readObject_restamp c s a none fun obj => obj.getCode s.keeper s.ctx)
  | readOnly => rfl
  | snapshot => rfl
  | revertToSnapshot revid => exact revertToSnapshot_restamp c s revid

/-- **A run of calls under another configuration** goes the same way. -/
theorem runOps_restamp (c : TxConfig) (s : StateDB σ) (ops : List Op) :
    runOps (s.restamp c) ops = (runOps s ops).map (restamp c) := by
  induction ops generalizing s with
  | nil => rfl
  | cons op ops ih =>
      simp only [runOps, Op.run_restamp]
      cases op.run s with
      | error p => rfl
      | ok s₁ => exact ih s₁

/-- So does `PrepareAccessList`. -/
theorem prepareAccessList_restamp (c : TxConfig) (s : StateDB σ) (sender : Address) (dst : Option Address)
    (precompiles : List Address) (list : List (Address × List Hash)) :
    (s.restamp c).prepareAccessList sender dst precompiles list =
      (s.prepareAccessList sender dst precompiles list).map (restamp c) := by
  rw [prepareAccessList_run, prepareAccessList_run, runOps_restamp]

end Smartdoge.Statedb
