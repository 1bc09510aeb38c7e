import Smartdoge.Statedb.Quiet

/-!
# Logs of a run

`AddLog` stamps a log with the transaction and with its place in the block: the number of logs in the
block before this transaction, from the configuration, and the number of logs of this transaction so
far. A revert removes the logs added since its snapshot, so that later logs take over their numbers.

* `Op.logs`: what each operation does to the logs.
* **`runOps_stamped`**: after any run, with any reverts, the logs are numbered without a gap and carry
  the index of the transaction.
* `restored_logs`: a run that goes back to its snapshot leaves no log.
-/

set_option linter.unusedSectionVars false

namespace Smartdoge.Statedb

open Smartdoge.Lib

variable [Keccak] {σ : Type}

/-! ## One operation -/

/-- A log as `AddLog` stores it. -/
def TxConfig.stamp (cfg : TxConfig) (size : ℕ) (log : Log) : Log :=
  { log with
    txHash := cfg.txHash
    blockHash := cfg.blockHash
    txIndex := cfg.txIndex
    index := cfg.logIndex + size }

/-- The logs an operation adds. -/
def Op.newLogs (s : StateDB σ) : Op → List Log
  | .addLog log => [s.txConfig.stamp s.logs.length log]
  | _ => []

namespace StateDB

variable (s : StateDB σ) (a : Address)

/-- Reading an object leaves the logs alone. -/
@[simp] theorem getStateObject_logs : (s.getStateObject a).2.logs = s.logs := by
  unfold getStateObject
  split
  · rfl
  · split <;> rfl

/-- So does creating one. -/
@[simp] theorem createObject_logs : (s.createObject a).2.2.logs = s.logs := by
  unfold createObject
  have h := s.getStateObject_logs a
  cases hprev : (s.getStateObject a).1 <;> simp only [hprev] <;> exact h

/-- So does reading or creating one. -/
@[simp] theorem getOrNewStateObject_logs : (s.getOrNewStateObject a).2.logs = s.logs := by
  have h := s.getStateObject_logs a
  unfold getOrNewStateObject
  split
  · rename_i hget
    rwa [hget] at h
  · rename_i s' hget
    rw [hget] at h
    exact (s'.createObject_logs a).trans h

/-- So does reading from one. -/
@[simp] theorem readObject_logs {α : Type} (dflt : α) (read : StateObject → α × StateObject) :
    (s.readObject a dflt read).2.logs = s.logs := by
  have h := s.getStateObject_logs a
  unfold readObject
  split <;> rename_i hget <;> rwa [hget] at h

/-- So does setting a slot of one. -/
theorem objectSetState_logs (obj : StateObject) (key value : Hash) :
    (s.objectSetState obj key value).logs = s.logs := by
  simp only [objectSetState]
  split_ifs <;> rfl

/-- So does `CreateAccount`. -/
theorem createAccount_logs : (s.createAccount a).logs = s.logs := by
  have h := s.createObject_logs a
  unfold createAccount
  split <;> rename_i hcreate <;> rwa [hcreate] at h

/-- So does `Suicide`. -/
theorem suicide_logs : (s.suicide a).2.logs = s.logs := by
  have h := s.getStateObject_logs a
  unfold suicide
  split <;> rename_i hget <;> rwa [hget] at h

/-- So does adding an address to the access list. -/
theorem addAddressToAccessList_logs : (s.addAddressToAccessList a).logs = s.logs := by
  simp only [addAddressToAccessList]
  split_ifs <;> rfl

/-- So does adding a slot to it. -/
theorem addSlotToAccessList_logs {s s' : StateDB σ} {a : Address} {slot : Hash}
    (h : s.addSlotToAccessList a slot = .ok s') : s'.logs = s.logs := by
  unfold addSlotToAccessList at h
  cases hadd : s.accessList.addSlot a slot with
  | error p =>
      rw [hadd] at h
      exact absurd h (by simp [bind, Except.bind])
  | ok r =>
      rw [hadd] at h
      obtain rfl := Except.ok.inj h
      split_ifs <;> rfl

end StateDB

/-- **Only `AddLog` adds a log**, and only a revert removes any. -/
theorem Op.logs {op : Op} (hop : op.isVersion = false) {s s' : StateDB σ} (h : op.run s = .ok s') :
    s'.logs = s.logs ++ op.newLogs s := by
  cases op with
  | addLog log =>
      obtain rfl := Except.ok.inj h
      rfl
  | subRefund gas =>
      simp only [run, StateDB.subRefund] at h
      split_ifs at h
      obtain rfl := Except.ok.inj h
      exact (List.append_nil _).symm
  | addSlotToAccessList a slot =>
      rw [StateDB.addSlotToAccessList_logs h]
      exact (List.append_nil _).symm
  | createAccount a =>
      obtain rfl := Except.ok.inj h
      rw [s.createAccount_logs a]
      exact (List.append_nil _).symm
  | suicide a =>
      obtain rfl := Except.ok.inj h
      rw [s.suicide_logs a]
      exact (List.append_nil _).symm
  | addAddressToAccessList a =>
      obtain rfl := Except.ok.inj h
      rw [s.addAddressToAccessList_logs a]
      exact (List.append_nil _).symm
  | setState a key value =>
      obtain rfl := Except.ok.inj h
      rw [StateDB.setState, StateDB.objectSetState_logs, s.getOrNewStateObject_logs a]
      exact (List.append_nil _).symm
  | addBalance a amount | subBalance a amount =>
      obtain rfl := Except.ok.inj h
      simp only [StateDB.addBalance, StateDB.subBalance, StateDB.objectAddBalance,
        StateDB.objectSubBalance, newLogs, List.append_nil]
      split_ifs <;> exact s.getOrNewStateObject_logs a
  | setNonce a nonce | setCode a code =>
      obtain rfl := Except.ok.inj h
      exact (s.getOrNewStateObject_logs a).trans (List.append_nil _).symm
  | exist a | empty a | getBalance a | getNonce a | getCodeHash a | hasSuicided a
  | forEachStorage a | getCode a | getCodeSize a | getState a key | getCommittedState a key =>
      obtain rfl := Except.ok.inj h
      exact (s.readObject_logs a _ _).trans (List.append_nil _).symm
  | addRefund gas | readOnly =>
      obtain rfl := Except.ok.inj h
      exact (List.append_nil _).symm
  | snapshot | revertToSnapshot revid => simp [isVersion] at hop

/-! ## Numbering -/

/-- Logs that are numbered from the size of the block so far, each with the index of the
transaction. -/
structure Stamped (cfg : TxConfig) (logs : List Log) : Prop where
  index : logs.map Log.index = List.range' cfg.logIndex logs.length
  txIndex : ∀ log ∈ logs, log.txIndex = cfg.txIndex

/-- No logs are stamped. -/
theorem Stamped.nil (cfg : TxConfig) : Stamped cfg [] := ⟨rfl, by simp⟩

/-- A log that is added is stamped with the configuration and its place. -/
theorem Stamped.stamp {cfg : TxConfig} {logs : List Log} (h : Stamped cfg logs) (log : Log) :
    Stamped cfg (logs ++ [cfg.stamp logs.length log]) := by
  refine ⟨?_, ?_⟩
  · rw [List.map_append, h.index, List.length_append, List.length_singleton, ← List.range'_append_1]
    rfl
  · intro l hl
    rcases List.mem_append.mp hl with hl | hl
    · exact h.txIndex l hl
    · rw [List.mem_singleton.mp hl]
      rfl

/-- **The logs of a run are numbered without a gap**, whatever it reverted. -/
theorem runOps_stamped {ops : List Op} {s s' : StateDB σ} (hwf : Wf s)
    (hs : Stamped s.txConfig s.logs) (hrev : RevisionsAt (fun v => Stamped s.txConfig v.logs) s)
    (hrun : runOps s ops = .ok s') :
    Stamped s.txConfig s'.logs ∧ RevisionsAt (fun v => Stamped s.txConfig v.logs) s' := by
  refine runOps_keepsView ?_ hwf hs hrev hrun
  intro op _ hversion t t' _ hcfg hrun ht
  have hlogs : t'.view.logs = t.logs ++ op.newLogs t := Op.logs hversion hrun
  rw [hlogs]
  cases op with
  | addLog log =>
      rw [show (Op.addLog log).newLogs t = [s.txConfig.stamp t.logs.length log] by rw [← hcfg]; rfl]
      exact ht.stamp log
  | _ =>
      simp only [Op.newLogs, List.append_nil]
      exact ht

/-! ## Runs without logs -/

/-- A quiet operation adds no log. -/
theorem Op.newLogs_of_quiet {op : Op} {caller : Option Address} (hop : op.isQuiet caller = true)
    (s : StateDB σ) : op.newLogs s = [] := by
  cases op with
  | addLog log => simp [isQuiet] at hop
  | _ => rfl

/-- It takes no snapshot and reverts to none. -/
theorem Op.isVersion_of_quiet {op : Op} {caller : Option Address} (hop : op.isQuiet caller = true) :
    op.isVersion = false := by
  cases op with
  | snapshot | revertToSnapshot revid => simp [isQuiet] at hop
  | _ => rfl

/-- Quiet operations leave the logs alone. -/
theorem runOps_quiet_logs {ops : List Op} {caller : Option Address}
    (hops : ∀ op ∈ ops, op.isQuiet caller = true) {s s' : StateDB σ}
    (hrun : runOps s ops = .ok s') : s'.logs = s.logs := by
  induction ops generalizing s with
  | nil =>
      obtain rfl := Except.ok.inj hrun
      rfl
  | cons op ops ih =>
      obtain ⟨s₁, h₁, h₂⟩ := runOps_cons.mp hrun
      have hquiet := hops op List.mem_cons_self
      rw [ih (fun op' h' => hops op' (List.mem_cons_of_mem op h')) h₂,
        Op.logs (Op.isVersion_of_quiet hquiet) h₁, Op.newLogs_of_quiet hquiet, List.append_nil]

/-- **An execution that restores its state leaves no log.** -/
theorem restored_logs {caller : Option Address} {s s' : StateDB σ} {ops : List Op}
    (h : Restored caller s ops) (hwf : Wf s) (hrun : runOps s ops = .ok s') : s'.logs = s.logs := by
  cases h with
  | quiet hquiet => exact runOps_quiet_logs hquiet hrun
  | reverted hquiet hpre =>
      have hreturned := runOps_reverted hwf hpre hrun
      exact (congrArg View.logs hreturned.view).trans (runOps_quiet_logs hquiet hpre)

end Smartdoge.Statedb
