import Smartdoge.Statedb.Balances
import Smartdoge.Statedb.Persist

/-!
# Re-creating an account

`CreateAccount` on an address that exists puts an empty object there and carries the balance over.
The new object starts with empty caches, so its storage is read through to the store, where the old
slots still are; and the journal entry of a reset (`resetObjectChange`) marks nothing dirty, so
`Commit` does not visit the address unless something else made it dirty.

* **`runOps_spared`**: a run that never writes an account, and goes back to no snapshot from before
  the run, leaves the account as it was and as dirty as it was.
* `resetTo_createAccount`, `resetTo_new`: when a working state and a fresh one over a store show a
  re-created account.
* **`recreation_iff`**: when a re-creation resets the account and a later commit persists that.
-/

set_option linter.unusedSectionVars false

namespace Smartdoge.Statedb

open Smartdoge.Lib
open Smartdoge.Lib.UndoLog

section recreate

variable [Keccak] {σ : Type}

/-! ## Runs that spare an account -/

/-- The operations write the account at `a` nowhere, and revert to no snapshot with an id below
`id`. -/
def Spares (a : Address) (id : ℕ) (ops : List Op) : Prop :=
  ∀ op ∈ ops, op.writes ≠ some a ∧ ∀ revid, op = .revertToSnapshot revid → id ≤ revid

/-- `s` goes on from `s₀` with changes of other accounts than the one at `a`. -/
structure Spared (a : Address) (s₀ s : StateDB σ) : Prop where
  entries : ∃ rest, s.journal.entries = s₀.journal.entries ++ rest ∧ ∀ e ∈ rest, e.target ≠ some a
  revisions : ∀ r ∈ s.validRevisions, s₀.nextRevisionID ≤ r.id →
    s₀.journal.entries.length ≤ r.journalIndex
  object : s.view.objects a = s₀.view.objects a

section spared

variable {a : Address} {s₀ s s' : StateDB σ}

/-- Nothing was done to the account yet. -/
theorem Spared.refl (hwf : Wf s) : Spared a s s where
  entries := ⟨[], by simp, by simp⟩
  revisions := by
    intro r hr hid
    have hnext := hwf.revisions.next r hr
    omega
  object := rfl

/-- A step that is not about the account. -/
theorem Spared.step (h : Spared a s₀ s) {new : List JournalEntry} (hstep : Step s s' new)
    (hnew : ∀ e ∈ new, e.target ≠ some a) : Spared a s₀ s' where
  entries := by
    obtain ⟨rest, hentries, hrest⟩ := h.entries
    refine ⟨rest ++ new, ?_, ?_⟩
    · rw [hstep.journal, foldl_append_entries, hentries, List.append_assoc]
    · intro e he
      rcases List.mem_append.mp he with he | he
      · exact hrest e he
      · exact hnew e he
  revisions := by
    rw [hstep.frame.validRevisions]
    exact h.revisions
  object := by
    obtain ⟨t, ht, hle⟩ := hstep.undo
    have hback : t.view.objects a = s'.view.objects a := rollback_objects_of_ne ht hnew
    rw [← hback, hle.1]
    exact h.object

/-- A snapshot. -/
theorem Spared.snapshot (h : Spared a s₀ s) : Spared a s₀ s.snapshot.2 where
  entries := h.entries
  revisions := by
    intro r hr hid
    rcases List.mem_append.mp hr with hr | hr
    · exact h.revisions r hr hid
    · obtain ⟨rest, hentries, -⟩ := h.entries
      rw [List.mem_singleton.mp hr]
      show _ ≤ s.journal.entries.length
      rw [hentries, List.length_append]
      exact Nat.le_add_right _ _
  object := h.object

/-- A revert to a snapshot taken since undoes changes of other accounts only. -/
theorem Spared.revertToSnapshot (h : Spared a s₀ s) (hwf : Wf s) {revid : ℕ}
    (hid : s₀.nextRevisionID ≤ revid) (hrun : s.revertToSnapshot revid = .ok s') : Spared a s₀ s' := by
  obtain ⟨i, r, hr, rfl, -, hto⟩ := hwf.revertToSnapshot hrun
  obtain ⟨t, ht, -⟩ := hwf.history
  obtain ⟨w, hw, -⟩ := ht.split r.journalIndex
  have hrev := hto w hw
  have hcut := h.revisions r (List.mem_of_getElem? hr) hid
  obtain ⟨rest, hentries, hrest⟩ := h.entries
  refine ⟨⟨rest.take (r.journalIndex - s₀.journal.entries.length), ?_, ?_⟩, ?_, ?_⟩
  · rw [hrev.entries, hentries, List.take_append, List.take_of_length_le hcut]
  · intro e he
    exact hrest e (List.mem_of_mem_take he)
  · intro r' hr'
    rw [hrev.validRevisions] at hr'
    exact h.revisions r' (List.mem_of_mem_take hr')
  · rw [hentries, List.drop_append, List.drop_of_length_le hcut, List.nil_append] at hw
    have hback : w.view.objects a = s.view.objects a :=
      rollback_objects_of_ne hw fun e he => hrest e (List.mem_of_mem_drop he)
    have hview : s'.view = w.view := hrev.le.1
    rw [hview, hback]
    exact h.object

/-- **A run that spares an account** leaves it as it was. -/
theorem runOps_spared {ops : List Op} (hops : Spares a s₀.nextRevisionID ops) (hwf : Wf s)
    (h : Spared a s₀ s) (hrun : runOps s ops = .ok s') : Spared a s₀ s' := by
  induction ops generalizing s with
  | nil =>
      obtain rfl := Except.ok.inj hrun
      exact h
  | cons op ops ih =>
      obtain ⟨s₁, h₁, h₂⟩ := runOps_cons.mp hrun
      obtain ⟨hwrites, hrevert⟩ := hops op List.mem_cons_self
      refine ih (fun op' hop' => hops op' (List.mem_cons_of_mem op hop')) (Op.wf hwf h₁) ?_ h₂
      by_cases hop : op.isVersion = false
      · obtain ⟨new, hstep, htargets⟩ := Op.step hop hwf.ready h₁
        apply h.step hstep
        intro e he
        rcases htargets e he with htarget | htarget
        · rw [htarget]
          exact (Option.some_ne_none a).symm
        · rw [htarget]
          exact hwrites
      · cases op with
        | snapshot =>
            obtain rfl := Except.ok.inj h₁
            exact h.snapshot
        | revertToSnapshot revid => exact h.revertToSnapshot hwf (hrevert revid rfl) h₁
        | _ => exact absurd rfl hop

/-- The account is as dirty as it was. -/
theorem Spared.dirty_iff (h : Spared a s₀ s) (hwf₀ : Wf s₀) (hwf : Wf s) :
    a ∈ s.journal.sortedDirties ↔ a ∈ s₀.journal.sortedDirties := by
  obtain ⟨rest, hentries, hrest⟩ := h.entries
  rw [mem_sortedDirties, mem_sortedDirties, hwf.counts.isSome_iff, hwf₀.counts.isSome_iff, hentries]
  constructor
  · rintro ⟨e, he, hdirtied⟩
    rcases List.mem_append.mp he with he | he
    · exact ⟨e, he, hdirtied⟩
    · exact absurd (JournalEntry.target_of_dirtied hdirtied) (hrest e he)
  · rintro ⟨e, he, hdirtied⟩
    exact ⟨e, List.mem_append_left rest he, hdirtied⟩

end spared

/-! ## The view of a re-created account -/

/-- A state shows a re-created account: empty but for its balance. -/
structure StateDB.ResetTo (s : StateDB σ) (a : Address) (balance : ℤ) : Prop where
  exist : (s.exist a).1 = true
  nonce : (s.getNonce a).1 = 0
  balance : (s.getBalance a).1 = balance
  codeHash : (s.getCodeHash a).1 = emptyCodeHash
  code : ((s.getCode a).1).getD [] = []
  storage : ∀ key, (s.getState a key).1 = .zero 32
  suicided : (s.hasSuicided a).1 = false

/-- The same of the view of an account. -/
def ObjectView.IsReset (o : ObjectView) (balance : ℤ) : Prop :=
  o.account = ⟨0, balance, emptyCodeHash⟩ ∧ o.code.getD [] = [] ∧ (∀ key, o.storage key = .zero 32) ∧
    o.suicided = false

/-- What was reset can be read off the view. -/
theorem resetTo_iff {s : StateDB σ} (hs : s.Coherent) (a : Address) (balance : ℤ) :
    s.ResetTo a balance ↔ ∃ o, s.view.objects a = some o ∧ o.IsReset balance := by
  constructor
  · rintro ⟨hexist, hnonce, hbalance, hhash, hcode, hstorage, hsuicided⟩
    rw [StateDB.exist_fst hs, Option.isSome_iff_exists] at hexist
    obtain ⟨o, ho⟩ := hexist
    simp only [StateDB.getNonce_fst hs, StateDB.getBalance_fst hs, StateDB.getCodeHash_fst hs,
      StateDB.getCode_fst hs, StateDB.getState_fst hs, StateDB.hasSuicided_fst hs, ho,
      Option.map_some, Option.getD_some] at hnonce hbalance hhash hcode hstorage hsuicided
    refine ⟨o, ho, ?_, hcode, hstorage, hsuicided⟩
    rw [← hnonce, ← hbalance, ← hhash]
  · rintro ⟨o, ho, haccount, hcode, hstorage, hsuicided⟩
    constructor
    all_goals
      simp only [StateDB.exist_fst hs, StateDB.getNonce_fst hs, StateDB.getBalance_fst hs,
        StateDB.getCodeHash_fst hs, StateDB.getCode_fst hs, StateDB.getState_fst hs,
        StateDB.hasSuicided_fst hs, ho, Option.map_some, Option.getD_some, Option.isSome_some,
        haccount]
    · exact hcode
    · exact hstorage
    · exact hsuicided

/-- The hash of no code stands for no code. -/
theorem codeView_empty (k : Keeper σ) (ctx : σ) : codeView k ctx none emptyCodeHash = none := by
  simp [codeView]

/-- **A recreated object is reset**, if and only if the store has no slots at its address. -/
theorem recreated_isReset_iff (k : Keeper σ) (ctx : σ) (prev : StateObject) :
    (prev.recreated.view k ctx).IsReset prev.account.balance ↔
      ∀ key, k.getState ctx prev.address key = .zero 32 := by
  have hcode : (prev.recreated.view k ctx).code = codeView k ctx none emptyCodeHash :=
    StateObject.getCode_fst _
  have hstorage : ∀ key, (prev.recreated.view k ctx).storage key = k.getState ctx prev.address key :=
    fun key => StateObject.getState_fst _ key
  constructor
  · rintro ⟨-, -, hzero, -⟩ key
    rw [← hstorage]
    exact hzero key
  · intro hzero
    refine ⟨rfl, ?_, ?_, rfl⟩
    · rw [hcode, codeView_empty]
      rfl
    · intro key
      rw [hstorage]
      exact hzero key

/-- `CreateAccount` keeps the state well-formed. -/
theorem Wf.createAccount {s : StateDB σ} (h : Wf s) (a : Address) : Wf (s.createAccount a) := by
  have hcreate : (Op.createAccount a).run s = .ok (s.createAccount a) := rfl
  exact Op.wf h hcreate

/-- **What `CreateAccount` leaves** at an address that exists: the new object, live, with no
change of what is dirty. -/
theorem Wf.createAccount_of_exist {s : StateDB σ} (h : Wf s) {a : Address}
    (hexist : (s.exist a).1 = true) :
    ∃ prev : StateObject, prev.address = a ∧ prev.account.balance = (s.getBalance a).1 ∧
      (s.createAccount a).view.objects a = some (prev.recreated.view s.keeper s.ctx) ∧
      (s.createAccount a).journal.dirties = s.journal.dirties := by
  have hco := h.ready.coherent
  rcases StateDB.getStateObject_cases h.ready a with ⟨ho, hk, -⟩ | ⟨prev, s', hget, ho, hstep⟩
  · rw [StateDB.exist_fst hco, StateDB.view_objects_of_get_none ho, baseView, hk] at hexist
    exact absurd hexist (by simp)
  · have haddr : prev.address = a := (hstep.ready.coherent a prev ho).address
    refine ⟨prev, haddr, ?_, ?_, ?_⟩
    · rw [StateDB.getBalance_fst hco, ← hstep.view_eq, StateDB.view_objects_of_get ho]
      rfl
    · rw [StateDB.createAccount_of_some hget haddr, StateDB.setStateObject_view]
      have haddr' : prev.recreated.address = a := haddr
      rw [haddr', View.setObject_objects_self]
      show some (prev.recreated.view s'.keeper s'.ctx) = _
      rw [hstep.frame.keeper, hstep.frame.ctx]
    · rw [StateDB.createAccount_of_some hget haddr]
      show s'.journal.dirties = _
      rw [hstep.journal]
      rfl

/-- **A re-created account shows its old storage**, so it shows as reset where it had none. -/
theorem resetTo_createAccount {s : StateDB σ} (h : Wf s) {a : Address}
    (hexist : (s.exist a).1 = true) :
    (s.createAccount a).ResetTo a (s.getBalance a).1 ↔
      ∀ key, s.keeper.getState s.ctx a key = .zero 32 := by
  obtain ⟨prev, haddr, hbalance, hview, -⟩ := h.createAccount_of_exist hexist
  have hwf : Wf (s.createAccount a) := h.createAccount a
  rw [resetTo_iff hwf.ready.coherent, hview, ← hbalance, ← haddr, ← recreated_isReset_iff]
  constructor
  · rintro ⟨o, ho, hreset⟩
    rw [Option.some.inj ho]
    exact hreset
  · intro hreset
    exact ⟨_, rfl, hreset⟩

/-- A fresh state shows a re-created account where the store holds an empty one. -/
theorem resetTo_new (c : σ) (k : Keeper σ) (txConfig : TxConfig) (a : Address) (balance : ℤ) :
    (StateDB.new c k txConfig).ResetTo a balance ↔
      k.getAccount c a = some ⟨0, balance, emptyCodeHash⟩ ∧ ∀ key, k.getState c a key = .zero 32 := by
  have hbase : (StateDB.new c k txConfig).view.objects a = baseView k c a :=
    StateDB.view_objects_of_get_none (s := StateDB.new c k txConfig) (GoMap.get_empty a)
  have hcode : ∀ account : Account, ((newObject a account).view k c).code =
      codeView k c none account.codeHash := fun _ => StateObject.getCode_fst _
  have hstorage : ∀ (account : Account) key, ((newObject a account).view k c).storage key =
      k.getState c a key := fun _ key => StateObject.getState_fst _ key
  rw [resetTo_iff (wf_new c k txConfig).ready.coherent, hbase, baseView]
  constructor
  · rintro ⟨o, ho, haccount, -, hzero, -⟩
    obtain ⟨account, hget, rfl⟩ := Option.map_eq_some_iff.mp ho
    have haccount' : account = ⟨0, balance, emptyCodeHash⟩ := haccount
    rw [haccount'] at hget
    refine ⟨hget, ?_⟩
    intro key
    rw [← hstorage account]
    exact hzero key
  · rintro ⟨hget, hzero⟩
    refine ⟨_, Option.map_eq_some_iff.mpr ⟨_, hget, rfl⟩, rfl, ?_, ?_, rfl⟩
    · rw [hcode, codeView_empty]
      rfl
    · intro key
      rw [hstorage]
      exact hzero key

/-! ## Committing a re-created account -/

/-- **A commit of a re-created account** shows it reset where it has no stored storage and is
dirty, or where the store holds the empty account already. -/
theorem Wf.commit_recreated {s : StateDB σ} (h : Wf s) (hk : s.keeper.Lawful) (txConfig : TxConfig)
    {prev : StateObject} (hview : s.view.objects prev.address = some (prev.recreated.view s.keeper s.ctx)) :
    ∃ c, s.commit s.ctx = .ok () c ∧
      ((StateDB.new c s.keeper txConfig).ResetTo prev.address prev.account.balance ↔
        (∀ key, s.keeper.getState s.ctx prev.address key = .zero 32) ∧
        (prev.address ∈ s.journal.sortedDirties ∨ s.keeper.getAccount s.ctx prev.address =
          some ⟨0, prev.account.balance, emptyCodeHash⟩)) := by
  obtain ⟨c, hrun, hset, hother, -⟩ := commitAll_settles hk h.ready.coherent
    (nodup_sortedDirties s.journal) (fun a ha => h.live_of_dirty ha) (c := s.ctx)
    (fun _ _ => ⟨rfl, rfl⟩)
  refine ⟨c, hrun, ?_⟩
  rw [resetTo_new]
  by_cases hdirty : prev.address ∈ s.journal.sortedDirties
  · -- The commit writes the new object.
    obtain ⟨o, ho⟩ := h.live_of_dirty hdirty
    have hsettled := hset _ hdirty o ho
    have hsame : o.view s.keeper s.ctx = prev.recreated.view s.keeper s.ctx := by
      rw [StateDB.view_objects_of_get ho] at hview
      exact Option.some.inj hview
    have hsuicided : o.suicided = false := congrArg ObjectView.suicided hsame
    have haccount : o.account = ⟨0, prev.account.balance, emptyCodeHash⟩ :=
      congrArg ObjectView.account hsame
    have hstorage : ∀ key, s.keeper.getState c prev.address key =
        s.keeper.getState s.ctx prev.address key := by
      intro key
      rw [hsettled.storage, hsuicided, hsame]
      exact StateObject.getState_fst _ key
    rw [hsettled.account, hsuicided, haccount]
    simp [hstorage, hdirty]
  · -- The commit does not visit the address.
    obtain ⟨haccount, hstorage⟩ := hother _ hdirty
    rw [haccount, hstorage]
    simp [hdirty, and_comm]

/-- The account that a clean address has in the store carries the balance of the address. -/
theorem Wf.stored_empty_iff {s : StateDB σ} (h : Wf s) {a : Address}
    (hclean : a ∉ s.journal.sortedDirties) :
    s.keeper.getAccount s.ctx a = some ⟨0, (s.getBalance a).1, emptyCodeHash⟩ ↔
      ∃ account, s.keeper.getAccount s.ctx a = some account ∧ account.nonce = 0 ∧
        account.codeHash = emptyCodeHash := by
  constructor
  · intro hget
    exact ⟨_, hget, rfl, rfl⟩
  · rintro ⟨account, hget, hnonce, hhash⟩
    have hbalance : (s.getBalance a).1 = account.balance := by
      rw [StateDB.getBalance_fst h.ready.coherent]
      refine (h.balance_of_not_dirty hclean).trans ?_
      rw [hget]
      rfl
    rw [hget, hbalance, ← hnonce, ← hhash]

/-- **A commit after a re-creation**, with any operations in between that spare the account. -/
theorem Wf.commit_after_recreation {s s' : StateDB σ} (h : Wf s) (hk : s.keeper.Lawful)
    (txConfig : TxConfig) {a : Address} (hexist : (s.exist a).1 = true) {ops : List Op}
    (hops : Spares a (s.createAccount a).nextRevisionID ops)
    (hrun : runOps (s.createAccount a) ops = .ok s') :
    ∃ c, s'.commit s'.ctx = .ok () c ∧
      ((StateDB.new c s.keeper txConfig).ResetTo a (s.getBalance a).1 ↔
        (∀ key, s.keeper.getState s.ctx a key = .zero 32) ∧
        (a ∈ s.journal.sortedDirties ∨ ∃ account, s.keeper.getAccount s.ctx a = some account ∧
          account.nonce = 0 ∧ account.codeHash = emptyCodeHash)) := by
  obtain ⟨prev, rfl, hbalance, hview, hdirties⟩ := h.createAccount_of_exist hexist
  have hwf₁ : Wf (s.createAccount prev.address) := h.createAccount prev.address
  have hcreate : (Op.createAccount prev.address).run s = .ok (s.createAccount prev.address) := rfl
  obtain ⟨hkeeper₁, hctx₁, -⟩ := Op.store h hcreate
  have hwf' : Wf s' := runOps_wf hwf₁ hrun
  obtain ⟨hkeeper₂, hctx₂, -⟩ := runOps_store hwf₁ hrun
  have hkeeper : s'.keeper = s.keeper := hkeeper₂.trans hkeeper₁
  have hctx : s'.ctx = s.ctx := hctx₂.trans hctx₁
  have hspared := runOps_spared hops hwf₁ (Spared.refl hwf₁) hrun
  have hview' : s'.view.objects prev.address = some (prev.recreated.view s'.keeper s'.ctx) := by
    rw [hspared.object, hview, hkeeper, hctx]
  obtain ⟨c, hc, hiff⟩ := hwf'.commit_recreated (by rw [hkeeper]; exact hk) txConfig hview'
  refine ⟨c, hc, ?_⟩
  rw [hkeeper, hctx, hbalance, hspared.dirty_iff hwf₁ hwf', mem_sortedDirties, hdirties,
    ← mem_sortedDirties] at hiff
  rw [hiff]
  refine and_congr_right fun _ => ?_
  by_cases hdirty : prev.address ∈ s.journal.sortedDirties
  · simp [hdirty]
  · simp only [hdirty, false_or]
    exact h.stored_empty_iff hdirty

/-- **When re-creating an account resets it for good.** For an account that exists after any run
over a lawful store: `CreateAccount` shows it reset, with the balance it had, and so does a fresh
state over the store after a commit, whatever is done to other accounts in between, exactly if the
store has no non-zero slot of the account, and the account was dirty before it was re-created or is
stored with nonce zero and no code. -/
theorem recreation_iff (k : Keeper σ) (ctx : σ) (txConfig txConfig' : TxConfig) {ops : List Op}
    {s : StateDB σ} {a : Address} (hk : k.Lawful)
    (hrun : runOps (StateDB.new ctx k txConfig) ops = .ok s) (hexist : (s.exist a).1 = true) :
    ((s.createAccount a).ResetTo a (s.getBalance a).1 ∧
      ∀ ops' s', Spares a (s.createAccount a).nextRevisionID ops' →
        runOps (s.createAccount a) ops' = .ok s' →
        ∃ c, s'.commit s'.ctx = .ok () c ∧
          (StateDB.new c k txConfig').ResetTo a (s.getBalance a).1) ↔
    (∀ key, k.getState ctx a key = .zero 32) ∧
      (a ∈ s.journal.sortedDirties ∨ ∃ account, k.getAccount ctx a = some account ∧
        account.nonce = 0 ∧ account.codeHash = emptyCodeHash) := by
  have hwf : Wf s := runOps_wf (wf_new ctx k txConfig) hrun
  obtain ⟨hkeeper, hctx, -⟩ := runOps_store (wf_new ctx k txConfig) hrun
  have hkeeper' : s.keeper = k := hkeeper
  have hctx' : s.ctx = ctx := hctx
  subst hkeeper' hctx'
  rw [resetTo_createAccount hwf hexist]
  constructor
  · rintro ⟨-, hall⟩
    have hspares : Spares a (s.createAccount a).nextRevisionID [] := by simp [Spares]
    obtain ⟨c, hc, hreset⟩ := hall [] _ hspares rfl
    obtain ⟨c', hc', hiff⟩ := hwf.commit_after_recreation hk txConfig' hexist hspares rfl
    obtain ⟨-, rfl⟩ := EStateM.Result.ok.inj (hc'.symm.trans hc)
    exact hiff.mp hreset
  · intro hcond
    refine ⟨hcond.1, ?_⟩
    intro ops' s' hops' hrun'
    obtain ⟨c, hc, hiff⟩ := hwf.commit_after_recreation hk txConfig' hexist hops' hrun'
    exact ⟨c, hc, hiff.mpr hcond⟩

end recreate

/-- A contract with nonce one, code and a slot is re-created and committed at once: the new account
shows the old slot, and the commit leaves nonce and code in the store. -/
theorem recreation_incomplete :
    letI := sampleKeccak
    let a : Address := .ofNat 20 1
    let key : Hash := .ofNat 32 1
    let cfg : TxConfig := .newEmpty (.zero 32)
    let c : MapStore := ⟨GoMap.empty.set a (⟨1, 5, keccak256 [0]⟩, GoMap.empty.set key (.ofNat 32 7)),
      GoMap.empty.set (keccak256 [0]) [0]⟩
    let s := StateDB.new c mapKeeper cfg
    mapKeeper.Lawful ∧ (s.exist a).1 = true ∧ ((s.createAccount a).getNonce a).1 = 0 ∧
      ((s.createAccount a).getState a key).1 = .ofNat 32 7 ∧
      ∃ c', (s.createAccount a).commit c = .ok () c' ∧
        ((StateDB.new c' mapKeeper cfg).getNonce a).1 = 1 ∧
        ((StateDB.new c' mapKeeper cfg).getCode a).1 = some [0] := by
  let _ := sampleKeccak
  intro a key cfg c s
  refine ⟨mapKeeper_lawful, by decide +kernel, by decide +kernel, by decide +kernel, c, ?_, ?_, ?_⟩
  · have hclean : (s.createAccount a).journal.sortedDirties = [] := by decide +kernel
    rw [StateDB.commit, hclean]
    rfl
  · decide +kernel
  · decide +kernel

/-- A new account is funded, re-created and committed, with a transfer to another account that is
reverted before the commit. -/
theorem recreation_of_dirty :
    letI := sampleKeccak
    let a : Address := .ofNat 20 1
    let b : Address := .ofNat 20 2
    let cfg : TxConfig := .newEmpty (.zero 32)
    ∃ s s' c, runOps (StateDB.new MapStore.new mapKeeper cfg) [.addBalance a 5] = .ok s ∧
      runOps (s.createAccount a) [.snapshot, .addBalance b 3, .revertToSnapshot 0] = .ok s' ∧
      s'.commit s'.ctx = .ok () c ∧ (StateDB.new c mapKeeper cfg).ResetTo a 5 := by
  let _ := sampleKeccak
  intro a b cfg
  let s : StateDB MapStore := (StateDB.new MapStore.new mapKeeper cfg).addBalance a 5
  have hrun : runOps (StateDB.new MapStore.new mapKeeper cfg) [.addBalance a 5] = .ok s := rfl
  have hdirty : a ∈ s.journal.sortedDirties := by decide +kernel
  obtain ⟨s', hrun'⟩ : ∃ s', runOps (s.createAccount a)
      [.snapshot, .addBalance b 3, .revertToSnapshot 0] = .ok s' := ⟨_, rfl⟩
  have hspares : Spares a (s.createAccount a).nextRevisionID
      [.snapshot, .addBalance b 3, .revertToSnapshot 0] := by
    intro op hop
    refine ⟨?_, fun _ _ => Nat.zero_le _⟩
    simp only [List.mem_cons, List.not_mem_nil, or_false] at hop
    rcases hop with rfl | rfl | rfl <;> decide
  have hiff := recreation_iff mapKeeper MapStore.new cfg cfg mapKeeper_lawful hrun
    (by decide +kernel : (s.exist a).1 = true)
  obtain ⟨-, hall⟩ := hiff.mpr ⟨fun _ => rfl, Or.inl hdirty⟩
  obtain ⟨c, hcommit, hreset⟩ := hall _ s' hspares hrun'
  exact ⟨s, s', c, hrun, hrun', hcommit, hreset⟩

end Smartdoge.Statedb
