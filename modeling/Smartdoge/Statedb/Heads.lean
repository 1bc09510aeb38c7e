import Smartdoge.Statedb.Commit

/-!
# Nonces and balances along a run

The head of an account is its nonce, its balance and whether it is marked for deletion. Every
operation that does not move between versions changes the heads by a function of its own (`Op.head`):
`AddBalance` and `SubBalance` move a balance, `SetNonce` sets a nonce, `Suicide` clears a balance and
marks the account, a re-creation resets the nonce and carries the balance over, and no other operation
changes a head.

* **`Op.heads`**: what one operation does to the heads. Statements about nonces and balances are
  derived from it.
* **Snapshots** (`RevisionsAt`): what holds of the view at every snapshot holds of the view after
  every revert.
* **`runOps_keeps`**: a property of views that every operation keeps holds after a run, whatever the
  run reverts.
-/

set_option linter.unusedSectionVars false

namespace Smartdoge.Statedb

open Smartdoge.Lib
open Smartdoge.Lib.UndoLog

/-! ## Heads -/

/-- What an account keeps besides its code and storage. -/
structure Head where
  nonce : UInt64
  balance : ℤ
  suicided : Bool
deriving DecidableEq

/-- The head of a new account. -/
def Head.empty : Head := ⟨0, 0, false⟩

def Head.credit (amount : ℤ) (h : Head) : Head := { h with balance := h.balance + amount }

def Head.setNonce (nonce : UInt64) (h : Head) : Head := { h with nonce := nonce }

def ObjectView.head (o : ObjectView) : Head := ⟨o.account.nonce, o.account.balance, o.suicided⟩

def View.head (v : View) (a : Address) : Option Head := (v.objects a).map ObjectView.head

/-- A change of the head at one address. -/
def headAt (a : Address) (g : Option Head → Option Head) (b : Address) (h : Option Head) : Option Head :=
  if b = a then g h else h

/-- What an operation does to the head at each address. Most writes make an account if there is
none. -/
def Op.head : Op → Address → Option Head → Option Head
  | .createAccount a => headAt a fun h => some ⟨0, (h.getD .empty).balance, false⟩
  | .addBalance a amount => headAt a fun h => some ((h.getD .empty).credit amount)
  | .subBalance a amount => headAt a fun h => some ((h.getD .empty).credit (-amount))
  | .setNonce a nonce => headAt a fun h => some ((h.getD .empty).setNonce nonce)
  | .setCode a _ => headAt a fun h => some (h.getD .empty)
  | .setState a _ _ => headAt a fun h => some (h.getD .empty)
  | .suicide a => headAt a (Option.map fun h => ⟨h.nonce, 0, true⟩)
  | _ => fun _ h => h

/-- The head at the address. -/
theorem headAt_self (a : Address) (g : Option Head → Option Head) (h : Option Head) :
    headAt a g a h = g h := if_pos rfl

/-- The heads elsewhere. -/
theorem headAt_of_ne {a b : Address} (hb : b ≠ a) (g : Option Head → Option Head) (h : Option Head) :
    headAt a g b h = h := if_neg hb

/-- Replacing one account. -/
theorem View.head_setObject (v : View) (a b : Address) (o : ObjectView) :
    (v.setObject a (some o)).head b = headAt a (fun _ => some o.head) b (v.head b) := by
  by_cases hb : b = a
  · subst hb
    rw [headAt_self, head, View.setObject_objects_self]
    rfl
  · rw [headAt_of_ne hb, head, View.setObject_objects_of_ne _ hb]
    rfl

variable [Keccak] {σ : Type}

namespace StateDB

/-- The head of an object that was read. -/
theorem head_of_get {s : StateDB σ} {a : Address} {o : StateObject}
    (ho : s.stateObjects.get a = some o) :
    s.view.head a = some ⟨o.account.nonce, o.account.balance, o.suicided⟩ := by
  rw [View.head, view_objects_of_get ho]
  rfl

/-- An address without an account has no head. -/
theorem head_of_missing {s : StateDB σ} {a : Address} (ho : s.stateObjects.get a = none)
    (hk : s.keeper.getAccount s.ctx a = none) : s.view.head a = none := by
  rw [View.head, view_objects_of_get_none ho, baseView, hk]
  rfl

/-- Storing a changed object back, with any entry. -/
theorem heads_write {s : StateDB σ} (hs : Ready s) {a : Address} {o o' : StateObject}
    (ho : s.stateObjects.get a = some o) (g : Head → Head) (e : JournalEntry)
    (haddr : o'.address = o.address)
    (hhead : (o'.view s.keeper s.ctx).head = g ⟨o.account.nonce, o.account.balance, o.suicided⟩) :
    ∀ b, ((s.append e).setStateObject o').view.head b = headAt a (Option.map g) b (s.view.head b) := by
  intro b
  rw [setStateObject_view, View.head_setObject, haddr, (hs.coherent a o ho).address]
  by_cases hb : b = a
  · subst hb
    rw [headAt_self, headAt_self, head_of_get ho, Option.map_some, ← hhead]
    rfl
  · rw [headAt_of_ne hb, headAt_of_ne hb]
    rfl

/-- Getting or making an object. -/
theorem heads_getOrNewStateObject {s : StateDB σ} (hs : Ready s) (a : Address) :
    ∃ o s', s.getOrNewStateObject a = (o, s') ∧ s'.stateObjects.get a = some o ∧ Ready s' ∧
      ∀ b, s'.view.head b = headAt a (fun h => some (h.getD .empty)) b (s.view.head b) := by
  unfold getOrNewStateObject
  rcases getStateObject_cases hs a with ⟨ho, hk, hget⟩ | ⟨o, s', hget, ho, hstep⟩
  · simp only [hget, createObject]
    refine ⟨_, _, rfl, ?_, (step_create hs ho hk).ready, ?_⟩
    · simp [setStateObject, newObject]
    · intro b
      rw [setStateObject_view, View.head_setObject]
      by_cases hb : b = a
      · subst hb
        rw [headAt_self, head_of_missing ho hk]
        exact headAt_self _ _ _
      · rw [headAt_of_ne hb]
        exact headAt_of_ne hb _ _
  · rw [hget]
    refine ⟨o, s', rfl, ho, hstep.ready, ?_⟩
    intro b
    rw [← hstep.view_eq]
    by_cases hb : b = a
    · subst hb
      rw [headAt_self, head_of_get ho]
      rfl
    · rw [headAt_of_ne hb]

/-- An operation that gets or makes an object and then works on it. -/
theorem heads_onObject {s : StateDB σ} (hs : Ready s) (a : Address) (g : Head → Head)
    {f : StateDB σ → StateObject → StateDB σ}
    (hf : ∀ s' o, Ready s' → s'.stateObjects.get a = some o →
      ∀ b, (f s' o).view.head b = headAt a (Option.map g) b (s'.view.head b)) (b : Address) :
    (f (s.getOrNewStateObject a).2 (s.getOrNewStateObject a).1).view.head b =
      headAt a (fun h => some (g (h.getD .empty))) b (s.view.head b) := by
  obtain ⟨o, s', hget, ho, hs', hnew⟩ := heads_getOrNewStateObject hs a
  rw [hget, hf s' o hs' ho b, hnew b]
  by_cases hb : b = a
  · subst hb
    simp only [headAt_self, Option.map_some]
  · simp only [headAt_of_ne hb]

/-- A write that leaves the head of a live object as it is. -/
theorem headAt_map_id (a b : Address) (h : Option Head) : headAt a (Option.map id) b h = h := by
  unfold headAt
  split_ifs <;> simp

/-- The heads after `AddBalance`. -/
theorem heads_addBalance {s : StateDB σ} (hs : Ready s) (a : Address) (amount : ℤ) (b : Address) :
    (s.addBalance a amount).view.head b = (Op.addBalance a amount).head b (s.view.head b) := by
  refine heads_onObject hs a (Head.credit amount) (f := fun s o => s.objectAddBalance o amount) ?_ b
  intro s' o hs' ho
  unfold objectAddBalance
  split_ifs with h0
  · have hid : Head.credit amount = id := by
      funext h
      simp [Head.credit, h0]
    intro b
    rw [hid, headAt_map_id]
  · exact heads_write hs' ho _ _ rfl rfl

/-- The heads after `SubBalance`. -/
theorem heads_subBalance {s : StateDB σ} (hs : Ready s) (a : Address) (amount : ℤ) (b : Address) :
    (s.subBalance a amount).view.head b = (Op.subBalance a amount).head b (s.view.head b) := by
  refine heads_onObject hs a (Head.credit (-amount)) (f := fun s o => s.objectSubBalance o amount) ?_ b
  intro s' o hs' ho
  unfold objectSubBalance
  split_ifs with h0
  · have hid : Head.credit (-amount) = id := by
      funext h
      simp [Head.credit, h0]
    intro b
    rw [hid, headAt_map_id]
  · refine heads_write hs' ho _ _ rfl ?_
    simp only [Head.credit, ← sub_eq_add_neg]
    rfl

/-- The heads after `SetNonce`. -/
theorem heads_setNonce {s : StateDB σ} (hs : Ready s) (a : Address) (nonce : UInt64) (b : Address) :
    (s.setNonce a nonce).view.head b = (Op.setNonce a nonce).head b (s.view.head b) :=
  heads_onObject hs a (Head.setNonce nonce) (f := fun s o => s.objectSetNonce o nonce)
    (fun _ _ hs' ho => heads_write hs' ho _ _ rfl rfl) b

/-- The heads after `SetCode`. -/
theorem heads_setCode {s : StateDB σ} (hs : Ready s) (a : Address) (code : Option Bytes)
    (b : Address) :
    (s.setCode a code).view.head b = (Op.setCode a code).head b (s.view.head b) := by
  refine heads_onObject hs a id
    (f := fun s o => s.objectSetCode o (keccak256 (code.getD [])) code) ?_ b
  intro s' o hs' ho
  simp only [objectSetCode]
  refine heads_write hs' ho id _ ?_ ?_
  · simp only [StateObject.setCode, StateObject.getCode_snd]
  · simp only [StateObject.setCode, StateObject.getCode_snd]
    rfl

/-- The heads after `SetState`. -/
theorem heads_setState {s : StateDB σ} (hs : Ready s) (a : Address) (key value : Hash) (b : Address) :
    (s.setState a key value).view.head b = (Op.setState a key value).head b (s.view.head b) := by
  refine heads_onObject hs a id (f := fun s o => s.objectSetState o key value) ?_ b
  intro s' o hs' ho
  have hread : ((o.getState s'.keeper s'.ctx key).2).view s'.keeper s'.ctx =
      o.view s'.keeper s'.ctx := o.getState_snd_view key
  have haddr := ((hs'.coherent a o ho).getState_snd key).1.address
  rw [← (hs'.coherent a o ho).address] at haddr
  simp only [objectSetState]
  split_ifs
  · intro b
    rw [setStateObject_view, haddr, (hs'.coherent a o ho).address, hread,
      View.setObject_eq_self (view_objects_of_get ho), headAt_map_id]
  · exact heads_write hs' ho id _ haddr (congrArg ObjectView.head hread)

/-- The heads after `Suicide`. -/
theorem heads_suicide {s : StateDB σ} (hs : Ready s) (a : Address) :
    ∀ b, (s.suicide a).2.view.head b = (Op.suicide a).head b (s.view.head b) := by
  unfold suicide
  simp only [Op.head]
  rcases getStateObject_cases hs a with ⟨ho, hk, hget⟩ | ⟨o, s', hget, ho, hstep⟩
  · rw [hget]
    intro b
    by_cases hb : b = a
    · subst hb
      rw [headAt_self, head_of_missing ho hk]
      rfl
    · rw [headAt_of_ne hb]
  · rw [hget, ← hstep.view_eq]
    exact heads_write hstep.ready ho _ _ rfl rfl

/-- A re-creation resets the nonce and carries the balance over. -/
theorem heads_createAccount {s : StateDB σ} (hs : Ready s) (a b : Address) :
    (s.createAccount a).view.head b = (Op.createAccount a).head b (s.view.head b) := by
  unfold createAccount createObject
  simp only [Op.head]
  rcases getStateObject_cases hs a with ⟨ho, hk, hget⟩ | ⟨prev, s', hget, ho, hstep⟩
  · simp only [hget, setStateObject_view, View.head_setObject, append_view]
    by_cases hb : b = a
    · subst hb
      rw [headAt_self, head_of_missing ho hk]
      exact headAt_self _ _ _
    · rw [headAt_of_ne hb]
      exact headAt_of_ne hb _ _
  · simp only [hget, setStateObject_view, View.head_setObject, append_view, ← hstep.view_eq]
    by_cases hb : b = a
    · subst hb
      rw [headAt_self b, head_of_get ho]
      exact headAt_self _ _ _
    · rw [headAt_of_ne hb]
      exact (headAt_of_ne hb _ _).trans (headAt_of_ne hb _ _)

/-- The access list holds no accounts. -/
theorem addSlotToAccessList_objects {s s' : StateDB σ} {a : Address} {slot : Hash}
    (h : s.addSlotToAccessList a slot = .ok s') : s'.view.objects = s.view.objects := by
  unfold addSlotToAccessList at h
  cases hadd : s.accessList.addSlot a slot with
  | error p =>
      rw [hadd] at h
      exact absurd h (by simp [bind, Except.bind])
  | ok r =>
      rw [hadd] at h
      obtain rfl := Except.ok.inj h
      split_ifs <;> rfl

/-- The access list has nothing to do with the objects. -/
theorem addAddressToAccessList_objects (s : StateDB σ) (a : Address) :
    (s.addAddressToAccessList a).view.objects = s.view.objects := by
  simp only [addAddressToAccessList]
  split_ifs <;> rfl

/-- Neither has the refund counter. -/
theorem subRefund_objects {s s' : StateDB σ} {gas : UInt64} (h : s.subRefund gas = .ok s') :
    s'.view.objects = s.view.objects := by
  simp only [subRefund] at h
  split_ifs at h
  obtain rfl := Except.ok.inj h
  rfl

end StateDB

/-- **What an operation does to the heads**, unless it moves between versions. -/
theorem Op.heads {op : Op} (hop : op.isVersion = false) {s s' : StateDB σ} (hs : Ready s)
    (h : op.run s = .ok s') (b : Address) : s'.view.head b = op.head b (s.view.head b) := by
  have hobjects : s'.view.objects = s.view.objects → s'.view.head b = s.view.head b :=
    fun heq => congrArg (Option.map ObjectView.head) (congrFun heq b)
  cases op with
  | addLog log | addRefund gas =>
      obtain rfl := Except.ok.inj h
      exact hobjects rfl
  | subRefund gas => exact hobjects (StateDB.subRefund_objects h)
  | createAccount a =>
      obtain rfl := Except.ok.inj h
      exact StateDB.heads_createAccount hs a b
  | addBalance a amount =>
      obtain rfl := Except.ok.inj h
      exact StateDB.heads_addBalance hs a amount b
  | subBalance a amount =>
      obtain rfl := Except.ok.inj h
      exact StateDB.heads_subBalance hs a amount b
  | setNonce a nonce =>
      obtain rfl := Except.ok.inj h
      exact StateDB.heads_setNonce hs a nonce b
  | setCode a code =>
      obtain rfl := Except.ok.inj h
      exact StateDB.heads_setCode hs a code b
  | setState a key value =>
      obtain rfl := Except.ok.inj h
      exact StateDB.heads_setState hs a key value b
  | suicide a =>
      obtain rfl := Except.ok.inj h
      exact StateDB.heads_suicide hs a b
  | addAddressToAccessList a =>
      obtain rfl := Except.ok.inj h
      exact hobjects (s.addAddressToAccessList_objects a)
  | addSlotToAccessList a slot => exact hobjects (StateDB.addSlotToAccessList_objects h)
  | exist a | empty a | getBalance a | getNonce a | getCode a | getCodeSize a | getCodeHash a
  | getState a key | getCommittedState a key | hasSuicided a | forEachStorage a | readOnly =>
      -- A getter journals nothing, so it leaves the whole view alone.
      exact hobjects (congrArg View.objects (Op.step_getter rfl hs h).view_eq)
  | snapshot => simp [isVersion] at hop
  | revertToSnapshot revid => simp [isVersion] at hop

/-! ## Properties of the views at snapshots -/

/-- A property of the views that the valid revisions lead back to. -/
def RevisionsAt (Q : View → Prop) (s : StateDB σ) : Prop :=
  ∀ r ∈ s.validRevisions, ∃ w,
    Rollback (Undo s.keeper s.ctx) (s.journal.entries.drop r.journalIndex) s.abs w ∧ Q w.view

section revisions

variable {Q : View → Prop} {s s' : StateDB σ}

/-- There is no snapshot at first. -/
theorem RevisionsAt.new (ctx : σ) (k : Keeper σ) (txConfig : TxConfig) :
    RevisionsAt Q (StateDB.new ctx k txConfig) := by
  intro r hr
  simp [StateDB.new] at hr

/-- A step leaves the snapshots as they are. -/
theorem RevisionsAt.step (h : RevisionsAt Q s) (hwf : Wf s) {new : List JournalEntry}
    (hstep : Step s s' new) : RevisionsAt Q s' := by
  intro r hr
  rw [hstep.frame.validRevisions] at hr
  obtain ⟨w, hw, hQ⟩ := h r hr
  obtain ⟨u, hu, hle⟩ := hstep.undo
  obtain ⟨w', hw', hle'⟩ := rollback_undo_mono hw hle
  rw [hstep.journal, foldl_append_entries, hstep.frame.keeper, hstep.frame.ctx]
  refine ⟨w', Rollback.drop_extend (hwf.revisions.bound r hr) hu hw', ?_⟩
  rw [hle'.1]
  exact hQ

/-- A snapshot is taken of the state as it is. -/
theorem RevisionsAt.snapshot (h : RevisionsAt Q s) (hs : Q s.view) : RevisionsAt Q s.snapshot.2 := by
  intro r hr
  rcases List.mem_append.mp hr with hr | hr
  · exact h r hr
  · rw [List.mem_singleton.mp hr]
    refine ⟨s.abs, ?_, hs⟩
    show Rollback _ (s.journal.entries.drop s.journal.entries.length) s.abs s.abs
    rw [List.drop_length]
    rfl

/-- A revert goes to a view of which the property holds, and the older snapshots keep it. -/
theorem RevisionsAt.revertToSnapshot (h : RevisionsAt Q s) (hwf : Wf s) {revid : ℕ}
    (hrun : s.revertToSnapshot revid = .ok s') : Q s'.view ∧ RevisionsAt Q s' := by
  obtain ⟨i, r, hr, -, -, hto⟩ := hwf.revertToSnapshot hrun
  obtain ⟨w, hw, hQ⟩ := h r (List.mem_of_getElem? hr)
  have hrev := hto w hw
  refine ⟨by rw [show s'.view = w.view from hrev.le.1]; exact hQ, ?_⟩
  intro r' hr'
  rw [hrev.validRevisions] at hr'
  have hle := hwf.revisions.index_le hr hr'
  obtain ⟨u, hu, hQu⟩ := h r' (List.mem_of_mem_take hr')
  -- The rollback to the older snapshot passes through the point reverted to.
  obtain ⟨x, hx, hrest⟩ := hu.split (r.journalIndex - r'.journalIndex)
  rw [List.drop_drop, Nat.add_sub_cancel' hle] at hx
  rw [← List.drop_take] at hrest
  obtain ⟨u', hu', hle'⟩ := rollback_undo_mono hrest (hto x hx).le
  rw [hrev.entries, hrev.keeper, hrev.ctx]
  exact ⟨u', hu', by rw [hle'.1]; exact hQu⟩

end revisions

/-- **The rule for runs.** A property of the view that every operation of a run keeps, and that held at
the snapshots the run can go back to, holds after it. -/
theorem runOps_keepsView {Q : View → Prop} {ops : List Op} {s s' : StateDB σ}
    (hkeep : ∀ op ∈ ops, op.isVersion = false → ∀ t t' : StateDB σ, Ready t → t.txConfig = s.txConfig →
      op.run t = .ok t' → Q t.view → Q t'.view)
    (hwf : Wf s) (hs : Q s.view) (hrev : RevisionsAt Q s) (hrun : runOps s ops = .ok s') :
    Q s'.view ∧ RevisionsAt Q s' := by
  induction ops generalizing s with
  | nil =>
      obtain rfl := Except.ok.inj hrun
      exact ⟨hs, hrev⟩
  | cons op ops ih =>
      obtain ⟨s₁, h₁, h₂⟩ := runOps_cons.mp hrun
      have hone : Q s₁.view ∧ RevisionsAt Q s₁ := by
        by_cases hversion : op.isVersion = false
        · obtain ⟨new, hstep, -⟩ := Op.step hversion hwf.ready h₁
          exact ⟨hkeep op List.mem_cons_self hversion s s₁ hwf.ready rfl h₁ hs, hrev.step hwf hstep⟩
        · cases op with
          | snapshot =>
              obtain rfl := Except.ok.inj h₁
              exact ⟨hs, hrev.snapshot hs⟩
          | revertToSnapshot revid => exact hrev.revertToSnapshot hwf h₁
          | _ => exact absurd rfl hversion
      have hconfig : s₁.txConfig = s.txConfig := (Op.store hwf h₁).2.2
      refine ih ?_ (Op.wf hwf h₁) hone.1 hone.2 h₂
      intro op' hop' hversion t t' ht hcfg
      exact hkeep op' (List.mem_cons_of_mem op hop') hversion t t' ht (hcfg.trans hconfig)

/-- The same for a property of the heads. -/
theorem runOps_keeps {Q : (Address → Option Head) → Prop} {ops : List Op}
    (hkeep : ∀ op ∈ ops, ∀ head, Q head → Q fun b => op.head b (head b)) {s s' : StateDB σ}
    (hwf : Wf s) (hs : Q s.view.head) (hrev : RevisionsAt (fun v => Q v.head) s)
    (hrun : runOps s ops = .ok s') : Q s'.view.head ∧ RevisionsAt (fun v => Q v.head) s' := by
  refine runOps_keepsView ?_ hwf hs hrev hrun
  intro op hop hversion t t' ht _ hrun hQ
  rw [funext (Op.heads hversion ht hrun)]
  exact hkeep op hop _ hQ

/-! ## Accounts that exist -/

/-- No operation takes an account away: one that is marked for deletion is there until the commit. -/
theorem Op.isSome_head (op : Op) (b : Address) {h : Option Head} (hh : h.isSome) : (op.head b h).isSome := by
  cases op with
  | createAccount a | addBalance a amount | subBalance a amount | setNonce a nonce | setCode a code
  | setState a key value =>
      simp only [Op.head, headAt]
      split_ifs
      · rfl
      · exact hh
  | suicide a =>
      simp only [Op.head, headAt]
      split_ifs
      · rwa [Option.isSome_map]
      · exact hh
  | _ => exact hh

/-- **An account that exists is there after a run** from a fresh `StateDB`, whatever the run reverts. -/
theorem runOps_exists {st : σ} {keeper : Keeper σ} {txConfig : TxConfig} {a : Address} {ops : List Op}
    {s : StateDB σ} (hnew : ((StateDB.new st keeper txConfig).view.head a).isSome)
    (hrun : runOps (StateDB.new st keeper txConfig) ops = .ok s) : (s.view.head a).isSome :=
  (runOps_keeps (Q := fun head => (head a).isSome) (fun op _ _ hQ => op.isSome_head a hQ)
    (wf_new st keeper txConfig) hnew (RevisionsAt.new _ _ _) hrun).1

/-! ## Nonces -/

/-- Whether an operation leaves the nonce of an account alone and does not delete the account. -/
def Op.keepsNonce (a : Address) : Op → Bool
  | .setNonce b _ => b ≠ a
  | .createAccount b => b ≠ a
  | .suicide b => b ≠ a
  | _ => true

/-- An account that is not marked for deletion. -/
def Live (a : Address) (head : Address → Option Head) : Prop :=
  ((head a).getD .empty).suicided = false

/-- A live account with a given nonce; a missing account has nonce 0. -/
structure HasNonce (a : Address) (nonce : UInt64) (head : Address → Option Head) : Prop where
  nonce : ((head a).getD .empty).nonce = nonce
  live : Live a head

/-- Only `Suicide` ends an account. -/
theorem Op.live {op : Op} {a : Address} (hop : op ≠ .suicide a) {head : Address → Option Head}
    (h : Live a head) : Live a fun b => op.head b (head b) := by
  unfold Live at h ⊢
  cases op with
  | suicide b =>
      have hne : a ≠ b := by
        rintro rfl
        exact hop rfl
      simp only [Op.head, headAt_of_ne hne]
      exact h
  | createAccount b | addBalance b amount | subBalance b amount | setNonce b nonce | setCode b code
  | setState b key value =>
      simp only [Op.head, headAt]
      split_ifs <;> simp [Head.credit, Head.setNonce, h]
  | _ => exact h

/-- An operation that keeps the nonce of an account keeps it. -/
theorem Op.hasNonce {op : Op} {a : Address} {nonce : UInt64} (hop : op.keepsNonce a = true)
    {head : Address → Option Head} (h : HasNonce a nonce head) :
    HasNonce a nonce fun b => op.head b (head b) := by
  refine ⟨?_, Op.live ?_ h.live⟩
  · have hnonce := h.nonce
    cases op with
    | suicide b | createAccount b | setNonce b n =>
        have hne : a ≠ b := fun hab => by simp [keepsNonce, hab] at hop
        simp only [Op.head, headAt_of_ne hne]
        exact hnonce
    | addBalance b amount | subBalance b amount | setCode b code | setState b key value =>
        simp only [Op.head, headAt]
        split_ifs <;> simp [Head.credit, hnonce]
    | _ => exact hnonce
  · rintro rfl
    simp [keepsNonce] at hop

/-- `SetNonce` of a live account. -/
theorem Live.setNonce {a : Address} {head : Address → Option Head} (h : Live a head) (nonce : UInt64) :
    HasNonce a nonce fun b => (Op.setNonce a nonce).head b (head b) := by
  refine ⟨?_, ?_⟩
  · simp only [Op.head, headAt_self]
    rfl
  · simp only [Live, Op.head, headAt_self]
    exact h

/-- `SetNonce` makes its account dirty. -/
theorem StateDB.mem_dirties_setNonce (s : StateDB σ) (hs : Ready s) (a : Address) (nonce : UInt64) :
    a ∈ (s.setNonce a nonce).journal.sortedDirties := by
  obtain ⟨o, s', hget, ho, hs', -⟩ := heads_getOrNewStateObject hs a
  rw [mem_sortedDirties, setNonce, hget]
  have haddr := (hs'.coherent a o ho).address
  show ((s'.journal.append (.nonceChange o.address o.account.nonce)).dirties.get a).isSome
  rw [haddr]
  simp [Journal.append, JournalEntry.dirtied]

end Smartdoge.Statedb
