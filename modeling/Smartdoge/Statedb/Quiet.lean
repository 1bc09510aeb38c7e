import Smartdoge.Statedb.Balances

/-!
# Runs that leave no trace

An execution that fails has read, has filled the access list, has perhaps changed the nonce of its
caller, and has reverted the rest. `OnlyNonce` says what such a run leaves behind: no account but the
caller's is changed or dirty, and of the caller's account only the nonce is changed.

* **`Op.onlyNonce`**: the operations outside the snapshot (`Op.isQuiet`).
* **`restored_onlyNonce`**: a run that is quiet up to a snapshot and goes back to that snapshot
  (`Restored`).
* `prepareAccessList_run`: `PrepareAccessList` is a run of quiet operations.
-/

set_option linter.unusedSectionVars false

namespace Smartdoge.Statedb

open Smartdoge.Lib

variable [Keccak] {σ : Type}

/-! ## Quiet operations -/

/-- Operations that only read or fill the access list, and `SetNonce` of the caller. -/
def Op.isQuiet (caller : Option Address) : Op → Bool
  | .setNonce a _ => caller = some a
  | .addAddressToAccessList _ => true
  | .addSlotToAccessList _ _ => true
  | .exist _ => true
  | .empty _ => true
  | .getBalance _ => true
  | .getNonce _ => true
  | .getCode _ => true
  | .getCodeSize _ => true
  | .getCodeHash _ => true
  | .getState _ _ => true
  | .getCommittedState _ _ => true
  | .hasSuicided _ => true
  | .forEachStorage _ => true
  | .readOnly => true
  | _ => false

/-- An operation that is quiet for nobody keeps all nonces. -/
theorem Op.keepsNonce_of_quiet {op : Op} (h : op.isQuiet none = true) (a : Address) :
    op.keepsNonce a = true := by
  cases op <;> first | rfl | simp [Op.isQuiet] at h

/-- It is no suicide. -/
theorem Op.ne_suicide_of_quiet {op : Op} (h : op.isQuiet none = true) (a : Address) :
    op ≠ .suicide a := by
  rintro rfl
  simp [Op.isQuiet] at h

/-- It debits nobody. -/
theorem Op.debits_of_quiet {op : Op} (h : op.isQuiet none = true) (c : Address) :
    op.debits c = false := by
  cases op <;> first | rfl | simp [Op.isQuiet] at h

/-- An account with another nonce. -/
def ObjectView.setNonce (o : ObjectView) (nonce : UInt64) : ObjectView :=
  { o with account := { o.account with nonce := nonce } }

/-- The account at an address, an empty one if there is none. -/
def StateDB.objectOrEmpty (s : StateDB σ) (a : Address) : ObjectView :=
  (s.view.objects a).getD ((newObject a .newEmpty).view s.keeper s.ctx)

/-- No account but the caller's changed or became dirty, and of the caller's at most the nonce
changed. -/
structure OnlyNonce (caller : Option Address) (s s' : StateDB σ) : Prop where
  keeper : s'.keeper = s.keeper
  ctx : s'.ctx = s.ctx
  objects : ∀ b, caller ≠ some b → s'.view.objects b = s.view.objects b
  dirties : ∀ b, caller ≠ some b → s'.journal.dirties.get b = s.journal.dirties.get b
  nonce : ∀ a, caller = some a → s'.view.objects a = s.view.objects a ∨
    ∃ n, s'.view.objects a = some ((s.objectOrEmpty a).setNonce n)

namespace OnlyNonce

variable {caller : Option Address} {s s' s'' : StateDB σ}

/-- A change that leaves every account and the dirty map alone. -/
theorem of_same (hk : s'.keeper = s.keeper) (hc : s'.ctx = s.ctx)
    (ho : s'.view.objects = s.view.objects) (hd : s'.journal.dirties = s.journal.dirties) :
    OnlyNonce caller s s' where
  keeper := hk
  ctx := hc
  objects := fun b _ => congrFun ho b
  dirties := fun b _ => congrArg (GoMap.get · b) hd
  nonce := fun a _ => Or.inl (congrFun ho a)

/-- Nothing changes. -/
theorem refl (s : StateDB σ) : OnlyNonce caller s s := of_same rfl rfl rfl rfl

/-- A step that records nothing. -/
theorem of_step (h : Step s s' []) : OnlyNonce caller s s' :=
  of_same h.frame.keeper h.frame.ctx (congrArg View.objects h.view_eq)
    (congrArg Journal.dirties h.journal)

/-- A return to an earlier state. -/
theorem of_returned (h : Returned s s') : OnlyNonce caller s s' :=
  of_same h.keeper h.ctx (congrArg View.objects h.view) h.dirties

/-- One change after the other. -/
theorem trans (h : OnlyNonce caller s s') (h' : OnlyNonce caller s' s'') :
    OnlyNonce caller s s'' where
  keeper := h'.keeper.trans h.keeper
  ctx := h'.ctx.trans h.ctx
  objects := fun b hb => (h'.objects b hb).trans (h.objects b hb)
  dirties := fun b hb => (h'.dirties b hb).trans (h.dirties b hb)
  nonce := by
    intro a ha
    -- The second run starts from the same account, up to its nonce.
    have hbase : ∀ n, (s'.objectOrEmpty a).setNonce n = (s.objectOrEmpty a).setNonce n := by
      intro n
      unfold StateDB.objectOrEmpty
      rw [h.keeper, h.ctx]
      rcases h.nonce a ha with heq | ⟨m, hm⟩
      · rw [heq]
      · rw [hm]
        rfl
    rcases h'.nonce a ha with heq | ⟨n, hn⟩
    · rw [heq]
      exact h.nonce a ha
    · exact Or.inr ⟨n, hn.trans (congrArg some (hbase n))⟩

end OnlyNonce

/-- Adding a slot to the access list dirties nobody. -/
theorem StateDB.addSlotToAccessList_dirties {s s' : StateDB σ} {a : Address} {slot : Hash}
    (h : s.addSlotToAccessList a slot = .ok s') : s'.journal.dirties = s.journal.dirties := by
  unfold addSlotToAccessList at h
  cases hadd : s.accessList.addSlot a slot with
  | error p =>
      rw [hadd] at h
      exact absurd h (by simp [bind, Except.bind])
  | ok r =>
      rw [hadd] at h
      obtain rfl := Except.ok.inj h
      split_ifs <;> rfl

/-- Neither does adding an address. -/
theorem StateDB.addAddressToAccessList_dirties (s : StateDB σ) (a : Address) :
    (s.addAddressToAccessList a).journal.dirties = s.journal.dirties := by
  simp only [addAddressToAccessList]
  split_ifs <;> rfl

/-- Making an account dirty does not make another one dirty. -/
theorem Journal.append_dirties_of_ne (j : Journal) {e : JournalEntry} {a b : Address}
    (he : e.dirtied = some a) (hb : b ≠ a) : (j.append e).dirties.get b = j.dirties.get b := by
  simp only [append, he]
  exact GoMap.get_set_of_ne _ hb _

/-- Setting the nonce of the object that is live at `a` in `s'`, where `s'` is `s` with the account at
`a` made if there was none. -/
theorem StateDB.objectSetNonce_onlyNonce {s s' : StateDB σ} {a : Address} {o : StateObject}
    (nonce : UInt64) (ho : s'.stateObjects.get a = some o) (haddr : o.address = a)
    (hk : s'.keeper = s.keeper) (hc : s'.ctx = s.ctx)
    (hothers : ∀ b, b ≠ a → s'.view.objects b = s.view.objects b)
    (hdirty : ∀ b, b ≠ a → s'.journal.dirties.get b = s.journal.dirties.get b)
    (hview : s'.view.objects a = some (s.objectOrEmpty a)) :
    OnlyNonce (some a) s (s'.objectSetNonce o nonce) ∧
      (s'.objectSetNonce o nonce).view.objects a = some ((s.objectOrEmpty a).setNonce nonce) := by
  have hov : o.view s'.keeper s'.ctx = s.objectOrEmpty a := by
    rw [view_objects_of_get ho] at hview
    exact Option.some.inj hview
  have hset : (s'.objectSetNonce o nonce).view =
      s'.view.setObject a (some ((s.objectOrEmpty a).setNonce nonce)) := by
    rw [objectSetNonce, setStateObject_view, append_view, ← hov]
    show s'.view.setObject o.address (some ((o.setNonce nonce).view s'.keeper s'.ctx)) = _
    rw [haddr, StateObject.setNonce_view]
    rfl
  have hself : (s'.objectSetNonce o nonce).view.objects a =
      some ((s.objectOrEmpty a).setNonce nonce) := by
    rw [hset]
    exact View.setObject_objects_self _ _ _
  refine ⟨⟨hk, hc, ?_, ?_, ?_⟩, hself⟩
  · intro b hb
    have hba : b ≠ a := fun h => hb (congrArg some h.symm)
    rw [hset, View.setObject_objects_of_ne _ hba]
    exact hothers b hba
  · intro b hb
    have hba : b ≠ a := fun h => hb (congrArg some h.symm)
    refine (Journal.append_dirties_of_ne _ ?_ hba).trans (hdirty b hba)
    show some o.address = some a
    rw [haddr]
  · rintro b ⟨⟩
    exact Or.inr ⟨nonce, hself⟩

/-- `SetNonce` changes the nonce of one account, which it makes if there is none. -/
theorem StateDB.setNonce_onlyNonce {s : StateDB σ} (hs : Ready s) (a : Address) (nonce : UInt64) :
    OnlyNonce (some a) s (s.setNonce a nonce) ∧
      (s.setNonce a nonce).view.objects a = some ((s.objectOrEmpty a).setNonce nonce) := by
  unfold setNonce getOrNewStateObject
  rcases getStateObject_cases hs a with ⟨ho, hk, hget⟩ | ⟨o, s', hget, ho, hstep⟩
  · have hnone : s.view.objects a = none := by
      rw [view_objects_of_get_none ho, baseView, hk]
      rfl
    simp only [hget, createObject]
    refine objectSetNonce_onlyNonce nonce ?_ rfl rfl rfl ?_ ?_ ?_
    · simp [setStateObject, newObject]
    · intro b hb
      rw [setStateObject_view]
      exact View.setObject_objects_of_ne _ hb _
    · intro b hb
      exact Journal.append_dirties_of_ne _ rfl hb
    · rw [setStateObject_view, objectOrEmpty, hnone]
      exact View.setObject_objects_self _ _ _
  · simp only [hget]
    have hview := view_objects_of_get ho
    refine objectSetNonce_onlyNonce nonce ho (hstep.ready.coherent a o ho).address
      hstep.frame.keeper hstep.frame.ctx ?_ ?_ ?_
    · intro b _
      rw [hstep.view_eq]
    · intro b _
      rw [hstep.journal]
      rfl
    · rw [objectOrEmpty, ← hstep.view_eq, hview]
      rfl

/-- **A quiet operation leaves no trace** but perhaps the nonce of the caller. -/
theorem Op.onlyNonce {op : Op} {caller : Option Address} (hop : op.isQuiet caller = true)
    {s s' : StateDB σ} (hs : Ready s) (h : op.run s = .ok s') : OnlyNonce caller s s' := by
  cases op with
  | setNonce a nonce =>
      obtain rfl := Except.ok.inj h
      have hcaller : caller = some a := by simpa [isQuiet] using hop
      rw [hcaller]
      exact (StateDB.setNonce_onlyNonce hs a nonce).1
  | addAddressToAccessList a =>
      obtain rfl := Except.ok.inj h
      obtain ⟨new, hstep, -⟩ := StateDB.step_addAddressToAccessList hs a
      exact OnlyNonce.of_same hstep.frame.keeper hstep.frame.ctx
        (s.addAddressToAccessList_objects a) (s.addAddressToAccessList_dirties a)
  | addSlotToAccessList a slot =>
      obtain ⟨s₁, new, hrun, hstep, -⟩ := StateDB.step_addSlotToAccessList hs a slot
      obtain rfl := Except.ok.inj (hrun.symm.trans h)
      exact OnlyNonce.of_same hstep.frame.keeper hstep.frame.ctx
        (StateDB.addSlotToAccessList_objects h) (StateDB.addSlotToAccessList_dirties h)
  | exist a | empty a | getBalance a | getNonce a | getCode a | getCodeSize a | getCodeHash a
  | getState a key | getCommittedState a key | hasSuicided a | forEachStorage a | readOnly =>
      exact OnlyNonce.of_step (Op.step_getter rfl hs h)
  | _ => simp [isQuiet] at hop

/-- A run of quiet operations. -/
theorem runOps_onlyNonce {ops : List Op} {caller : Option Address}
    (hops : ∀ op ∈ ops, op.isQuiet caller = true) {s s' : StateDB σ} (hwf : Wf s)
    (hrun : runOps s ops = .ok s') : OnlyNonce caller s s' := by
  induction ops generalizing s with
  | nil =>
      obtain rfl := Except.ok.inj hrun
      exact OnlyNonce.refl s
  | cons op ops ih =>
      obtain ⟨s₁, h₁, h₂⟩ := runOps_cons.mp hrun
      have hop := Op.onlyNonce (hops op List.mem_cons_self) hwf.ready h₁
      exact hop.trans (ih (fun op' h' => hops op' (List.mem_cons_of_mem op h')) (Op.wf hwf h₁) h₂)

/-! ## Runs that go back to their snapshot -/

/-- What an execution that restores its state does: it is quiet up to the snapshot it takes, and it
ends with a revert to that snapshot; or it stops before it takes one. -/
inductive Restored (caller : Option Address) (s : StateDB σ) : List Op → Prop where
  | quiet {ops : List Op} (hquiet : ∀ op ∈ ops, op.isQuiet caller = true) : Restored caller s ops
  | reverted {pre body : List Op} {s₁ : StateDB σ} (hquiet : ∀ op ∈ pre, op.isQuiet caller = true)
      (hpre : runOps s pre = .ok s₁) :
      Restored caller s (pre ++ .snapshot :: (body ++ [.revertToSnapshot s₁.snapshot.1]))

/-- A run up to a snapshot, and back to it. -/
theorem runOps_reverted {s s₁ s' : StateDB σ} (hwf : Wf s) {pre body : List Op} (hpre : runOps s pre = .ok s₁)
    (hrun : runOps s (pre ++ .snapshot :: (body ++ [.revertToSnapshot s₁.snapshot.1])) = .ok s') :
    Returned s₁ s' := by
  obtain ⟨s₂, h₁, h₂⟩ := runOps_append.mp hrun
  obtain rfl := Except.ok.inj (hpre.symm.trans h₁)
  obtain ⟨s₃, hsnap, h₃⟩ := runOps_cons.mp h₂
  obtain rfl := Except.ok.inj hsnap
  obtain ⟨t, ht, h₄⟩ := runOps_append.mp h₃
  obtain ⟨t', hrev, h₅⟩ := runOps_cons.mp h₄
  obtain rfl := Except.ok.inj h₅
  exact (runOps_wf hwf h₁).returned ht hrev

/-- **An execution that restores its state leaves no trace** but perhaps the nonce of the caller. -/
theorem restored_onlyNonce {caller : Option Address} {s s' : StateDB σ} {ops : List Op}
    (h : Restored caller s ops) (hwf : Wf s) (hrun : runOps s ops = .ok s') :
    OnlyNonce caller s s' := by
  cases h with
  | quiet hquiet => exact runOps_onlyNonce hquiet hwf hrun
  | reverted hquiet hpre =>
      have hreturned := runOps_reverted hwf hpre hrun
      exact (runOps_onlyNonce hquiet hwf hpre).trans (OnlyNonce.of_returned hreturned)

/-! ## The access list -/

/-- The calls `PrepareAccessList` makes. -/
def accessListOps (sender : Address) (dst : Option Address) (precompiles : List Address)
    (list : List (Address × List Hash)) : List Op :=
  .addAddressToAccessList sender :: (dst.toList ++ precompiles).map .addAddressToAccessList ++
    list.flatMap fun el =>
      .addAddressToAccessList el.1 :: el.2.map fun key => .addSlotToAccessList el.1 key

/-- `PrepareAccessList` is quiet. -/
theorem accessListOps_quiet {sender : Address} {dst : Option Address} {precompiles : List Address}
    {list : List (Address × List Hash)} {caller : Option Address} {op : Op}
    (h : op ∈ accessListOps sender dst precompiles list) : op.isQuiet caller = true := by
  simp only [accessListOps, List.mem_append, List.mem_cons, List.mem_map, List.mem_flatMap] at h
  rcases h with (rfl | ⟨a, -, rfl⟩) | ⟨el, -, rfl | ⟨key, -, rfl⟩⟩ <;> rfl

/-- Adding several addresses, one by one. -/
theorem runOps_addAddresses (addrs : List Address) (s : StateDB σ) :
    runOps s (addrs.map .addAddressToAccessList) =
      .ok (addrs.foldl StateDB.addAddressToAccessList s) := by
  induction addrs generalizing s with
  | nil => rfl
  | cons a addrs ih => exact ih (s.addAddressToAccessList a)

/-- Adding several slots, one by one. -/
theorem runOps_addSlots (a : Address) (keys : List Hash) (s : StateDB σ) :
    runOps s (keys.map fun key => .addSlotToAccessList a key) =
      keys.foldlM (fun s key => s.addSlotToAccessList a key) s := by
  induction keys generalizing s with
  | nil => rfl
  | cons key keys ih =>
      simp only [List.map_cons, runOps, List.foldlM_cons]
      congr 1
      funext s₁
      exact ih s₁

/-- Two lists of operations run one after the other. -/
theorem runOps_append_eq (s : StateDB σ) (ops₁ ops₂ : List Op) :
    runOps s (ops₁ ++ ops₂) = (runOps s ops₁ >>= fun s₁ => runOps s₁ ops₂) := by
  induction ops₁ generalizing s with
  | nil => rfl
  | cons op ops ih =>
      simp only [List.cons_append, runOps, bind_assoc]
      congr 1
      funext s₁
      exact ih s₁

/-- **`PrepareAccessList` is a run.** -/
theorem prepareAccessList_run (s : StateDB σ) (sender : Address) (dst : Option Address)
    (precompiles : List Address) (list : List (Address × List Hash)) :
    s.prepareAccessList sender dst precompiles list =
      runOps s (accessListOps sender dst precompiles list) := by
  have htuples : ∀ s : StateDB σ,
      list.foldlM (fun s el => el.2.foldlM (fun s key => s.addSlotToAccessList el.1 key)
        (s.addAddressToAccessList el.1)) s =
      runOps s (list.flatMap fun el =>
        .addAddressToAccessList el.1 :: el.2.map fun key => .addSlotToAccessList el.1 key) := by
    induction list with
    | nil => intro s; rfl
    | cons el list ih =>
        intro s
        rw [List.foldlM_cons, List.flatMap_cons, runOps_append_eq]
        have hel : runOps s (.addAddressToAccessList el.1 ::
            el.2.map fun key => .addSlotToAccessList el.1 key) =
            el.2.foldlM (fun s key => s.addSlotToAccessList el.1 key)
              (s.addAddressToAccessList el.1) :=
          runOps_addSlots el.1 el.2 (s.addAddressToAccessList el.1)
        rw [hel]
        congr 1
        funext s₁
        exact ih s₁
  have haddrs : accessListOps sender dst precompiles list =
      (sender :: (dst.toList ++ precompiles)).map .addAddressToAccessList ++
        list.flatMap fun el =>
          .addAddressToAccessList el.1 :: el.2.map fun key => .addSlotToAccessList el.1 key := rfl
  rw [haddrs, runOps_append_eq, runOps_addAddresses]
  unfold StateDB.prepareAccessList
  cases dst with
  | none => exact htuples _
  | some dst => exact htuples _

end Smartdoge.Statedb
