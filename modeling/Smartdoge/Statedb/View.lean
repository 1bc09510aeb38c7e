import Smartdoge.Lib.UndoLog
import Smartdoge.Statedb.StateDB

/-!
# What the getters see

A `StateDB` holds an account in one of three places: the live object, the keeper, or both with the
object's caches half filled. `StateDB.view` forgets the difference: it is the state as its getters
report it, one `ObjectView` per existing account, with the refund counter, the logs and the access
list. Reads change caches and leave the view alone (`getStateObject_view`, `readObject_view`).

`JournalEntry.undo` is what undoing an entry means on views. It is partial: it is defined where
the entry's account exists, and where the log or slot it removes is there. `JournalEntry.undoCaches` is its
counterpart on the caches (`StateDB.caches`: which objects are live, and which slots have their
origin value cached). The two together are the relation `Undo` on `Abs`, for which
`Lib/UndoLog.lean` gives the rules.

* **Simulation** (`JournalEntry.revert_spec`): where `Undo` is possible, the code's `revert` does
  not panic and does what `Undo` says.
-/

set_option linter.unusedSectionVars false

namespace Smartdoge.Statedb

open Smartdoge.Lib
open Smartdoge.Lib.UndoLog

/-- An account as the getters report it. -/
@[ext] structure ObjectView where
  account : Account
  code : Option Bytes
  suicided : Bool
  storage : Hash → Hash

/-- A working state as its getters report it. -/
@[ext] structure View where
  objects : Address → Option ObjectView
  refund : UInt64
  logs : List Log
  accessList : AccessList

/-- Replace the account at one address. -/
def View.setObject (v : View) (a : Address) (o : Option ObjectView) : View :=
  { v with objects := Function.update v.objects a o }

/-- The object that was set is seen. -/
@[simp] theorem View.setObject_objects_self (v : View) (a : Address) (o : Option ObjectView) :
    (v.setObject a o).objects a = o := by
  simp [View.setObject]

/-- The others are seen as before. -/
theorem View.setObject_objects_of_ne (v : View) {a b : Address} (h : b ≠ a)
    (o : Option ObjectView) : (v.setObject a o).objects b = v.objects b := by
  simp [View.setObject, h]

/-- The later of two objects is seen. -/
@[simp] theorem View.setObject_setObject (v : View) (a : Address) (o o' : Option ObjectView) :
    (v.setObject a o).setObject a o' = v.setObject a o' := by
  simp [View.setObject]

/-- Setting an object to what is seen changes nothing. -/
theorem View.setObject_eq_self {v : View} {a : Address} {o : Option ObjectView}
    (h : v.objects a = o) : v.setObject a o = v := by
  subst h
  simp [View.setObject]

/-- Live objects with the slots whose origin value they have cached. -/
abbrev Caches := Address → Option (Finset Hash)

variable [Keccak] {σ : Type}

/-! ## The view of an object -/

section object

variable (k : Keeper σ) (ctx : σ)

namespace StateObject

/-- An object as the getters report it. -/
def view (o : StateObject) : ObjectView where
  account := o.account
  code := (o.getCode k ctx).1
  suicided := o.suicided
  storage key := (o.getState k ctx key).1

variable {k ctx}

/-- What `GetState` returns: the written value, or the cached one, or the stored one. -/
theorem getState_fst (o : StateObject) (key : Hash) :
    (o.getState k ctx key).1 =
      (o.dirtyStorage.get key).getD ((o.originStorage.get key).getD (k.getState ctx o.address key)) := by
  unfold getState getCommittedState
  cases o.dirtyStorage.get key with
  | some value => rfl
  | none => cases o.originStorage.get key <;> rfl

/-- Caching a code is not seen. -/
@[simp] theorem getCode_snd_view (o : StateObject) :
    ((o.getCode k ctx).2).view k ctx = o.view k ctx := by
  ext1
  · simp only [view, getCode_snd]
  · show ((o.getCode k ctx).2.getCode k ctx).1 = (o.getCode k ctx).1
    rw [getCode_fst, getCode_snd]
    exact codeView_getCode o
  · simp only [view, getCode_snd]
  · funext key
    simp only [view, getState_fst, getCode_snd]

/-- Caching a stored slot is not seen. -/
@[simp] theorem getCommittedState_snd_view (o : StateObject) (key : Hash) :
    ((o.getCommittedState k ctx key).2).view k ctx = o.view k ctx := by
  unfold getCommittedState
  cases ho : o.originStorage.get key with
  | some value => rfl
  | none =>
      ext1
      · rfl
      · simp only [view, getCode_fst]
      · rfl
      · funext j
        simp only [view, getState_fst, GoMap.get_set]
        by_cases hj : j = key
        · subst hj
          simp [ho]
        · simp [hj]

/-- Neither is caching a slot by reading it. -/
@[simp] theorem getState_snd_view (o : StateObject) (key : Hash) :
    ((o.getState k ctx key).2).view k ctx = o.view k ctx := by
  unfold getState
  cases o.dirtyStorage.get key with
  | some value => rfl
  | none => exact getCommittedState_snd_view o key

/-- A balance that was set is seen. -/
theorem setBalance_view (o : StateObject) (amount : ℤ) :
    (o.setBalance amount).view k ctx =
      { o.view k ctx with account := { o.account with balance := amount } } := by
  simp only [view, getCode_fst, getState_fst, setBalance]

/-- So is a nonce. -/
theorem setNonce_view (o : StateObject) (nonce : UInt64) :
    (o.setNonce nonce).view k ctx =
      { o.view k ctx with account := { o.account with nonce := nonce } } := by
  simp only [view, getCode_fst, getState_fst, setNonce]

/-- So is the suicide flag. -/
theorem setSuicided_view (o : StateObject) (b : Bool) :
    ({ o with suicided := b }).view k ctx = { o.view k ctx with suicided := b } := by
  simp only [view, getCode_fst, getState_fst]

/-- So are a code and its hash. -/
theorem setCode_view (o : StateObject) (codeHash : Hash) (code : Option Bytes) :
    (o.setCode codeHash code).view k ctx =
      { o.view k ctx with
        account := { o.account with codeHash := codeHash }
        code := codeView k ctx code codeHash } := by
  ext1
  · rfl
  · exact getCode_fst _
  · rfl
  · funext key
    simp only [view, getState_fst, setCode]

/-- So is a slot. -/
theorem setState_view (o : StateObject) (key value : Hash) :
    (o.setState key value).view k ctx =
      { o.view k ctx with storage := Function.update (o.view k ctx).storage key value } := by
  ext1
  · rfl
  · simp only [view, getCode_fst, setState]
  · rfl
  · funext j
    simp only [view, getState_fst, setState, GoMap.get_set]
    by_cases hj : j = key
    · subst hj
      simp
    · simp [hj]

end StateObject

/-- The account the keeper holds, as a fresh object reports it. -/
def baseView (a : Address) : Option ObjectView :=
  (k.getAccount ctx a).map fun account => (newObject a account).view k ctx

end object

/-! ## The view of a state -/

namespace StateDB

/-- The state as its getters report it. -/
def view (s : StateDB σ) : View where
  objects a :=
    match s.stateObjects.get a with
    | some o => some (o.view s.keeper s.ctx)
    | none => baseView s.keeper s.ctx a
  refund := s.refund
  logs := s.logs
  accessList := s.accessList

/-- An object that was read is seen as it is. -/
theorem view_objects_of_get {s : StateDB σ} {a : Address} {o : StateObject}
    (h : s.stateObjects.get a = some o) : s.view.objects a = some (o.view s.keeper s.ctx) := by
  simp [view, h]

/-- The others are seen as in the store. -/
theorem view_objects_of_get_none {s : StateDB σ} {a : Address}
    (h : s.stateObjects.get a = none) : s.view.objects a = baseView s.keeper s.ctx a := by
  simp [view, h]

/-- The journal is not seen. -/
@[simp] theorem append_view (s : StateDB σ) (e : JournalEntry) : (s.append e).view = s.view := rfl

/-- An object that is put back is seen. -/
@[simp] theorem setStateObject_view (s : StateDB σ) (o : StateObject) :
    (s.setStateObject o).view = s.view.setObject o.address (some (o.view s.keeper s.ctx)) := by
  ext1
  · funext b
    by_cases hb : b = o.address
    · subst hb
      simp [view, setStateObject]
    · rw [View.setObject_objects_of_ne _ hb]
      simp [view, setStateObject, GoMap.get_set_of_ne _ hb]
  · rfl
  · rfl
  · rfl

/-- The live objects, each with the slots whose origin value it has cached. -/
def caches (s : StateDB σ) : Caches :=
  fun a => (s.stateObjects.get a).map fun o => o.originStorage.keys

/-- Every live object is coherent with the keeper. -/
def Coherent (s : StateDB σ) : Prop :=
  ∀ a o, s.stateObjects.get a = some o → o.Coherent s.keeper s.ctx a

/-- Putting a coherent object back keeps the state coherent. -/
theorem Coherent.setStateObject {s : StateDB σ} (h : s.Coherent) {a : Address} {o : StateObject}
    (ho : o.Coherent s.keeper s.ctx a) : (s.setStateObject o).Coherent := by
  intro b o' hb
  simp only [StateDB.setStateObject, GoMap.get_set] at hb
  split_ifs at hb with hba
  · obtain rfl := Option.some.inj hb
    rw [hba, ho.address]
    exact ho
  · exact h b o' hb

/-! ### Getters read the view -/

/-- A read that the view of an object determines. -/
theorem readObject_fst {α : Type} {s : StateDB σ} (hs : s.Coherent) (a : Address) (dflt : α)
    {read : StateObject → α × StateObject} (f : ObjectView → α)
    (hread : ∀ o, o.Coherent s.keeper s.ctx a → (read o).1 = f (o.view s.keeper s.ctx)) :
    (s.readObject a dflt read).1 = ((s.view.objects a).map f).getD dflt := by
  unfold readObject getStateObject
  cases ho : s.stateObjects.get a with
  | some o =>
      rw [view_objects_of_get ho]
      exact hread o (hs a o ho)
  | none =>
      rw [view_objects_of_get_none ho, baseView]
      cases hk : s.keeper.getAccount s.ctx a with
      | none => rfl
      | some account =>
          exact hread _ (StateObject.newObject_coherent _ _ (codeMatches_of_getAccount _ _ hk))

section getters

variable {s : StateDB σ} (hs : s.Coherent) (a : Address)

include hs

/-- **The getters read the view**: `Exist` asks for an object. -/
theorem exist_fst : (s.exist a).1 = (s.view.objects a).isSome := by
  unfold exist
  rw [readObject_fst hs a false (fun _ => true) (fun _ _ => rfl)]
  cases s.view.objects a <;> rfl

/-- `GetBalance` reads the balance. -/
theorem getBalance_fst :
    (s.getBalance a).1 = ((s.view.objects a).map fun o => o.account.balance).getD 0 :=
  readObject_fst hs a 0 _ fun _ _ => rfl

/-- `GetNonce` reads the nonce. -/
theorem getNonce_fst :
    (s.getNonce a).1 = ((s.view.objects a).map fun o => o.account.nonce).getD 0 :=
  readObject_fst hs a 0 _ fun _ _ => rfl

/-- `GetCodeHash` reads the code hash. -/
theorem getCodeHash_fst : (s.getCodeHash a).1 =
    ((s.view.objects a).map fun o => o.account.codeHash).getD (FixedBytes.zero 32) :=
  readObject_fst hs a _ _ fun _ _ => rfl

/-- `Empty` reads nonce, balance and code hash. -/
theorem empty_fst : (s.empty a).1 =
    ((s.view.objects a).map fun o => decide (o.account.nonce = 0 ∧ o.account.balance = 0 ∧
      o.account.codeHash = emptyCodeHash)).getD true :=
  readObject_fst hs a _ _ fun _ _ => rfl

/-- `GetCode` reads the code. -/
theorem getCode_fst : (s.getCode a).1 = ((s.view.objects a).map ObjectView.code).getD none :=
  readObject_fst hs a _ _ fun _ _ => rfl

/-- `HasSuicided` reads the suicide flag. -/
theorem hasSuicided_fst :
    (s.hasSuicided a).1 = ((s.view.objects a).map ObjectView.suicided).getD false :=
  readObject_fst hs a _ _ fun _ _ => rfl

/-- `GetState` reads a slot. -/
theorem getState_fst (key : Hash) : (s.getState a key).1 =
    ((s.view.objects a).map fun o => o.storage key).getD (FixedBytes.zero 32) :=
  readObject_fst hs a _ _ fun _ _ => rfl

/-- `GetCommittedState` reads the store, if there is an object. -/
theorem getCommittedState_fst (key : Hash) : (s.getCommittedState a key).1 =
    ((s.view.objects a).map fun _ => s.keeper.getState s.ctx a key).getD (FixedBytes.zero 32) :=
  readObject_fst hs a _ _ fun _ ho => ho.getCommittedState_fst key

end getters

end StateDB

/-! ## Undoing an entry, on views and on caches -/

/-- The account an entry is about. Unlike `dirtied`, this covers a reset. -/
def JournalEntry.target : JournalEntry → Option Address
  | .resetObjectChange prev => some prev.address
  | e => e.dirtied

/-- Change an account that exists. -/
def View.modify (v : View) (a : Address) (f : ObjectView → Option ObjectView) : Option View :=
  (v.objects a).map fun o => v.setObject a (f o)

/-- What undoing an entry means on views. -/
def JournalEntry.undo (k : Keeper σ) (ctx : σ) : JournalEntry → View → Option View
  -- An account is created only where the keeper has none either.
  | .createObjectChange a, v =>
    if (k.getAccount ctx a).isSome then none else v.modify a fun _ => none
  | .resetObjectChange prev, v => v.modify prev.address fun _ => some (prev.view k ctx)
  | .suicideChange a prev prevbalance, v => v.modify a fun o =>
    some { o with suicided := prev, account := { o.account with balance := prevbalance } }
  | .balanceChange a prev, v => v.modify a fun o =>
    some { o with account := { o.account with balance := prev } }
  | .nonceChange a prev, v => v.modify a fun o =>
    some { o with account := { o.account with nonce := prev } }
  | .storageChange a key prevalue, v => v.modify a fun o =>
    some { o with storage := Function.update o.storage key prevalue }
  | .codeChange a prevcode prevhash, v => v.modify a fun o =>
    some { o with
      account := { o.account with codeHash := prevhash }
      code := codeView k ctx prevcode prevhash }
  | .refundChange prev, v => some { v with refund := prev }
  | .addLogChange, v => if v.logs = [] then none else some { v with logs := v.logs.dropLast }
  | .accessListAddAccountChange a, v => some { v with accessList := v.accessList.deleteAddress a }
  | .accessListAddSlotChange a slot, v =>
    match v.accessList.deleteSlot a slot with
    | .ok accessList => some { v with accessList := accessList }
    | .error _ => none

/-- More objects are live and more slots cached. -/
def Caches.Le (c d : Caches) : Prop :=
  ∀ a keys, c a = some keys → ∃ keys', d a = some keys' ∧ keys ⊆ keys'

/-- A cache is at most itself. -/
theorem Caches.Le.refl (c : Caches) : c.Le c := fun _ keys h => ⟨keys, h, Finset.Subset.refl keys⟩

/-- The order of caches is transitive. -/
theorem Caches.Le.trans {c d e : Caches} (h₁ : c.Le d) (h₂ : d.Le e) : c.Le e := by
  intro a keys ha
  obtain ⟨keys', hd, hsub⟩ := h₁ a keys ha
  obtain ⟨keys'', he, hsub'⟩ := h₂ a keys' hd
  exact ⟨keys'', he, hsub.trans hsub'⟩

/-- Replacing the cache of one object keeps the order. -/
theorem Caches.Le.update {c d : Caches} (h : c.Le d) (a : Address) (o : Option (Finset Hash)) :
    Caches.Le (Function.update c a o) (Function.update d a o) := by
  intro b keys hb
  by_cases hba : b = a
  · subst hba
    rw [Function.update_self] at hb ⊢
    exact ⟨keys, hb, Finset.Subset.refl keys⟩
  · rw [Function.update_of_ne hba] at hb ⊢
    exact h b keys hb

/-- The caches after undoing an entry. Undoing a creation drops the object, undoing a reset brings
back the object it replaced, and any other undo works on the live object. -/
def JournalEntry.cachesAfter (c : Caches) : JournalEntry → Caches
  | .createObjectChange a => Function.update c a none
  | .resetObjectChange prev => Function.update c prev.address (some prev.originStorage.keys)
  | _ => c

/-- Undoing an entry keeps the order. -/
theorem JournalEntry.cachesAfter_mono (e : JournalEntry) {c d : Caches} (h : c.Le d) :
    (e.cachesAfter c).Le (e.cachesAfter d) := by
  cases e with
  | createObjectChange a => exact h.update a none
  | resetObjectChange prev => exact h.update prev.address _
  | _ => exact h

/-- A working state up to what reads can change. -/
structure Abs where
  view : View
  caches : Caches

/-- The abstraction of a state. -/
def StateDB.abs (s : StateDB σ) : Abs := ⟨s.view, s.caches⟩

/-- The same view, with more in the caches. -/
def Abs.Le (s t : Abs) : Prop := t.view = s.view ∧ s.caches.Le t.caches

/-- The object `CreateAccount` puts in the place of an existing one: empty, with the balance carried
over. -/
def StateObject.recreated (prev : StateObject) : StateObject :=
  (newObject prev.address .newEmpty).setBalance prev.account.balance

/-- **Undoing an entry.** The view changes as `JournalEntry.undo` says, the account of the entry
is live, and so is the origin value of a slot that is written back; a reset is undone where the
account is as the reset left it; the caches may shrink. -/
structure Undo (k : Keeper σ) (ctx : σ) (e : JournalEntry) (s t : Abs) : Prop where
  view : e.undo k ctx s.view = some t.view
  accessList_wf : t.view.accessList.Wf
  live : ∀ a, e.target = some a → s.caches a ≠ none
  slot : ∀ a key prev, e = .storageChange a key prev → ∃ keys, s.caches a = some keys ∧ key ∈ keys
  reset : ∀ prev, e = .resetObjectChange prev →
    s.view.objects prev.address = some (prev.recreated.view k ctx)
  caches : t.caches.Le (e.cachesAfter s.caches)

/-- An undo stays possible, and does the same, with more in the caches. -/
theorem Undo.mono {k : Keeper σ} {ctx : σ} {e : JournalEntry} {s t s' : Abs}
    (h : Undo k ctx e s t) (hle : s.Le s') : Undo k ctx e s' t where
  view := by
    rw [hle.1]
    exact h.view
  accessList_wf := h.accessList_wf
  live := by
    intro a ha
    obtain ⟨keys, hkeys⟩ := Option.ne_none_iff_exists'.mp (h.live a ha)
    obtain ⟨keys', hkeys', -⟩ := hle.2 a keys hkeys
    rw [hkeys']
    exact Option.some_ne_none keys'
  slot := by
    intro a key prev he
    obtain ⟨keys, hkeys, hmem⟩ := h.slot a key prev he
    obtain ⟨keys', hkeys', hsub⟩ := hle.2 a keys hkeys
    exact ⟨keys', hkeys', hsub hmem⟩
  reset := by
    rw [hle.1]
    exact h.reset
  caches := h.caches.trans (e.cachesAfter_mono hle.2)

/-- An object the journal keeps is coherent, and a code it keeps belongs to its hash. -/
def JournalEntry.Coherent (k : Keeper σ) (ctx : σ) : JournalEntry → Prop
  | .resetObjectChange prev => prev.Coherent k ctx prev.address
  | .codeChange _ prevcode prevhash => CodeMatches k ctx prevcode prevhash
  | _ => True

/-! ## The code's `revert` does what `Undo` says -/

/-- The part of a state that only `Snapshot` and `RevertToSnapshot` change. -/
structure SameFrame (s s' : StateDB σ) : Prop where
  keeper : s'.keeper = s.keeper
  ctx : s'.ctx = s.ctx
  txConfig : s'.txConfig = s.txConfig
  validRevisions : s'.validRevisions = s.validRevisions
  nextRevisionID : s'.nextRevisionID = s.nextRevisionID

/-- A state has its own frame. -/
theorem SameFrame.refl (s : StateDB σ) : SameFrame s s := ⟨rfl, rfl, rfl, rfl, rfl⟩

/-- Frames that are the same as a third. -/
theorem SameFrame.trans {s₁ s₂ s₃ : StateDB σ} (h : SameFrame s₁ s₂) (h' : SameFrame s₂ s₃) :
    SameFrame s₁ s₃ :=
  ⟨h'.keeper.trans h.keeper, h'.ctx.trans h.ctx, h'.txConfig.trans h.txConfig,
    h'.validRevisions.trans h.validRevisions, h'.nextRevisionID.trans h.nextRevisionID⟩

/-- The state `s'` is what undoing leads to from `s`: abstractly `t`, with perhaps more cached. -/
structure Reverted (s s' : StateDB σ) (t : Abs) : Prop where
  le : t.Le s'.abs
  coherent : s'.Coherent
  frame : SameFrame s s'

/-- A live object is in the map, with its cache. -/
theorem StateDB.get_of_live {s : StateDB σ} {a : Address} (h : s.caches a ≠ none) :
    ∃ o, s.stateObjects.get a = some o ∧ s.caches a = some o.originStorage.keys := by
  unfold caches at h ⊢
  cases ho : s.stateObjects.get a with
  | none => simp [ho] at h
  | some o => exact ⟨o, rfl, rfl⟩

/-- An object in the map is returned. -/
theorem StateDB.getStateObject_of_get {s : StateDB σ} {a : Address} {o : StateObject}
    (h : s.stateObjects.get a = some o) : s.getStateObject a = (some o, s) := by
  simp [getStateObject, h]

/-- An object in the map is changed. -/
theorem StateDB.withStateObject_of_get {s : StateDB σ} {a : Address} {o : StateObject}
    (h : s.stateObjects.get a = some o) (f : StateObject → StateObject) :
    s.withStateObject a f = .ok (s.setStateObject (f o)) := by
  simp [withStateObject, getStateObject_of_get h]

/-- Putting an object back sets its cache. -/
theorem StateDB.setStateObject_caches (s : StateDB σ) (o : StateObject) :
    (s.setStateObject o).caches =
      Function.update s.caches o.address (some o.originStorage.keys) := by
  funext b
  unfold caches
  by_cases hb : b = o.address
  · subst hb
    simp [setStateObject]
  · rw [Function.update_of_ne hb]
    simp [setStateObject, GoMap.get_set_of_ne _ hb]

/-- Storing back a live object that was changed outside its caches. -/
theorem reverted_setStateObject {s : StateDB σ} (hs : s.Coherent) {a : Address} {o o' : StateObject}
    {t : Abs} (ho : s.stateObjects.get a = some o) (ho' : o'.Coherent s.keeper s.ctx a)
    (horigin : o'.originStorage = o.originStorage)
    (hview : s.view.setObject a (some (o'.view s.keeper s.ctx)) = t.view)
    (hcaches : t.caches.Le s.caches) : Reverted s (s.setStateObject o') t where
  le := by
    refine ⟨?_, ?_⟩
    · show (s.setStateObject o').view = t.view
      rw [StateDB.setStateObject_view, ho'.address, hview]
    · show t.caches.Le (s.setStateObject o').caches
      have hself : Function.update s.caches a (some o'.originStorage.keys) = s.caches := by
        rw [horigin]
        exact Function.update_eq_self_iff.mpr (by simp [StateDB.caches, ho])
      rw [StateDB.setStateObject_caches, ho'.address, hself]
      exact hcaches
  coherent := hs.setStateObject ho'
  frame := ⟨rfl, rfl, rfl, rfl, rfl⟩

/-- Deleting a live object of an account the keeper does not have. -/
theorem StateDB.delete_view {s : StateDB σ} {a : Address} (h : s.keeper.getAccount s.ctx a = none) :
    ({ s with stateObjects := s.stateObjects.delete a } : StateDB σ).view =
      s.view.setObject a none := by
  ext1
  · funext b
    by_cases hb : b = a
    · subst hb
      simp [view, baseView, h]
    · rw [View.setObject_objects_of_ne _ hb]
      simp [view, GoMap.get_delete_of_ne _ hb]
  · rfl
  · rfl
  · rfl

/-- Deleting an object drops its cache. -/
theorem StateDB.delete_caches (s : StateDB σ) (a : Address) :
    ({ s with stateObjects := s.stateObjects.delete a } : StateDB σ).caches =
      Function.update s.caches a none := by
  funext b
  unfold caches
  by_cases hb : b = a
  · subst hb
    simp
  · rw [Function.update_of_ne hb]
    simp [GoMap.get_delete_of_ne _ hb]

/-- **Simulation.** Where an undo is possible, the entry's `revert` does not panic and does it. -/
theorem JournalEntry.revert_spec {s : StateDB σ} (hs : s.Coherent) {e : JournalEntry}
    (he : e.Coherent s.keeper s.ctx) {t : Abs} (h : Undo s.keeper s.ctx e s.abs t) :
    ∃ s', e.revert s = .ok s' ∧ s'.journal = s.journal ∧ Reverted s s' t := by
  obtain ⟨hview, -, hlive, hslot, -, hcaches⟩ := h
  have hobj : ∀ a, e.target = some a → ∃ o, s.stateObjects.get a = some o ∧
      o.Coherent s.keeper s.ctx a ∧ s.view.objects a = some (o.view s.keeper s.ctx) := by
    intro a ha
    obtain ⟨o, ho, -⟩ := StateDB.get_of_live (hlive a ha)
    exact ⟨o, ho, hs a o ho, StateDB.view_objects_of_get ho⟩
  cases e with
  | createObjectChange a =>
      obtain ⟨o, ho, -, hv⟩ := hobj a rfl
      simp only [undo, StateDB.abs, View.modify, hv, Option.map_some] at hview
      split_ifs at hview with hk
      rw [Bool.not_eq_true, Option.isSome_eq_false_iff, Option.isNone_iff_eq_none] at hk
      refine ⟨_, rfl, rfl, ⟨?_, ?_⟩, ?_, rfl, rfl, rfl, rfl, rfl⟩
      · show StateDB.view _ = t.view
        rw [StateDB.delete_view hk]
        exact Option.some.inj hview
      · show t.caches.Le (StateDB.caches _)
        rw [StateDB.delete_caches]
        exact hcaches
      · intro b o' hb
        simp only [GoMap.get_delete] at hb
        split_ifs at hb
        exact hs b o' hb
  | resetObjectChange prev =>
      obtain ⟨o, ho, -, hv⟩ := hobj prev.address rfl
      refine ⟨s.setStateObject prev, rfl, rfl, ⟨?_, ?_⟩, hs.setStateObject he, rfl, rfl, rfl, rfl, rfl⟩
      · show (s.setStateObject prev).view = t.view
        simp only [undo, StateDB.abs, View.modify, hv, Option.map_some, Option.some.injEq] at hview
        rw [StateDB.setStateObject_view]
        exact hview
      · show t.caches.Le (s.setStateObject prev).caches
        rw [StateDB.setStateObject_caches]
        exact hcaches
  | suicideChange a prev prevbalance =>
      obtain ⟨o, ho, hco, hv⟩ := hobj a rfl
      simp only [undo, StateDB.abs, View.modify, hv, Option.map_some, Option.some.injEq] at hview
      refine ⟨s.setStateObject ({ o with suicided := prev }.setBalance prevbalance), ?_, rfl, ?_⟩
      · simp only [revert, StateDB.getStateObject_of_get ho]
      · refine reverted_setStateObject hs ho ((hco.setSuicided prev).setBalance _) rfl ?_ hcaches
        rw [StateObject.setBalance_view, StateObject.setSuicided_view]
        exact hview
  | balanceChange a prev =>
      obtain ⟨o, ho, hco, hv⟩ := hobj a rfl
      simp only [undo, StateDB.abs, View.modify, hv, Option.map_some, Option.some.injEq] at hview
      refine ⟨_, StateDB.withStateObject_of_get ho _, rfl, ?_⟩
      refine reverted_setStateObject hs ho (hco.setBalance prev) rfl ?_ hcaches
      rw [StateObject.setBalance_view]
      exact hview
  | nonceChange a prev =>
      obtain ⟨o, ho, hco, hv⟩ := hobj a rfl
      simp only [undo, StateDB.abs, View.modify, hv, Option.map_some, Option.some.injEq] at hview
      refine ⟨_, StateDB.withStateObject_of_get ho _, rfl, ?_⟩
      refine reverted_setStateObject hs ho (hco.setNonce prev) rfl ?_ hcaches
      rw [StateObject.setNonce_view]
      exact hview
  | codeChange a prevcode prevhash =>
      obtain ⟨o, ho, hco, hv⟩ := hobj a rfl
      simp only [undo, StateDB.abs, View.modify, hv, Option.map_some, Option.some.injEq] at hview
      refine ⟨_, StateDB.withStateObject_of_get ho _, rfl, ?_⟩
      refine reverted_setStateObject hs ho (hco.setCode he) rfl ?_ hcaches
      rw [StateObject.setCode_view]
      exact hview
  | storageChange a key prevalue =>
      obtain ⟨o, ho, hco, hv⟩ := hobj a rfl
      simp only [undo, StateDB.abs, View.modify, hv, Option.map_some, Option.some.injEq] at hview
      have hkey : key ∈ o.originStorage.keys := by
        obtain ⟨keys, hkeys, hmem⟩ := hslot a key prevalue rfl
        simp only [StateDB.abs, StateDB.caches, ho, Option.map_some, Option.some.injEq] at hkeys
        rw [hkeys]
        exact hmem
      refine ⟨_, StateDB.withStateObject_of_get ho _, rfl, ?_⟩
      refine reverted_setStateObject hs ho (hco.setState hkey prevalue) rfl ?_ hcaches
      rw [StateObject.setState_view]
      exact hview
  | refundChange prev =>
      exact ⟨_, rfl, rfl, ⟨Option.some.inj hview, hcaches⟩, hs, rfl, rfl, rfl, rfl, rfl⟩
  | addLogChange =>
      have hne : s.logs ≠ [] := by
        intro hnil
        simp [undo, StateDB.abs, StateDB.view, hnil] at hview
      have hrev : revert s .addLogChange = .ok { s with logs := s.logs.dropLast } := by
        simp [revert, goDropLast, hne, bind, Except.bind]
      simp only [undo, StateDB.abs, show s.view.logs = s.logs from rfl, if_neg hne] at hview
      exact ⟨_, hrev, rfl, ⟨Option.some.inj hview, hcaches⟩, hs, rfl, rfl, rfl, rfl, rfl⟩
  | accessListAddAccountChange a =>
      exact ⟨_, rfl, rfl, ⟨Option.some.inj hview, hcaches⟩, hs, rfl, rfl, rfl, rfl, rfl⟩
  | accessListAddSlotChange a slot =>
      simp only [undo, StateDB.abs] at hview
      cases hdel : s.accessList.deleteSlot a slot with
      | error p =>
          rw [show s.view.accessList = s.accessList from rfl, hdel] at hview
          simp at hview
      | ok al =>
          rw [show s.view.accessList = s.accessList from rfl, hdel] at hview
          have hrev : revert s (.accessListAddSlotChange a slot) = .ok { s with accessList := al } := by
            simp [revert, hdel, bind, Except.bind]
          exact ⟨_, hrev, rfl, ⟨Option.some.inj hview, hcaches⟩, hs, rfl, rfl, rfl, rfl, rfl⟩

end Smartdoge.Statedb
