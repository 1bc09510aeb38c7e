import Smartdoge.Statedb.View

/-!
# What one operation can do

Every operation of a `StateDB` other than `Snapshot` and `RevertToSnapshot` is a `Step`: it
appends some entries to the journal, leaves the rest of the frame alone, and undoing the entries
it appended leads back to the view before it, with at least the caches before it.

`Step.trans` composes steps, so an operation is a chain of the three elementary ones: filling a
cache (`step_fill`), writing an object with its journal entry (`step_write`), and writing a field
that no object holds (`step_field`). `Op.step` says it of all of them, and everything the rest of
the development says about runs goes through it.
-/

set_option linter.unusedSectionVars false

namespace Smartdoge.Statedb

open Smartdoge.Lib
open Smartdoge.Lib.UndoLog

variable [Keccak] {σ : Type}

/-! ## Steps -/

/-- What an operation needs of the state it starts in. -/
structure Ready (s : StateDB σ) : Prop where
  coherent : s.Coherent
  accessList_wf : s.accessList.Wf

/-- `s'` is `s` after an operation that journaled the entries `new`. -/
structure Step (s s' : StateDB σ) (new : List JournalEntry) : Prop where
  frame : SameFrame s s'
  journal : s'.journal = new.foldl Journal.append s.journal
  ready : Ready s'
  entries : ∀ e ∈ new, e.Coherent s.keeper s.ctx
  undo : ∃ t, Rollback (Undo s.keeper s.ctx) new s'.abs t ∧ s.abs.Le t

/-- A state is at most itself. -/
theorem Abs.Le.refl (s : Abs) : s.Le s := ⟨rfl, Caches.Le.refl _⟩

/-- The order is transitive. -/
theorem Abs.Le.trans {s t u : Abs} (h : s.Le t) (h' : t.Le u) : s.Le u :=
  ⟨h'.1.trans h.1, h.2.trans h'.2⟩

/-- A rollback stays possible with more in the caches. -/
theorem rollback_undo_mono {k : Keeper σ} {ctx : σ} {log : List JournalEntry} {s t s' : Abs}
    (h : Rollback (Undo k ctx) log s t) (hle : s.Le s') :
    ∃ t', Rollback (Undo k ctx) log s' t' ∧ t.Le t' :=
  Rollback.mono (fun _ _ t _ hu hle => ⟨t, hu.mono hle, Abs.Le.refl t⟩) h hle

/-- Doing nothing records nothing. -/
theorem Step.refl {s : StateDB σ} (h : Ready s) : Step s s [] :=
  ⟨SameFrame.refl s, rfl, h, by simp, s.abs, rfl, Abs.Le.refl _⟩

/-- One step after the other records both. -/
theorem Step.trans {s₁ s₂ s₃ : StateDB σ} {new new' : List JournalEntry} (h : Step s₁ s₂ new)
    (h' : Step s₂ s₃ new') : Step s₁ s₃ (new ++ new') where
  frame := h.frame.trans h'.frame
  journal := by rw [h'.journal, h.journal, List.foldl_append]
  ready := h'.ready
  entries := by
    intro e he
    rcases List.mem_append.mp he with he | he
    · exact h.entries e he
    · have := h'.entries e he
      rwa [h.frame.keeper, h.frame.ctx] at this
  undo := by
    obtain ⟨t, ht, hle⟩ := h.undo
    obtain ⟨t', ht', hle'⟩ := h'.undo
    rw [h.frame.keeper, h.frame.ctx] at ht'
    obtain ⟨u, hu, hle''⟩ := rollback_undo_mono ht hle'
    exact ⟨u, rollback_append.mpr ⟨t', ht', hu⟩, hle.trans hle''⟩

/-- A step that journals nothing leaves the view alone. -/
theorem Step.view_eq {s s' : StateDB σ} (h : Step s s' []) : s'.view = s.view := by
  obtain ⟨t, ht, hle⟩ := h.undo
  obtain rfl := rollback_nil.mp ht
  exact hle.1

/-- Every entry changes the account at `a` or none at all. -/
def Targets (a : Option Address) (new : List JournalEntry) : Prop :=
  ∀ e ∈ new, e.target = none ∨ e.target = a

/-- No entry is about another address. -/
theorem Targets.nil {a : Option Address} : Targets a [] := by simp [Targets]

/-- One entry about the address. -/
theorem Targets.singleton {a : Option Address} {e : JournalEntry} (h : e.target = a) :
    Targets a [e] := by
  intro e' he'
  rw [List.mem_singleton.mp he']
  exact Or.inr h

/-- Two lists of entries about the address. -/
theorem Targets.append {a : Option Address} {new new' : List JournalEntry} (h : Targets a new)
    (h' : Targets a new') : Targets a (new ++ new') := by
  intro e he
  rcases List.mem_append.mp he with he | he
  · exact h e he
  · exact h' e he

/-! ## The elementary steps -/

/-- Storing an object that reports the same and has more cached. -/
theorem step_fill {s : StateDB σ} (hs : Ready s) {a : Address} {o : StateObject}
    (ho : o.Coherent s.keeper s.ctx a) (hview : s.view.objects a = some (o.view s.keeper s.ctx))
    (hcaches : ∀ o', s.stateObjects.get a = some o' → o'.originStorage.keys ⊆ o.originStorage.keys) :
    Step s (s.setStateObject o) [] where
  frame := ⟨rfl, rfl, rfl, rfl, rfl⟩
  journal := rfl
  ready := ⟨hs.coherent.setStateObject ho, hs.accessList_wf⟩
  entries := by simp
  undo := by
    refine ⟨_, rfl, ?_, ?_⟩
    · show (s.setStateObject o).view = s.view
      rw [StateDB.setStateObject_view, ho.address]
      exact View.setObject_eq_self hview
    · show s.caches.Le (s.setStateObject o).caches
      rw [StateDB.setStateObject_caches, ho.address]
      intro b keys hb
      by_cases hba : b = a
      · subst hba
        simp only [StateDB.caches, Option.map_eq_some_iff] at hb
        obtain ⟨o', ho', rfl⟩ := hb
        exact ⟨_, Function.update_self _ _ _, hcaches o' ho'⟩
      · rw [Function.update_of_ne hba]
        exact ⟨keys, hb, Finset.Subset.refl keys⟩

/-- Storing an object together with the entry that undoes it. -/
theorem step_write {s : StateDB σ} (hs : Ready s) {a : Address} {o : StateObject}
    {e : JournalEntry} (ho : o.Coherent s.keeper s.ctx a) (he : e.Coherent s.keeper s.ctx)
    (htarget : e.target = some a)
    (hundo : e.undo s.keeper s.ctx (s.view.setObject a (some (o.view s.keeper s.ctx))) = some s.view)
    (hslot : ∀ b key prev, e = .storageChange b key prev → key ∈ o.originStorage.keys)
    (hreset : ∀ prev, e = .resetObjectChange prev → o = prev.recreated)
    (hcaches : s.caches.Le
      (e.cachesAfter (Function.update s.caches a (some o.originStorage.keys)))) :
    Step s ((s.append e).setStateObject o) [e] where
  frame := ⟨rfl, rfl, rfl, rfl, rfl⟩
  journal := rfl
  ready := ⟨hs.coherent.setStateObject ho, hs.accessList_wf⟩
  entries := by
    intro e' he'
    rw [List.mem_singleton.mp he']
    exact he
  undo := by
    have hv : ((s.append e).setStateObject o).view =
        s.view.setObject a (some (o.view s.keeper s.ctx)) := by
      rw [StateDB.setStateObject_view, ho.address]
      rfl
    have hc : ((s.append e).setStateObject o).caches =
        Function.update s.caches a (some o.originStorage.keys) := by
      rw [StateDB.setStateObject_caches, ho.address]
      rfl
    refine ⟨s.abs, rollback_singleton.mpr ⟨?_, hs.accessList_wf, ?_, ?_, ?_, ?_⟩, Abs.Le.refl _⟩
    · rw [StateDB.abs, hv]
      exact hundo
    · intro b hb
      rw [htarget, Option.some.injEq] at hb
      subst hb
      show ((s.append e).setStateObject o).caches a ≠ none
      rw [hc, Function.update_self]
      exact Option.some_ne_none _
    · intro b key prev hst
      have hba : b = a := by
        rw [hst] at htarget
        exact Option.some.inj htarget
      subst hba
      show ∃ keys, ((s.append e).setStateObject o).caches b = some keys ∧ key ∈ keys
      rw [hc]
      exact ⟨_, Function.update_self _ _ _, hslot b key prev hst⟩
    · intro prev he'
      have haddr : prev.address = a := by
        rw [he'] at htarget
        exact Option.some.inj htarget
      rw [StateDB.abs, hv, haddr, View.setObject_objects_self, ← hreset prev he']
    · rw [StateDB.abs, StateDB.abs, hc]
      exact hcaches

/-- Writing a field that no object holds, together with the entry that undoes it. -/
theorem step_field {s s' : StateDB σ} (hs : Ready s) {e : JournalEntry}
    (hframe : SameFrame s s') (hjournal : s'.journal = s.journal.append e)
    (hobjects : s'.stateObjects = s.stateObjects) (hwf : s'.accessList.Wf)
    (htarget : e.target = none) (hundo : e.undo s.keeper s.ctx s'.view = some s.view) :
    Step s s' [e] where
  frame := hframe
  journal := hjournal
  ready := by
    refine ⟨?_, hwf⟩
    intro a o ho
    rw [hobjects] at ho
    rw [hframe.keeper, hframe.ctx]
    exact hs.coherent a o ho
  entries := by
    intro e' he'
    rw [List.mem_singleton.mp he']
    cases e with
    | resetObjectChange prev => simp [JournalEntry.target] at htarget
    | codeChange a prevcode prevhash => simp [JournalEntry.target, JournalEntry.dirtied] at htarget
    | _ => trivial
  undo := by
    have hc : s'.caches = s.caches := by
      unfold StateDB.caches
      rw [hobjects]
    refine ⟨s.abs, rollback_singleton.mpr ⟨hundo, hs.accessList_wf, ?_, ?_, ?_, ?_⟩, Abs.Le.refl _⟩
    · intro a ha
      rw [htarget] at ha
      exact absurd ha (by simp)
    · rintro a key prev rfl
      simp [JournalEntry.target, JournalEntry.dirtied] at htarget
    · rintro prev rfl
      simp [JournalEntry.target] at htarget
    · rw [StateDB.abs, StateDB.abs, hc]
      cases e with
      | createObjectChange a => simp [JournalEntry.target, JournalEntry.dirtied] at htarget
      | resetObjectChange prev => simp [JournalEntry.target] at htarget
      | _ => exact Caches.Le.refl _

/-! ## Loading objects -/

namespace StateDB

/-- **What `getStateObject` can do**: find nothing anywhere, or leave the object live. -/
theorem getStateObject_cases {s : StateDB σ} (hs : Ready s) (a : Address) :
    (s.stateObjects.get a = none ∧ s.keeper.getAccount s.ctx a = none ∧
      s.getStateObject a = (none, s)) ∨
    ∃ o s', s.getStateObject a = (some o, s') ∧ s'.stateObjects.get a = some o ∧ Step s s' [] := by
  unfold getStateObject
  cases ho : s.stateObjects.get a with
  | some o => exact Or.inr ⟨o, s, rfl, ho, Step.refl hs⟩
  | none =>
      cases hk : s.keeper.getAccount s.ctx a with
      | none => exact Or.inl ⟨rfl, rfl, rfl⟩
      | some account =>
          refine Or.inr ⟨newObject a account, s.setStateObject (newObject a account), rfl, ?_, ?_⟩
          · simp [setStateObject, newObject]
          · have hco := StateObject.newObject_coherent (a := a) _ _ (codeMatches_of_getAccount _ _ hk)
            refine step_fill hs hco ?_ ?_
            · rw [view_objects_of_get_none ho, baseView, hk]
              rfl
            · intro o' ho'
              rw [ho] at ho'
              exact absurd ho' (by simp)

/-- A read of an object that keeps what the object reports, and only fills its caches. -/
def FillsCaches {α : Type} (k : Keeper σ) (ctx : σ) (read : StateObject → α × StateObject) : Prop :=
  ∀ a o, o.Coherent k ctx a → (read o).2.Coherent k ctx a ∧
    (read o).2.view k ctx = o.view k ctx ∧ o.originStorage.keys ⊆ (read o).2.originStorage.keys

/-- **Reading from an object** records nothing. -/
theorem step_readObject {α : Type} {s : StateDB σ} (hs : Ready s) (a : Address) (dflt : α)
    {read : StateObject → α × StateObject} (hread : FillsCaches s.keeper s.ctx read) :
    Step s (s.readObject a dflt read).2 [] := by
  unfold readObject
  rcases getStateObject_cases hs a with ⟨-, -, hget⟩ | ⟨o, s', hget, ho, hstep⟩
  · rw [hget]
    exact Step.refl hs
  · rw [hget]
    rw [← hstep.frame.keeper, ← hstep.frame.ctx] at hread
    obtain ⟨hco, hview, hsub⟩ := hread a o (hstep.ready.coherent a o ho)
    have hfill : Step s' (s'.setStateObject (read o).2) [] := by
      refine step_fill hstep.ready hco ?_ ?_
      · rw [view_objects_of_get ho, hview]
      · intro o' ho'
        rw [ho, Option.some.injEq] at ho'
        subst ho'
        exact hsub
    exact hstep.trans hfill

/-- A field of the object is read without a cache. -/
theorem fillsCaches_pure {α : Type} (k : Keeper σ) (ctx : σ) (f : StateObject → α) :
    FillsCaches k ctx fun o => (f o, o) :=
  fun _ _ h => ⟨h, rfl, Finset.Subset.refl _⟩

/-- Reading the code fills the cache of the code. -/
theorem fillsCaches_getCode (k : Keeper σ) (ctx : σ) :
    FillsCaches k ctx fun o => o.getCode k ctx := by
  intro a o h
  refine ⟨h.getCode_snd, o.getCode_snd_view, ?_⟩
  simp only [StateObject.getCode_snd]
  exact Finset.Subset.refl _

/-- Reading a stored slot fills the cache of the slots. -/
theorem fillsCaches_getCommittedState (k : Keeper σ) (ctx : σ) (key : Hash) :
    FillsCaches k ctx fun o => o.getCommittedState k ctx key := by
  intro a o h
  refine ⟨(h.getCommittedState_snd key).1, o.getCommittedState_snd_view key, ?_⟩
  simp only [StateObject.getCommittedState]
  cases o.originStorage.get key with
  | some value => exact Finset.Subset.refl _
  | none =>
      simp only [GoMap.keys_set]
      exact Finset.subset_insert _ _

/-- So does reading a slot that was not written. -/
theorem fillsCaches_getState (k : Keeper σ) (ctx : σ) (key : Hash) :
    FillsCaches k ctx fun o => o.getState k ctx key := by
  intro a o h
  simp only [StateObject.getState]
  cases o.dirtyStorage.get key with
  | some value => exact ⟨h, rfl, Finset.Subset.refl _⟩
  | none => exact fillsCaches_getCommittedState k ctx key a o h

/-! ## Writing objects -/

/-- Creating an account that exists nowhere. -/
theorem step_create {s : StateDB σ} (hs : Ready s) {a : Address}
    (ho : s.stateObjects.get a = none) (hk : s.keeper.getAccount s.ctx a = none) :
    Step s ((s.append (.createObjectChange a)).setStateObject (newObject a .newEmpty))
      [.createObjectChange a] := by
  have hv : s.view.objects a = none := by
    rw [view_objects_of_get_none ho, baseView, hk]
    rfl
  have hco : (newObject a .newEmpty).Coherent s.keeper s.ctx a :=
    StateObject.newObject_coherent _ _ (codeMatches_of_keccak _ _ none)
  refine step_write hs hco trivial rfl ?_ (by simp) (by simp) ?_
  · simp [JournalEntry.undo, hk, View.modify, View.setObject_eq_self hv]
  · have hc : s.caches a = none := by simp [caches, ho]
    simp only [JournalEntry.cachesAfter, Function.update_idem]
    rw [← hc, Function.update_eq_self]
    exact Caches.Le.refl _

/-- Replacing a live object by a new one. -/
theorem step_reset {s : StateDB σ} (hs : Ready s) {a : Address} {prev : StateObject}
    (hprev : s.stateObjects.get a = some prev) :
    Step s ((s.append (.resetObjectChange prev)).setStateObject prev.recreated)
      [.resetObjectChange prev] := by
  have hco := hs.coherent a prev hprev
  have haddr := hco.address
  have hv := view_objects_of_get hprev
  have ho : prev.recreated.Coherent s.keeper s.ctx a := by
    rw [← haddr]
    exact (StateObject.newObject_coherent _ _ (codeMatches_of_keccak _ _ none)).setBalance _
  refine step_write hs ho ?_ (by rw [JournalEntry.target, haddr]) ?_ (by simp) ?_ ?_
  · show prev.Coherent _ _ prev.address
    rw [haddr]
    exact hco
  · simp [JournalEntry.undo, haddr, View.modify, View.setObject_eq_self hv]
  · rintro prev' ⟨⟩
    rfl
  · have hc : s.caches a = some prev.originStorage.keys := by simp [caches, hprev]
    simp only [JournalEntry.cachesAfter, haddr, Function.update_idem]
    rw [← hc, Function.update_eq_self]
    exact Caches.Le.refl _

/-- Changing a live object in place: `f` is the change and the entry undoes it. -/
theorem step_modify {s : StateDB σ} (hs : Ready s) {a : Address} {o o' : StateObject}
    {e : JournalEntry} (ho : s.stateObjects.get a = some o) (ho' : o'.Coherent s.keeper s.ctx a)
    (he : e.Coherent s.keeper s.ctx) (hdirtied : e.dirtied = some a) (hnew : ∀ b, e ≠ .createObjectChange b)
    (hundo : e.undo s.keeper s.ctx (s.view.setObject a (some (o'.view s.keeper s.ctx))) =
      some (s.view.setObject a (some (o.view s.keeper s.ctx))))
    (hslot : ∀ b key prev, e = .storageChange b key prev → key ∈ o'.originStorage.keys)
    (hsub : o.originStorage.keys ⊆ o'.originStorage.keys) :
    Step s ((s.append e).setStateObject o') [e] := by
  rw [View.setObject_eq_self (view_objects_of_get ho)] at hundo
  have hgrow : s.caches.Le (Function.update s.caches a (some o'.originStorage.keys)) := by
    intro b keys hb
    by_cases hba : b = a
    · subst hba
      simp only [caches, ho, Option.map_some, Option.some.injEq] at hb
      subst hb
      exact ⟨_, Function.update_self _ _ _, hsub⟩
    · rw [Function.update_of_ne hba]
      exact ⟨keys, hb, Finset.Subset.refl keys⟩
  cases e with
  | createObjectChange b => exact absurd rfl (hnew b)
  | resetObjectChange prev => simp [JournalEntry.dirtied] at hdirtied
  | _ => exact step_write hs ho' he hdirtied hundo hslot (by simp) hgrow

/-- Setting the balance of an object records the one before. -/
theorem step_objectSetBalance {s : StateDB σ} (hs : Ready s) {a : Address} {o : StateObject}
    (ho : s.stateObjects.get a = some o) (amount : ℤ) :
    Step s (s.objectSetBalance o amount) [.balanceChange a o.account.balance] := by
  have hco := hs.coherent a o ho
  unfold objectSetBalance
  rw [hco.address]
  refine step_modify hs ho (hco.setBalance amount) trivial rfl (by simp) ?_ (by simp) ?_
  · rw [StateObject.setBalance_view]
    simp [JournalEntry.undo, View.modify, StateObject.view]
  · exact Finset.Subset.refl _

/-- Setting its nonce records the one before. -/
theorem step_objectSetNonce {s : StateDB σ} (hs : Ready s) {a : Address} {o : StateObject}
    (ho : s.stateObjects.get a = some o) (nonce : UInt64) :
    Step s (s.objectSetNonce o nonce) [.nonceChange a o.account.nonce] := by
  have hco := hs.coherent a o ho
  unfold objectSetNonce
  rw [hco.address]
  refine step_modify hs ho (hco.setNonce nonce) trivial rfl (by simp) ?_ (by simp) ?_
  · rw [StateObject.setNonce_view]
    simp [JournalEntry.undo, View.modify, StateObject.view]
  · exact Finset.Subset.refl _

/-- Setting its code records code and hash before. -/
theorem step_objectSetCode {s : StateDB σ} (hs : Ready s) {a : Address} {o : StateObject}
    (ho : s.stateObjects.get a = some o) (code : Option Bytes) :
    Step s (s.objectSetCode o (keccak256 (code.getD [])) code)
      [.codeChange a (o.getCode s.keeper s.ctx).1 o.account.codeHash] := by
  have hco := hs.coherent a o ho
  have haddr := hco.getCode_snd.address
  have hhash : (o.getCode s.keeper s.ctx).2.account.codeHash = o.account.codeHash := by
    rw [StateObject.getCode_snd]
  unfold objectSetCode
  simp only [haddr, hhash]
  refine step_modify hs ho (hco.getCode_snd.setCode (codeMatches_of_keccak _ _ code))
    hco.getCode_fst_matches rfl (by simp) ?_ (by simp) ?_
  · rw [StateObject.setCode_view, StateObject.getCode_snd_view]
    simp only [JournalEntry.undo, View.modify, View.setObject_objects_self, Option.map_some,
      View.setObject_setObject, StateObject.codeView_getCode, StateObject.getCode_snd]
    rfl
  · rw [StateObject.getCode_snd]
    exact Finset.Subset.refl _

/-- A suicide records flag and balance before. -/
theorem step_suicide {s : StateDB σ} (hs : Ready s) {a : Address} {o : StateObject}
    (ho : s.stateObjects.get a = some o) :
    Step s ((s.append (.suicideChange a o.suicided o.account.balance)).setStateObject
      (o.markSuicided.setBalance 0)) [.suicideChange a o.suicided o.account.balance] := by
  have hco := hs.coherent a o ho
  refine step_modify hs ho ((hco.setSuicided true).setBalance 0) trivial rfl (by simp) ?_ (by simp) ?_
  · rw [StateObject.setBalance_view, StateObject.markSuicided, StateObject.setSuicided_view]
    simp [JournalEntry.undo, View.modify, StateObject.view]
  · exact Finset.Subset.refl _

/-- Setting a slot of an object is about its address. -/
theorem step_objectSetState {s : StateDB σ} (hs : Ready s) {a : Address} {o : StateObject}
    (ho : s.stateObjects.get a = some o) (key value : Hash) :
    ∃ new, Step s (s.objectSetState o key value) new ∧ Targets (some a) new := by
  have hco := hs.coherent a o ho
  obtain ⟨hco', hkey⟩ := hco.getState_snd key
  obtain ⟨-, hview, hsub⟩ := fillsCaches_getState s.keeper s.ctx key a o hco
  simp only [objectSetState]
  split_ifs with heq
  · refine ⟨[], step_fill hs hco' ?_ ?_, Targets.nil⟩
    · rw [view_objects_of_get ho, hview]
    · intro o' ho'
      rw [ho, Option.some.injEq] at ho'
      subst ho'
      exact hsub
  · rw [hco'.address]
    refine ⟨_, step_modify hs ho (hco'.setState hkey value) trivial rfl (by simp) ?_ ?_ hsub,
      Targets.singleton rfl⟩
    · rw [StateObject.setState_view, hview]
      have hprev : (o.getState s.keeper s.ctx key).1 = (o.view s.keeper s.ctx).storage key := rfl
      simp [JournalEntry.undo, View.modify, hprev]
    · rintro b j prev ⟨⟩
      exact hkey

/-! ## Operations on one account -/

/-- `getOrNewStateObject` leaves the object it returns live. -/
theorem step_getOrNewStateObject {s : StateDB σ} (hs : Ready s) (a : Address) :
    ∃ o s' new, s.getOrNewStateObject a = (o, s') ∧ s'.stateObjects.get a = some o ∧
      Step s s' new ∧ Targets (some a) new := by
  unfold getOrNewStateObject
  rcases getStateObject_cases hs a with ⟨ho, hk, hget⟩ | ⟨o, s', hget, ho, hstep⟩
  · simp only [hget, createObject]
    refine ⟨_, _, _, rfl, ?_, step_create hs ho hk, Targets.singleton rfl⟩
    simp [setStateObject, newObject]
  · rw [hget]
    exact ⟨o, s', [], rfl, ho, hstep, Targets.nil⟩

/-- An operation that gets or makes an object and then works on it. -/
theorem step_onObject {s : StateDB σ} (hs : Ready s) (a : Address)
    {f : StateDB σ → StateObject → StateDB σ}
    (hf : ∀ s' o, Ready s' → s'.stateObjects.get a = some o →
      ∃ new, Step s' (f s' o) new ∧ Targets (some a) new) :
    ∃ new, Step s (f (s.getOrNewStateObject a).2 (s.getOrNewStateObject a).1) new ∧
      Targets (some a) new := by
  obtain ⟨o, s', new, hget, ho, hstep, htargets⟩ := step_getOrNewStateObject hs a
  obtain ⟨new', hstep', htargets'⟩ := hf s' o hstep.ready ho
  rw [hget]
  exact ⟨new ++ new', hstep.trans hstep', htargets.append htargets'⟩

/-- `AddBalance` is a step about its address. -/
theorem step_addBalance {s : StateDB σ} (hs : Ready s) (a : Address) (amount : ℤ) :
    ∃ new, Step s (s.addBalance a amount) new ∧ Targets (some a) new := by
  refine step_onObject hs a (f := fun s o => s.objectAddBalance o amount) ?_
  intro s' o hs' ho
  unfold objectAddBalance
  split_ifs
  · exact ⟨[], Step.refl hs', Targets.nil⟩
  · exact ⟨_, step_objectSetBalance hs' ho _, Targets.singleton rfl⟩

/-- So is `SubBalance`. -/
theorem step_subBalance {s : StateDB σ} (hs : Ready s) (a : Address) (amount : ℤ) :
    ∃ new, Step s (s.subBalance a amount) new ∧ Targets (some a) new := by
  refine step_onObject hs a (f := fun s o => s.objectSubBalance o amount) ?_
  intro s' o hs' ho
  unfold objectSubBalance
  split_ifs
  · exact ⟨[], Step.refl hs', Targets.nil⟩
  · exact ⟨_, step_objectSetBalance hs' ho _, Targets.singleton rfl⟩

/-- So is `SetNonce`. -/
theorem step_setNonce {s : StateDB σ} (hs : Ready s) (a : Address) (nonce : UInt64) :
    ∃ new, Step s (s.setNonce a nonce) new ∧ Targets (some a) new :=
  step_onObject hs a (f := fun s o => s.objectSetNonce o nonce)
    fun _ _ hs' ho => ⟨_, step_objectSetNonce hs' ho nonce, Targets.singleton rfl⟩

/-- So is `SetCode`. -/
theorem step_setCode {s : StateDB σ} (hs : Ready s) (a : Address) (code : Option Bytes) :
    ∃ new, Step s (s.setCode a code) new ∧ Targets (some a) new :=
  step_onObject hs a (f := fun s o => s.objectSetCode o (keccak256 (code.getD [])) code)
    fun _ _ hs' ho => ⟨_, step_objectSetCode hs' ho code, Targets.singleton rfl⟩

/-- So is `SetState`. -/
theorem step_setState {s : StateDB σ} (hs : Ready s) (a : Address) (key value : Hash) :
    ∃ new, Step s (s.setState a key value) new ∧ Targets (some a) new :=
  step_onObject hs a (f := fun s o => s.objectSetState o key value)
    fun _ _ hs' ho => step_objectSetState hs' ho key value

/-- So is `Suicide`. -/
theorem step_suicideOp {s : StateDB σ} (hs : Ready s) (a : Address) :
    ∃ new, Step s (s.suicide a).2 new ∧ Targets (some a) new := by
  unfold suicide
  rcases getStateObject_cases hs a with ⟨-, -, hget⟩ | ⟨o, s', hget, ho, hstep⟩
  · rw [hget]
    exact ⟨[], Step.refl hs, Targets.nil⟩
  · rw [hget]
    exact ⟨_, hstep.trans (step_suicide hstep.ready ho), Targets.nil.append (Targets.singleton rfl)⟩

/-- The balance carried over to a re-created account is part of the reset, so undoing the reset
undoes it too. -/
theorem createAccount_of_some {s s' : StateDB σ} {a : Address} {prev : StateObject}
    (hget : s.getStateObject a = (some prev, s')) (haddr : prev.address = a) :
    s.createAccount a = (s'.append (.resetObjectChange prev)).setStateObject prev.recreated := by
  simp only [createAccount, createObject, hget, setStateObject, append, StateObject.recreated]
  congr 1
  ext1 b
  simp only [GoMap.get_set, newObject, StateObject.setBalance, haddr]
  split_ifs <;> rfl

/-- So is `CreateAccount`. -/
theorem step_createAccount {s : StateDB σ} (hs : Ready s) (a : Address) :
    ∃ new, Step s (s.createAccount a) new ∧ Targets (some a) new := by
  rcases getStateObject_cases hs a with ⟨ho, hk, hget⟩ | ⟨prev, s', hget, ho, hstep⟩
  · simp only [createAccount, createObject, hget]
    exact ⟨_, step_create hs ho hk, Targets.singleton rfl⟩
  · have haddr := (hstep.ready.coherent a prev ho).address
    rw [createAccount_of_some hget haddr]
    exact ⟨_, hstep.trans (step_reset hstep.ready ho),
      Targets.nil.append (Targets.singleton (congrArg some haddr))⟩

/-! ## Refund counter, logs and access list -/

/-- `AddLog` records that there is one more log. -/
theorem step_addLog {s : StateDB σ} (hs : Ready s) (log : Log) :
    Step s (s.addLog log) [.addLogChange] := by
  refine step_field hs ⟨rfl, rfl, rfl, rfl, rfl⟩ rfl rfl hs.accessList_wf rfl ?_
  simp [JournalEntry.undo, addLog, view, append]

/-- `AddRefund` records the counter before. -/
theorem step_addRefund {s : StateDB σ} (hs : Ready s) (gas : UInt64) :
    Step s (s.addRefund gas) [.refundChange s.refund] :=
  step_field hs ⟨rfl, rfl, rfl, rfl, rfl⟩ rfl rfl hs.accessList_wf rfl rfl

/-- So does `SubRefund`, where it does not panic. -/
theorem step_subRefund {s s' : StateDB σ} (hs : Ready s) {gas : UInt64}
    (h : s.subRefund gas = .ok s') : Step s s' [.refundChange s.refund] := by
  simp only [subRefund] at h
  split_ifs at h
  obtain rfl := Except.ok.inj h
  exact step_field hs ⟨rfl, rfl, rfl, rfl, rfl⟩ rfl rfl hs.accessList_wf rfl rfl

/-- Adding an address to the access list is about no object. -/
theorem step_addAddressToAccessList {s : StateDB σ} (hs : Ready s) (a : Address) :
    ∃ new, Step s (s.addAddressToAccessList a) new ∧ Targets none new := by
  have hwf := AccessList.addAddress_wf hs.accessList_wf a
  cases ha : s.accessList.addresses.get a with
  | some idx =>
      refine ⟨[], ?_, Targets.nil⟩
      simp only [addAddressToAccessList, AccessList.addAddress, ha]
      exact Step.refl hs
  | none =>
      refine ⟨[.accessListAddAccountChange a], ?_, Targets.singleton rfl⟩
      have hdel := AccessList.deleteAddress_addAddress ha
      have hmod : (s.accessList.addAddress a).1 = true := by simp [AccessList.addAddress, ha]
      simp only [addAddressToAccessList, hmod, if_true]
      refine step_field hs ⟨rfl, rfl, rfl, rfl, rfl⟩ rfl rfl hwf rfl ?_
      simp only [JournalEntry.undo, view, append, hdel]

/-- Opening a slot set for a listed address. -/
theorem step_openSlots {s : StateDB σ} (hs : Ready s) {a : Address}
    (ha : s.accessList.addresses.get a = some (-1)) (slot : Hash) :
    Step s (({ s with accessList := s.accessList.openSlots a slot } : StateDB σ).append
      (.accessListAddSlotChange a slot)) [.accessListAddSlotChange a slot] := by
  refine step_field hs ⟨rfl, rfl, rfl, rfl, rfl⟩ rfl rfl
    (AccessList.openSlots_wf hs.accessList_wf a slot) rfl ?_
  simp only [JournalEntry.undo, view, append, AccessList.deleteSlot_openSlots ha]

/-- Neither is adding a slot, which does not panic. -/
theorem step_addSlotToAccessList {s : StateDB σ} (hs : Ready s) (a : Address) (slot : Hash) :
    ∃ s' new, s.addSlotToAccessList a slot = .ok s' ∧ Step s s' new ∧ Targets none new := by
  have hwf := hs.accessList_wf
  unfold addSlotToAccessList
  rcases AccessList.addSlot_cases hwf a slot with
    ⟨ha, hadd⟩ | ⟨ha, hadd⟩ | ⟨i, sm, ha, hsm, hne, hslot, hadd⟩ | hadd
  · -- An absent address: the address first, then its first slot.
    refine ⟨_, [.accessListAddAccountChange a] ++ [.accessListAddSlotChange a slot],
      by rw [hadd]; rfl, ?_, Targets.append (a := none) (Targets.singleton rfl) (Targets.singleton rfl)⟩
    have hone : (s.accessList.addAddress a).2.addresses.get a = some (-1) := by
      simp [AccessList.addAddress, ha]
    have hdel := AccessList.deleteAddress_addAddress ha
    have hstep₁ : Step s (({ s with accessList := (s.accessList.addAddress a).2 } : StateDB σ).append
        (.accessListAddAccountChange a)) [.accessListAddAccountChange a] := by
      refine step_field hs ⟨rfl, rfl, rfl, rfl, rfl⟩ rfl rfl (AccessList.addAddress_wf hwf a) rfl ?_
      simp only [JournalEntry.undo, view, append, hdel]
    have hstep₂ := step_openSlots hstep₁.ready hone slot
    have hopen := AccessList.openSlots_addAddress ha slot
    simp only [append, hopen] at hstep₂
    refine hstep₁.trans ?_
    simp only [if_true, append]
    exact hstep₂
  · exact ⟨_, _, by rw [hadd]; rfl, step_openSlots hs ha slot, Targets.singleton rfl⟩
  · refine ⟨_, [.accessListAddSlotChange a slot], by rw [hadd]; rfl, ?_, Targets.singleton rfl⟩
    refine step_field hs ⟨rfl, rfl, rfl, rfl, rfl⟩ rfl rfl
      (AccessList.setSlots_wf hwf (Finset.insert_ne_empty _ _)) rfl ?_
    simp only [if_true, Bool.false_eq_true, if_false, JournalEntry.undo, view, append,
      AccessList.deleteSlot_setSlots ha hsm hne hslot]
  · exact ⟨_, [], by rw [hadd]; rfl, Step.refl hs, Targets.nil⟩

end StateDB

/-! ## Every operation -/

/-- The operations that move between versions of the state. -/
def Op.isVersion : Op → Bool
  | .snapshot => true
  | .revertToSnapshot _ => true
  | _ => false

/-- The account an operation writes. -/
def Op.writes : Op → Option Address
  | .createAccount a => some a
  | .addBalance a _ => some a
  | .subBalance a _ => some a
  | .setNonce a _ => some a
  | .setCode a _ => some a
  | .setState a _ _ => some a
  | .suicide a => some a
  | _ => none

/-- The operations that only read. -/
def Op.isGetter : Op → Bool
  | .exist _ | .empty _ | .getBalance _ | .getNonce _ | .getCode _ | .getCodeSize _ | .getCodeHash _ => true
  | .getState _ _ | .getCommittedState _ _ | .hasSuicided _ | .forEachStorage _ | .readOnly => true
  | _ => false

/-- A getter journals nothing. It may fill the caches of the object it reads. -/
theorem Op.step_getter {op : Op} (hop : op.isGetter = true) {s s' : StateDB σ} (hs : Ready s)
    (h : op.run s = .ok s') : Step s s' [] := by
  cases op with
  | exist a | empty a | getBalance a | getNonce a | getCodeHash a | hasSuicided a
  | forEachStorage a =>
      obtain rfl := Except.ok.inj h
      exact StateDB.step_readObject hs a _ (StateDB.fillsCaches_pure _ _ _)
  | getCode a | getCodeSize a =>
      obtain rfl := Except.ok.inj h
      exact StateDB.step_readObject hs a _ (StateDB.fillsCaches_getCode _ _)
  | getState a key =>
      obtain rfl := Except.ok.inj h
      exact StateDB.step_readObject hs a _ (StateDB.fillsCaches_getState _ _ key)
  | getCommittedState a key =>
      obtain rfl := Except.ok.inj h
      exact StateDB.step_readObject hs a _ (StateDB.fillsCaches_getCommittedState _ _ key)
  | readOnly =>
      obtain rfl := Except.ok.inj h
      exact Step.refl hs
  | _ => simp [isGetter] at hop

/-- **Every operation that returns and does not move between versions is a step**, and journals
changes of the account it writes only. -/
theorem Op.step {op : Op} (hop : op.isVersion = false) {s s' : StateDB σ} (hs : Ready s)
    (h : op.run s = .ok s') : ∃ new, Step s s' new ∧ Targets op.writes new := by
  cases op with
  | addLog log =>
      obtain rfl := Except.ok.inj h
      exact ⟨_, StateDB.step_addLog hs log, Targets.singleton rfl⟩
  | addRefund gas =>
      obtain rfl := Except.ok.inj h
      exact ⟨_, StateDB.step_addRefund hs gas, Targets.singleton rfl⟩
  | subRefund gas => exact ⟨_, StateDB.step_subRefund hs h, Targets.singleton rfl⟩
  | createAccount a =>
      obtain rfl := Except.ok.inj h
      exact StateDB.step_createAccount hs a
  | addBalance a amount =>
      obtain rfl := Except.ok.inj h
      exact StateDB.step_addBalance hs a amount
  | subBalance a amount =>
      obtain rfl := Except.ok.inj h
      exact StateDB.step_subBalance hs a amount
  | setNonce a nonce =>
      obtain rfl := Except.ok.inj h
      exact StateDB.step_setNonce hs a nonce
  | setCode a code =>
      obtain rfl := Except.ok.inj h
      exact StateDB.step_setCode hs a code
  | setState a key value =>
      obtain rfl := Except.ok.inj h
      exact StateDB.step_setState hs a key value
  | suicide a =>
      obtain rfl := Except.ok.inj h
      exact StateDB.step_suicideOp hs a
  | addAddressToAccessList a =>
      obtain rfl := Except.ok.inj h
      exact StateDB.step_addAddressToAccessList hs a
  | addSlotToAccessList a slot =>
      obtain ⟨s₁, new, hrun, hstep, htargets⟩ := StateDB.step_addSlotToAccessList hs a slot
      obtain rfl := Except.ok.inj (hrun.symm.trans h)
      exact ⟨new, hstep, htargets⟩
  | exist a | empty a | getBalance a | getNonce a | getCode a | getCodeSize a | getCodeHash a
  | getState a key | getCommittedState a key | hasSuicided a | forEachStorage a | readOnly =>
      exact ⟨[], Op.step_getter rfl hs h, Targets.nil⟩
  | snapshot => simp [isVersion] at hop
  | revertToSnapshot revid => simp [isVersion] at hop

end Smartdoge.Statedb
