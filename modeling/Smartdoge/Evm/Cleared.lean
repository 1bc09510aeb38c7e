import Smartdoge.Evm.Genesis
import Smartdoge.Statedb.Balances

/-!
# Cleared slots

`Keeper.SetState` deletes a slot if it is given no bytes, but `Commit` always gives it the 32 bytes of
the value. So a slot that is cleared keeps its entry, with the value zero, and the enumerations of
the storage (`ForEachStorage`, `GetAccountStorage`, `ExportGenesis`) show it.

* `ShowsNonzero`: the entries of a store, and what it enumerates, are its non-zero slots.
* `ClearsNoSlot`: a transaction clears no slot of an account that survives it.
* `slot_clean_iff`: one slot, one transaction.
* **`showsNonzero_iff`**: along any sequence of transactions the stores show their non-zero slots
  exactly if no transaction clears a slot.
-/

set_option linter.unusedSectionVars false

namespace Smartdoge.Evm

open Smartdoge.Lib
open Smartdoge.Lib.Writes
open Smartdoge.Statedb (StateDB Op TxConfig Wf runOps runOps_wf runOps_store wf_new)

section cleared

variable [Keccak]

/-! ## Stores that show their non-zero slots -/

/-- The storage lists every non-zero slot of the account once, and no other. -/
def Enumerates (st : Store) (a : Address) (storage : List State) : Prop :=
  storage.Nodup ∧ ∀ state, state ∈ storage ↔
    ∃ key, st.getState a key ≠ .zero 32 ∧ state = newState key (st.getState a key)

/-- The store has an entry for every non-zero slot and for no other, and the three enumerations show
just those. -/
structure ShowsNonzero (st : Store) : Prop where
  entries : ∀ a key, (st.slot a key).isSome ↔ st.getState a key ≠ .zero 32
  forEachStorage : ∀ a, (st.storageEntries a).Nodup ∧ ∀ entry, entry ∈ st.storageEntries a ↔
    ∃ key, st.getState a key ≠ .zero 32 ∧ entry = (key, st.getState a key)
  getAccountStorage : ∀ a, Enumerates st a (st.getAccountStorage a)
  exportGenesis : ∀ (π : Type) (valid : π → Bool) (m : EvmModule π valid) data, m.store = st →
    m.exportGenesis = .ok data → ∀ account ∈ data.accounts, ∃ a, account.address = addressHex a ∧
      Enumerates st a account.storage

/-- An entry of the genesis state tells its key and its value. -/
theorem newState_injective : Function.Injective2 newState := by
  intro key key' value value' heq
  have hkeys : hashHex key = hashHex key' := congrArg State.key heq
  have hvalues : hashHex value = hashHex value' := congrArg State.value heq
  exact ⟨hashHex_injective hkeys, hashHex_injective hvalues⟩

/-- The enumerations follow the entries. -/
theorem showsNonzero_of_entries {st : Store} (hkeyed : st.Keyed)
    (hentries : ∀ a key, (st.slot a key).isSome ↔ st.getState a key ≠ .zero 32) :
    ShowsNonzero st := by
  have hnodup : ∀ a, (st.storageEntries a).Nodup :=
    fun a => (Store.nodup_storageEntries hkeyed a).of_map _
  have hmem : ∀ a entry, entry ∈ st.storageEntries a ↔
      ∃ key, st.getState a key ≠ .zero 32 ∧ entry = (key, st.getState a key) := by
    rintro a ⟨key, value⟩
    rw [Store.mem_storageEntries_iff hkeyed, hentries]
    constructor
    · rintro ⟨hne, rfl⟩
      exact ⟨key, hne, rfl⟩
    · rintro ⟨key', hne, heq⟩
      obtain ⟨rfl, rfl⟩ := Prod.mk.inj heq
      exact ⟨hne, rfl⟩
  have hstorage : ∀ a, Enumerates st a (st.getAccountStorage a) := by
    intro a
    refine ⟨(hnodup a).map ?_, ?_⟩
    · intro entry entry' heq
      obtain ⟨hkey, hvalue⟩ := newState_injective heq
      exact Prod.ext hkey hvalue
    · intro state
      rw [Store.getAccountStorage, List.mem_map]
      constructor
      · rintro ⟨entry, hentry, rfl⟩
        obtain ⟨key, hne, rfl⟩ := (hmem a entry).mp hentry
        exact ⟨key, hne, rfl⟩
      · rintro ⟨key, hne, rfl⟩
        exact ⟨_, (hmem a _).mpr ⟨key, hne, rfl⟩, rfl⟩
  refine ⟨hentries, fun a => ⟨hnodup a, hmem a⟩, hstorage, ?_⟩
  intro π valid m data hstore hexport account haccount
  unfold EvmModule.exportGenesis at hexport
  split at hexport
  · obtain rfl := Except.ok.inj hexport
    obtain ⟨p, -, rfl⟩ := List.mem_map.mp haccount
    refine ⟨p.1, rfl, ?_⟩
    rw [hstore]
    exact hstorage p.1
  · exact absurd hexport (by simp)

/-! ## One transaction -/

/-- No account that survives has a slot whose committed value is not zero and whose value is. -/
def ClearsNoSlot (s : StateDB Store) : Prop :=
  ∀ a key, (s.hasSuicided a).1 = false → (s.getCommittedState a key).1 ≠ .zero 32 →
    (s.getState a key).1 ≠ .zero 32

/-- An entry stands for a nonzero value, if and only if its value is not zero. -/
theorem entry_of_bytes (value : Hash) :
    ((some value.bytes).isSome ↔ bytesToHash ((some value.bytes).getD []) ≠ .zero 32) ↔
      value ≠ .zero 32 := by
  simp

variable (env : Env)

/-- **One slot.** After a commit over a store where it was so, the slot has an entry exactly if it is
not zero, unless the transaction cleared it. -/
theorem slot_clean_iff {s : StateDB Store} (hwf : Wf s) (hk : s.keeper = evmKeeper env) {st' : Store}
    (hcommit : s.commit s.ctx = .ok () st') (a : Address) (key : Hash)
    (hentry : (s.ctx.slot a key).isSome ↔ s.ctx.getState a key ≠ .zero 32) :
    ((st'.slot a key).isSome ↔ st'.getState a key ≠ .zero 32) ↔
      ((s.hasSuicided a).1 = false → (s.getCommittedState a key).1 ≠ .zero 32 →
        (s.getState a key).1 ≠ .zero 32) := by
  have hco := hwf.ready.coherent
  have hcommitted : ∀ b j, s.keeper.getState s.ctx b j = s.ctx.getState b j := by
    intro b j
    rw [hk]
    rfl
  have hempty : bytesToHash [] = FixedBytes.zero 32 := rfl
  obtain ⟨hsame, hall⟩ := commitAll_slots env hk hco (Statedb.nodup_sortedDirties s.journal) hcommit
  rw [StateDB.hasSuicided_fst hco, StateDB.getCommittedState_fst hco, StateDB.getState_fst hco,
    hcommitted, Store.getState_eq_slot st']
  rw [Store.getState_eq_slot] at hentry
  by_cases hdirty : a ∈ s.journal.sortedDirties
  · obtain ⟨o, ho, hafter⟩ := hall a hdirty
    rw [StateDB.view_objects_of_get ho]
    simp only [Option.map_some, Option.getD_some]
    unfold SlotsAfter at hafter
    cases hsu : (o.view s.keeper s.ctx).suicided with
    | true =>
        rw [if_pos hsu] at hafter
        rcases hafter with hnone | hold
        · simp [hnone key, hempty]
        · rw [hold]
          simp [hentry]
    | false =>
        simp only [hsu, Bool.false_eq_true, if_false] at hafter
        rw [hafter key]
        split_ifs with hunchanged
        · rw [hunchanged]
          simp [hentry]
        · rw [entry_of_bytes]
          constructor
          · intro hne _ _
            exact hne
          · intro hcond hzero
            rw [hzero] at hunchanged hcond
            exact hcond rfl (Ne.symm hunchanged) rfl
  · rw [hsame a hdirty]
    cases hview : s.view.objects a with
    | none => simp [hentry]
    | some o =>
        have hstorage := hwf.storage_of_not_dirty hview hdirty key
        rw [hcommitted] at hstorage
        simp [hentry, hstorage]

/-! ## Sequences of transactions -/

/-- Transactions one after the other: operations on a fresh state and a commit of it. Each comes with
the state it commits and the store it leaves. -/
inductive Commits : Store → List (StateDB Store × Store) → Prop where
  | nil (st : Store) : Commits st []
  | cons {st st' : Store} {txConfig : TxConfig} {ops : List Op} {s : StateDB Store}
      {rest : List (StateDB Store × Store)}
      (hrun : runOps (StateDB.new st (evmKeeper env) txConfig) ops = .ok s)
      (hcommit : s.commit s.ctx = .ok () st') (hrest : Commits st' rest) :
      Commits st ((s, st') :: rest)

/-- **When the stores show their non-zero slots.** Along any sequence of transactions from a store of
the module that shows its non-zero slots, all the stores do exactly if no transaction clears a slot of
an account that survives it. -/
theorem showsNonzero_iff {st : Store} {steps : List (StateDB Store × Store)}
    (hsteps : Commits env st steps) (hkeyed : st.Keyed) (hshows : ShowsNonzero st) :
    (∀ p ∈ steps, ShowsNonzero p.2) ↔ ∀ p ∈ steps, ClearsNoSlot p.1 := by
  induction hsteps with
  | nil st => simp
  | @cons st st' txConfig ops s rest hrun hcommit hrest ih =>
      have hwf : Wf s := runOps_wf (wf_new st (evmKeeper env) txConfig) hrun
      obtain ⟨hk, hctx, -⟩ := runOps_store (wf_new st (evmKeeper env) txConfig) hrun
      have hk' : s.keeper = evmKeeper env := hk
      have hctx' : s.ctx = st := hctx
      have hkeyed' : st'.Keyed := by
        refine keyed_kept.commitAll env hk' ?_ hcommit (by rw [hctx']; exact hkeyed)
        intro _ o _ code c _ hc
        exact hc.setCode o.account.codeHash code
      -- The step: slot by slot.
      have hstep : ShowsNonzero st' ↔ ClearsNoSlot s := by
        have hslot : ∀ a key, ((st'.slot a key).isSome ↔ st'.getState a key ≠ .zero 32) ↔ _ :=
          fun a key => slot_clean_iff env hwf hk' hcommit a key (by rw [hctx']; exact hshows.entries a key)
        constructor
        · intro h a key
          exact (hslot a key).mp (h.entries a key)
        · intro h
          exact showsNonzero_of_entries hkeyed' fun a key => (hslot a key).mpr (h a key)
      rw [List.forall_mem_cons, List.forall_mem_cons]
      constructor
      · rintro ⟨hfirst, hothers⟩
        exact ⟨hstep.mp hfirst, (ih hkeyed' hfirst).mp hothers⟩
      · rintro ⟨hfirst, hothers⟩
        have hfirst' := hstep.mpr hfirst
        exact ⟨hfirst', (ih hkeyed' hfirst').mpr hothers⟩

end cleared

/-- A transaction sets a slot to 7 and the next one clears it: its value is zero, its entry is still
there, and the storage of the account lists it. -/
theorem cleared_slot_remains :
    letI := sampleKeccak
    let a : Address := .ofNat 20 1
    let key : Hash := .ofNat 32 1
    ∃ s₁ st₁ s₂ st₂, Commits sampleEnv emptyStore [(s₁, st₁), (s₂, st₂)] ∧
      st₂.getState a key = .zero 32 ∧ (st₂.slot a key).isSome ∧
      newState key (.zero 32) ∈ st₂.getAccountStorage a := by
  let _ := sampleKeccak
  intro a key
  let account : GoMap Address AuthAccount := GoMap.empty.set a (.eth 0 emptyCodeHash)
  let st₁ : Store := { emptyStore with
    accounts := account, kv := GoMap.empty.set (stateKey a key.bytes) (FixedBytes.ofNat 32 7).bytes }
  let st₂ : Store := { emptyStore with
    accounts := account, kv := GoMap.empty.set (stateKey a key.bytes) (FixedBytes.zero 32).bytes }
  let s₁ := (StateDB.new emptyStore (evmKeeper sampleEnv) (.newEmpty (.zero 32))).setState a key
    (.ofNat 32 7)
  let s₂ := (StateDB.new st₁ (evmKeeper sampleEnv) (.newEmpty (.zero 32))).setState a key (.zero 32)
  have hcommit₁ : s₁.commit s₁.ctx = .ok () st₁ := ok_of_endsWith (by decide +kernel)
  have hcommit₂ : s₂.commit s₂.ctx = .ok () st₂ := ok_of_endsWith (by decide +kernel)
  refine ⟨s₁, st₁, s₂, st₂, ?_, by decide +kernel, by decide +kernel, by decide +kernel⟩
  have hrun₁ : runOps (StateDB.new emptyStore (evmKeeper sampleEnv) (.newEmpty (.zero 32)))
    [.setState a key (.ofNat 32 7)] = .ok s₁ := rfl
  have hrun₂ : runOps (StateDB.new st₁ (evmKeeper sampleEnv) (.newEmpty (.zero 32)))
    [.setState a key (.zero 32)] = .ok s₂ := rfl
  exact .cons hrun₁ hcommit₁ (.cons hrun₂ hcommit₂ (.nil st₂))

/-- A transaction over empty stores that sets a slot, and sets and clears another one. -/
theorem showsNonzero_set_and_cleared :
    letI := sampleKeccak
    let a : Address := .ofNat 20 1
    ∃ s st, Commits sampleEnv emptyStore [(s, st)] ∧ ShowsNonzero st ∧
      st.getState a (.ofNat 32 1) = .ofNat 32 7 := by
  let _ := sampleKeccak
  intro a
  let start : StateDB Store := StateDB.new emptyStore (evmKeeper sampleEnv) (.newEmpty (.zero 32))
  let s := ((start.setState a (.ofNat 32 1) (.ofNat 32 7)).setState a (.ofNat 32 2) (.ofNat 32 5)).setState
    a (.ofNat 32 2) (.zero 32)
  have hrun : runOps start [.setState a (.ofNat 32 1) (.ofNat 32 7),
    .setState a (.ofNat 32 2) (.ofNat 32 5), .setState a (.ofNat 32 2) (.zero 32)] = .ok s := rfl
  obtain ⟨⟨⟩, st, hcommit, hstate⟩ := exists_of_endsWith (by decide +kernel : endsWith (s.commit s.ctx)
    (fun _ st => decide (st.getState a (.ofNat 32 1) = .ofNat 32 7)) = true)
  have hsteps : Commits sampleEnv emptyStore [(s, st)] := .cons hrun hcommit (.nil st)
  have hslot : ∀ b key, emptyStore.slot b key = none := fun _ _ => GoMap.get_empty _
  have hkeyed : emptyStore.Keyed := by
    intro key hkey
    exact absurd hkey (by simp [emptyStore])
  have hempty : ShowsNonzero emptyStore := by
    apply showsNonzero_of_entries hkeyed
    intro b key
    rw [Store.getState_eq_slot, hslot]
    decide
  -- Nothing was committed before, so nothing can be cleared.
  have hclears : ClearsNoSlot s := by
    intro b key _ hne
    refine absurd ?_ hne
    have hco := (runOps_wf (wf_new _ _ _) hrun).ready.coherent
    rw [StateDB.getCommittedState_fst hco]
    have hzero : s.keeper.getState s.ctx b key = .zero 32 := by
      show emptyStore.getState b key = _
      rw [Store.getState_eq_slot, hslot]
      rfl
    cases s.view.objects b with
    | none => rfl
    | some o => exact hzero
  have hall := (showsNonzero_iff sampleEnv hsteps hkeyed hempty).mpr (by simpa using hclears)
  exact ⟨s, st, hsteps, hall _ (List.mem_singleton_self _), of_decide_eq_true hstate⟩

end Smartdoge.Evm
