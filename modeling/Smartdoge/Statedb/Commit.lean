import Smartdoge.Lib.Writes
import Smartdoge.Statedb.Snapshot

/-!
# Commit

`StateDB.Commit`: walk the dirty addresses in order and write each live object to the keeper.
`StateDB.commit` is the code, over any keeper. It dereferences the live object of every dirty
address without a check; that the object is there is `Wf.live_of_dirty`. The addresses it does
not visit are those with no entry in the journal or with nothing but a reset, and an address with
no entry at all still has the account it was loaded with (`Wf.view_of_untouched`).

* **`dirties_live`**: in every reachable state the dirty map counts the entries of each address, every
  dirty address has a live object, and neither a commit nor a revert dereferences one that is missing.
-/

set_option linter.unusedSectionVars false

namespace Smartdoge.Statedb

open Smartdoge.Lib
open Smartdoge.Lib.UndoLog
open Smartdoge.Lib.Writes

/-! ## The code -/

/-- Why a commit stopped. -/
inductive CommitError where
  /-- "failed to delete account". -/
  | deleteAccount (err : KeeperError)
  /-- "failed to set account". -/
  | setAccount (err : KeeperError)
  /-- The code panicked. -/
  | panic (p : Panic)
deriving DecidableEq

section commits

variable [Keccak] {σ : Type}

namespace StateObject

/-- Write one slot, unless the write would change nothing.
Source: `statedb.go` `Commit`, the body of the inner loop -/
def commitSlot (k : Keeper σ) (o : StateObject) (c : σ) (key : Hash) : σ :=
  let value := (o.dirtyStorage.get key).getD (FixedBytes.zero 32)
  -- Skip noop changes, persist actual changes.
  if value = (o.originStorage.get key).getD (FixedBytes.zero 32) then c
  else k.setState o.address key value.bytes c

/-- Source: `statedb.go` `Commit`, the inner loop -/
def commitStorage (k : Keeper σ) (o : StateObject) (c : σ) : σ :=
  o.dirtyStorage.sortedKeys.foldl (o.commitSlot k) c

/-- Source: `statedb.go` `Commit`, `if obj.code != nil && obj.dirtyCode` -/
def commitCode (k : Keeper σ) (o : StateObject) (c : σ) : σ :=
  match o.code with
  | some code => if o.dirtyCode then k.setCode o.account.codeHash code c else c
  | none => c

/-- Source: `statedb.go` `Commit`, the body of the outer loop -/
def commit (k : Keeper σ) (o : StateObject) : EStateM CommitError σ PUnit :=
  if o.suicided then EStateM.adaptExcept .deleteAccount (k.deleteAccount o.address)
  else do
    modify (o.commitCode k)
    EStateM.adaptExcept .setAccount (k.setAccount o.address o.account)
    modify (o.commitStorage k)

end StateObject

namespace StateDB

/-- Source: `statedb.go` `Commit`, the loop over some of the dirty addresses -/
def commitAll (s : StateDB σ) (addrs : List Address) : EStateM CommitError σ PUnit :=
  addrs.forM fun addr =>
    match s.stateObjects.get addr with
    | none => throw (.panic .nilDereference)
    | some obj => obj.commit s.keeper

/-- Write the dirty states to the keeper.
Source: `statedb.go` `Commit` -/
def commit (s : StateDB σ) : EStateM CommitError σ PUnit := s.commitAll s.journal.sortedDirties

end StateDB

/-- What committing one live object does: delete it, or write code, account and storage. -/
theorem StateObject.commit_ok {k : Keeper σ} {o : StateObject} {c c' : σ} :
    o.commit k c = .ok () c' ↔
      if o.suicided then k.deleteAccount o.address c = .ok () c'
      else ∃ c₁, k.setAccount o.address o.account (o.commitCode k c) = .ok () c₁ ∧
        o.commitStorage k c₁ = c' := by
  unfold commit
  split_ifs with hs
  · exact adaptExcept_ok
  · rw [bind_ok]
    constructor
    · rintro ⟨⟨⟩, c₁, h₁, h₂⟩
      obtain rfl := modify_ok.mp h₁
      obtain ⟨⟨⟩, c₂, h₃, h₄⟩ := bind_ok.mp h₂
      exact ⟨c₂, adaptExcept_ok.mp h₃, modify_ok.mp h₄⟩
    · rintro ⟨c₁, h₁, h₂⟩
      refine ⟨(), o.commitCode k c, modify_ok.mpr rfl, ?_⟩
      exact bind_ok.mpr ⟨(), c₁, adaptExcept_ok.mpr h₁, modify_ok.mpr h₂⟩

/-- A commit of several objects commits the first one and then the others. -/
theorem StateDB.commitAll_cons_ok {s : StateDB σ} {a : Address} {addrs : List Address} {c c' : σ} :
    s.commitAll (a :: addrs) c = .ok () c' ↔ ∃ o c₁, s.stateObjects.get a = some o ∧
      o.commit s.keeper c = .ok () c₁ ∧ s.commitAll addrs c₁ = .ok () c' := by
  unfold commitAll
  rw [forM_cons_ok]
  cases ho : s.stateObjects.get a with
  | none => simp
  | some o => simp

/-! ## The dirty addresses -/

/-- The dirty addresses are those with a counter. -/
theorem mem_sortedDirties {j : Journal} {a : Address} :
    a ∈ j.sortedDirties ↔ (j.dirties.get a).isSome :=
  GoMap.mem_sortedKeys FixedBytes.le

/-- Each of them is committed once. -/
theorem nodup_sortedDirties (j : Journal) : j.sortedDirties.Nodup := GoMap.nodup_sortedKeys _ _

/-- The dirty addresses are those of the entries still in the journal. -/
theorem Counts.isSome_iff {log : List JournalEntry} {d : GoMap Address ℤ} (h : Counts log d)
    (a : Address) : (d.get a).isSome ↔ ∃ e ∈ log, e.dirtied = some a := by
  rw [h a]
  have hcount : dirtyCount log a ≠ 0 ↔ ∃ e ∈ log, e.dirtied = some a := by
    rw [← Nat.pos_iff_ne_zero, dirtyCount, List.countP_pos_iff]
    simp
  rw [← hcount]
  split_ifs with h0
  · simp [h0]
  · simp [h0]

/-- The address that an entry dirties is the one it is about. -/
theorem JournalEntry.target_of_dirtied {e : JournalEntry} {a : Address} (h : e.dirtied = some a) :
    e.target = some a := by
  cases e with
  | resetObjectChange prev => simp [dirtied] at h
  | _ => exact h

/-- An address with no live object stays so along a rollback. -/
theorem Undo.caches_none {k : Keeper σ} {ctx : σ} {e : JournalEntry} {s t : Abs}
    (h : Undo k ctx e s t) {a : Address} (ha : s.caches a = none) : t.caches a = none := by
  have hafter : e.cachesAfter s.caches a = none := by
    cases e with
    | createObjectChange b =>
        by_cases hab : a = b
        · subst hab
          exact Function.update_self _ _ _
        · exact (Function.update_of_ne hab _ _).trans ha
    | resetObjectChange prev =>
        have hab : a ≠ prev.address := by
          rintro rfl
          exact h.live prev.address rfl ha
        exact (Function.update_of_ne hab _ _).trans ha
    | _ => exact ha
  cases ht : t.caches a with
  | none => rfl
  | some keys =>
      obtain ⟨keys', hkeys', -⟩ := h.caches a keys ht
      rw [hafter] at hkeys'
      exact absurd hkeys' (by simp)

/-- **Every dirty address has a live object**, so `Commit` never dereferences `nil`. -/
theorem Wf.live_of_dirty {s : StateDB σ} (h : Wf s) {a : Address}
    (ha : a ∈ s.journal.sortedDirties) : ∃ o, s.stateObjects.get a = some o := by
  rw [mem_sortedDirties, h.counts.isSome_iff] at ha
  obtain ⟨e, he, hdirtied⟩ := ha
  obtain ⟨t, ht, -⟩ := h.history
  obtain ⟨newer, u, w, -, hu, hundo⟩ := ht.exists_undo he
  have hlive : s.abs.caches a ≠ none := by
    intro hnone
    have hunone : u.caches a = none :=
      Rollback.invariant (P := fun s => s.caches a = none)
        (fun _ _ _ _ hundo hs => hundo.caches_none hs) hu hnone
    exact hundo.live a (JournalEntry.target_of_dirtied hdirtied) hunone
  obtain ⟨o, ho, -⟩ := StateDB.get_of_live hlive
  exact ⟨o, ho⟩

/-- Undoing an entry leaves the accounts it is not about alone. -/
theorem JournalEntry.undo_objects_of_ne {k : Keeper σ} {ctx : σ} {e : JournalEntry} {v v' : View}
    (h : e.undo k ctx v = some v') {a : Address} (ha : e.target ≠ some a) :
    v'.objects a = v.objects a := by
  have hmodify : ∀ b f, v.modify b f = some v' → b ≠ a → v'.objects a = v.objects a := by
    intro b f hf hba
    simp only [View.modify, Option.map_eq_some_iff] at hf
    obtain ⟨o, -, rfl⟩ := hf
    exact View.setObject_objects_of_ne v (Ne.symm hba) _
  have hne : ∀ b, e.target = some b → b ≠ a := by
    rintro b hb rfl
    exact ha hb
  cases e with
  | createObjectChange b =>
      simp only [undo] at h
      split_ifs at h
      exact hmodify b _ h (hne b rfl)
  | resetObjectChange prev => exact hmodify _ _ h (hne _ rfl)
  | suicideChange b prev prevbalance => exact hmodify b _ h (hne b rfl)
  | balanceChange b prev => exact hmodify b _ h (hne b rfl)
  | nonceChange b prev => exact hmodify b _ h (hne b rfl)
  | storageChange b key prevalue => exact hmodify b _ h (hne b rfl)
  | codeChange b prevcode prevhash => exact hmodify b _ h (hne b rfl)
  | refundChange prev =>
      obtain rfl := Option.some.inj h
      rfl
  | addLogChange =>
      simp only [undo] at h
      split_ifs at h
      obtain rfl := Option.some.inj h
      rfl
  | accessListAddAccountChange b =>
      obtain rfl := Option.some.inj h
      rfl
  | accessListAddSlotChange b slot =>
      simp only [undo] at h
      split at h
      · obtain rfl := Option.some.inj h
        rfl
      · exact absurd h (by simp)

/-- Undoing a log that is not about an address leaves its object alone. -/
theorem rollback_objects_of_ne {k : Keeper σ} {ctx : σ} {log : List JournalEntry} {s t : Abs}
    (h : Rollback (Undo k ctx) log s t) {a : Address} (ha : ∀ e ∈ log, e.target ≠ some a) :
    t.view.objects a = s.view.objects a :=
  Rollback.invariant (P := fun t => t.view.objects a = s.view.objects a)
    (fun e he _ _ hundo hu => (JournalEntry.undo_objects_of_ne hundo.view (ha e he)).trans hu) h rfl

/-- **An account the journal does not mention is the keeper's.** -/
theorem Wf.view_of_untouched {s : StateDB σ} (h : Wf s) {a : Address}
    (ha : ∀ e ∈ s.journal.entries, e.target ≠ some a) :
    s.view.objects a = baseView s.keeper s.ctx a := by
  obtain ⟨t, ht, hview⟩ := h.history
  have hsame : t.view.objects a = s.view.objects a := rollback_objects_of_ne ht ha
  rw [← hsame, hview]
  rfl

/-- Every address re-created over an existing account, where the re-creation is still in the
journal, is dirty. This is how go-ethereum's `create` uses `CreateAccount`: it sets the nonce of the
new account right after. -/
def ResetsDirty (s : StateDB σ) : Prop :=
  ∀ prev, .resetObjectChange prev ∈ s.journal.entries → prev.address ∈ s.journal.sortedDirties

/-- **An object that is not dirty** is as in the store. -/
theorem Wf.view_of_not_dirty {s : StateDB σ} (h : Wf s) (hreset : ResetsDirty s) {a : Address}
    (ha : a ∉ s.journal.sortedDirties) : s.view.objects a = baseView s.keeper s.ctx a := by
  apply h.view_of_untouched
  intro e he htarget
  apply ha
  cases e with
  | resetObjectChange prev =>
      obtain rfl := Option.some.inj htarget
      exact hreset prev he
  | _ =>
      rw [mem_sortedDirties, h.counts.isSome_iff]
      exact ⟨_, he, htarget⟩

/-! ## Missing objects -/

/-- Committing a live object does not panic. -/
theorem StateObject.commit_ne_panic {k : Keeper σ} {o : StateObject} {c c' : σ} (p : Panic) :
    o.commit k c ≠ .error (.panic p) c' := by
  intro h
  unfold commit at h
  split_ifs at h with hs
  · obtain ⟨e, -, he⟩ := adaptExcept_error.mp h
    exact absurd he (by simp)
  · rcases bind_error.mp h with h | ⟨-, c₁, -, h⟩
    · exact modify_ne_error h
    · rcases bind_error.mp h with h | ⟨-, c₂, -, h⟩
      · obtain ⟨e, -, he⟩ := adaptExcept_error.mp h
        exact absurd he (by simp)
      · exact modify_ne_error h

/-- **A commit does not panic.** -/
theorem Wf.commit_ne_panic {s : StateDB σ} (h : Wf s) (c c' : σ) (p : Panic) :
    s.commit c ≠ .error (.panic p) c' := by
  intro herr
  obtain ⟨a, ha, c₁, hone⟩ := exists_of_forM_error herr
  obtain ⟨o, ho⟩ := h.live_of_dirty ha
  simp only [ho] at hone
  exact StateObject.commit_ne_panic p hone

/-- **An entry is reverted where its object is live.** The newer part of a journal can be reverted, and
the account of the entry before it has a live object then. -/
theorem Wf.revertEntries_live {s : StateDB σ} (h : Wf s) {older newer : List JournalEntry}
    {e : JournalEntry} (hentries : s.journal.entries = older ++ e :: newer) :
    ∃ s₁, s.revertEntries newer.reverse = .ok s₁ ∧
      ∀ a, e.dirtied = some a → (s₁.stateObjects.get a).isSome := by
  obtain ⟨t, ht, -⟩ := h.history
  rw [hentries] at ht
  obtain ⟨w, ⟨u, hu, hundo⟩, -⟩ := rollback_append.mp ht
  have hlog : ∀ e' ∈ newer, e'.Coherent s.keeper s.ctx := by
    intro e' he'
    apply h.entries
    rw [hentries]
    exact List.mem_append_right _ (List.mem_cons_of_mem e he')
  obtain ⟨s₁, hrun, -, hle, -, -⟩ := StateDB.revertEntries_spec h.ready.coherent hlog hu
  refine ⟨s₁, hrun, ?_⟩
  intro a ha
  obtain ⟨keys, hkeys⟩ :=
    Option.ne_none_iff_exists'.mp (hundo.live a (JournalEntry.target_of_dirtied ha))
  obtain ⟨keys', hkeys', -⟩ := hle.2 a keys hkeys
  have hlive : s₁.caches a ≠ none := by
    rw [show s₁.caches a = some keys' from hkeys']
    exact Option.some_ne_none keys'
  obtain ⟨o, ho, -⟩ := StateDB.get_of_live hlive
  rw [ho]
  rfl

/-- **Reverting any part of the journal does not panic.** -/
theorem Wf.journalRevert_ok {s : StateDB σ} (h : Wf s) (n : ℕ) : ∃ s', s.journalRevert n = .ok s' := by
  obtain ⟨t, ht, -⟩ := h.history
  obtain ⟨w, hw, -⟩ := ht.split n
  have hlog : ∀ e ∈ s.journal.entries.drop n, e.Coherent s.keeper s.ctx :=
    fun e he => h.entries e (List.mem_of_mem_drop he)
  obtain ⟨s₁, hrun, -⟩ := StateDB.revertEntries_spec h.ready.coherent hlog hw
  unfold StateDB.journalRevert
  rw [hrun]
  exact ⟨_, rfl⟩

/-- **Dirty tracking never breaks a commit or a revert.** In every reachable state the dirty map has, for
every address, the number of entries that mark it dirty, and no address without one; every dirty address
has a live object; `Commit` does not dereference a missing one; and wherever a revert stops, every entry
it reverts finds the object of its account. -/
theorem dirties_live {ctx : σ} {k : Keeper σ} {txConfig : TxConfig} {ops : List Op} {s : StateDB σ}
    (hrun : runOps (StateDB.new ctx k txConfig) ops = .ok s) :
    (∀ a, s.journal.dirties.get a = if dirtyCount s.journal.entries a = 0 then none
      else some (dirtyCount s.journal.entries a : ℤ)) ∧
    (∀ a, (s.journal.dirties.get a).isSome → (s.stateObjects.get a).isSome) ∧
    (∀ c c' p, s.commit c ≠ .error (.panic p) c') ∧
    (∀ n, ∃ s', s.journalRevert n = .ok s') ∧
    (∀ older e newer, s.journal.entries = older ++ e :: newer →
      ∃ s₁, s.revertEntries newer.reverse = .ok s₁ ∧
        ∀ a, e.dirtied = some a → (s₁.stateObjects.get a).isSome) := by
  have hwf : Wf s := runOps_wf (wf_new ctx k txConfig) hrun
  refine ⟨hwf.counts, ?_, hwf.commit_ne_panic, hwf.journalRevert_ok, ?_⟩
  · intro a ha
    obtain ⟨o, ho⟩ := hwf.live_of_dirty (mem_sortedDirties.mpr ha)
    rw [ho]
    rfl
  · intro older e newer hentries
    exact hwf.revertEntries_live hentries

end commits

/-- An account that is created in a nested snapshot, and created again after a revert. Its two entries
count, and they are reverted against its object. -/
theorem dirties_live_recreated :
    letI := sampleKeccak
    let a : Address := .ofNat 20 1
    let start := StateDB.new MapStore.new mapKeeper (.newEmpty (.zero 32))
    ∃ s : StateDB MapStore, runOps start [.snapshot, .addBalance a 5, .revertToSnapshot 0, .createAccount a,
        .createAccount a, .setNonce a 1] = .ok s ∧
      s.journal.dirties.get a = some 2 ∧ (s.stateObjects.get a).isSome ∧
      (∀ c' p, s.commit MapStore.new ≠ .error (.panic p) c') ∧ ∃ s', s.journalRevert 0 = .ok s' := by
  let _ := sampleKeccak
  intro a start
  obtain ⟨s, hrun, hcount⟩ : ∃ s, runOps start [.snapshot, .addBalance a 5, .revertToSnapshot 0,
      .createAccount a, .createAccount a, .setNonce a 1] = .ok s ∧ dirtyCount s.journal.entries a = 2 :=
    ⟨_, rfl, by decide +kernel⟩
  obtain ⟨hcounts, hlive, hcommit, hrevert, -⟩ := dirties_live hrun
  have hdirty : s.journal.dirties.get a = some 2 := by
    rw [hcounts a, hcount]
    rfl
  exact ⟨s, hrun, hdirty, hlive a (by rw [hdirty]; rfl), hcommit _, hrevert 0⟩

end Smartdoge.Statedb
