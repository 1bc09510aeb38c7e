import Smartdoge.Statedb.Lawful
import Smartdoge.Statedb.Steps

/-!
# Snapshots and reverts over whole runs

`Wf` is the invariant of every `StateDB` reachable from `New` (`runOps_wf`):

* the live objects and the objects the journal keeps are coherent with the keeper;
* `journal.dirties` counts the entries of each address, and has no key with count zero;
* the journal leads back to the state `New` returned (`Wf.history`);
* the valid revisions have increasing ids and non-decreasing journal indices.

The journal is walked back by a loop that interleaves reverts with the bookkeeping of the dirty
counts. `revertEntries_spec` gives the loop its meaning in terms of `Rollback`, and
`revertToSnapshot_spec` lifts that to `RevertToSnapshot`.

**Main result** (`revertToSnapshot_exact`): a revert to a snapshot that is still valid succeeds and
restores every observation of the moment the snapshot was taken, whatever ran in between.
-/

set_option linter.unusedSectionVars false

namespace Smartdoge.Statedb

open Smartdoge.Lib
open Smartdoge.Lib.UndoLog

section runs

variable [Keccak] {σ : Type}

/-! ## Dirty counts -/

/-- How many entries of a log mark an address dirty. -/
def dirtyCount (log : List JournalEntry) (a : Address) : ℕ :=
  log.countP fun e => decide (e.dirtied = some a)

/-- A dirty map holds the dirty counts of a log, and no key with count zero. -/
def Counts (log : List JournalEntry) (dirties : GoMap Address ℤ) : Prop :=
  ∀ a, dirties.get a = if dirtyCount log a = 0 then none else some (dirtyCount log a : ℤ)

/-- The counters are determined by the log. -/
theorem counts_unique {log : List JournalEntry} {d d' : GoMap Address ℤ} (h : Counts log d)
    (h' : Counts log d') : d = d' := by
  ext1 a
  rw [h a, h' a]

/-- One more entry counts at the address that it dirties. -/
theorem dirtyCount_concat (log : List JournalEntry) (e : JournalEntry) (a : Address) :
    dirtyCount (log ++ [e]) a = dirtyCount log a + if e.dirtied = some a then 1 else 0 := by
  simp [dirtyCount, List.countP_append, List.countP_cons]

/-- A missing counter stands for zero. -/
theorem Counts.getD {log : List JournalEntry} {d : GoMap Address ℤ} (h : Counts log d)
    (a : Address) : (d.get a).getD 0 = dirtyCount log a := by
  rw [h a]
  split_ifs with h0
  · simp [h0]
  · rfl

/-- Recording an entry keeps the counters right. -/
theorem Counts.append {j : Journal} (h : Counts j.entries j.dirties) (e : JournalEntry) :
    Counts (j.append e).entries (j.append e).dirties := by
  intro a
  simp only [Journal.append, dirtyCount_concat]
  cases he : e.dirtied with
  | none => simpa using h a
  | some b =>
      by_cases hab : a = b
      · subst hab
        simp [h.getD]
      · simp only [GoMap.get_set_of_ne _ hab, Option.some.injEq, Ne.symm hab, if_false, add_zero]
        exact h a

/-- So does recording several entries. -/
theorem Counts.foldl_append {j : Journal} (h : Counts j.entries j.dirties)
    (new : List JournalEntry) :
    Counts (new.foldl Journal.append j).entries (new.foldl Journal.append j).dirties := by
  induction new generalizing j with
  | nil => exact h
  | cons e new ih => exact ih (h.append e)

/-- So does dropping the last entry. -/
theorem Counts.dropDirty {log : List JournalEntry} {j : Journal} {e : JournalEntry}
    (h : Counts (log ++ [e]) j.dirties) : Counts log (j.dropDirty e).dirties := by
  intro a
  have hget := h a
  rw [dirtyCount_concat] at hget
  unfold Journal.dropDirty
  cases he : e.dirtied with
  | none => simpa [he] using hget
  | some b =>
      have hb : (j.dirties.get b).getD 0 - 1 = dirtyCount log b := by
        rw [h.getD, dirtyCount_concat, he]
        simp
      simp only [hb]
      by_cases hab : a = b
      · subst hab
        by_cases h0 : dirtyCount log a = 0
        · simp [h0]
        · simp [h0]
      · rw [he] at hget
        simp only [Option.some.injEq, Ne.symm hab, if_false, add_zero] at hget
        by_cases h0 : (dirtyCount log b : ℤ) = 0
        · rw [if_pos h0]
          exact (GoMap.get_delete_of_ne _ hab).trans hget
        · rw [if_neg h0]
          exact (GoMap.get_set_of_ne _ hab _).trans hget

/-- So does dropping several entries, the last one first. -/
theorem Counts.foldl_dropDirty {log new : List JournalEntry} {j : Journal}
    (h : Counts (log ++ new) j.dirties) :
    Counts log (new.reverse.foldl Journal.dropDirty j).dirties := by
  induction new using List.reverseRecOn generalizing j with
  | nil => simpa using h
  | append_singleton new e ih =>
      rw [← List.append_assoc] at h
      rw [List.reverse_append]
      exact ih h.dropDirty

/-- The entries after several were recorded. -/
theorem foldl_append_entries (new : List JournalEntry) (j : Journal) :
    (new.foldl Journal.append j).entries = j.entries ++ new := by
  induction new generalizing j with
  | nil => simp
  | cons e new ih => rw [List.foldl_cons, ih, Journal.append, List.append_assoc, List.singleton_append]

/-- Dropping counters leaves the entries alone. -/
theorem foldl_dropDirty_entries (log : List JournalEntry) (j : Journal) :
    (log.foldl Journal.dropDirty j).entries = j.entries := by
  induction log generalizing j with
  | nil => rfl
  | cons e log ih =>
      rw [List.foldl_cons, ih]
      unfold Journal.dropDirty
      cases e.dirtied with
      | none => rfl
      | some a =>
          simp only
          split_ifs <;> rfl

/-! ## The revert loop -/

/-- **The loop of a revert.** Where the log can be rolled back, the loop over it does not panic,
ends where the rollback does, and has dropped the dirty tracking of every entry. -/
theorem StateDB.revertEntries_spec {s : StateDB σ} {log : List JournalEntry} (hs : s.Coherent)
    (hlog : ∀ e ∈ log, e.Coherent s.keeper s.ctx) {t : Abs}
    (h : Rollback (Undo s.keeper s.ctx) log s.abs t) :
    ∃ s', s.revertEntries log.reverse = .ok s' ∧
      s'.journal = log.reverse.foldl Journal.dropDirty s.journal ∧ Reverted s s' t := by
  induction log using List.reverseRecOn generalizing s t with
  | nil =>
      obtain rfl := rollback_nil.mp h
      exact ⟨s, rfl, rfl, Abs.Le.refl _, hs, SameFrame.refl s⟩
  | append_singleton log e ih =>
      obtain ⟨u, hu, hrest⟩ := rollback_concat.mp h
      obtain ⟨s₁, hrev, hj, hle, hco, hframe⟩ :=
        JournalEntry.revert_spec hs (hlog e (by simp)) hu
      -- The state the loop continues with: the dirty tracking of `e` is dropped.
      let s₂ : StateDB σ := { s₁ with journal := s₁.journal.dropDirty e }
      have hframe₂ : SameFrame s s₂ :=
        ⟨hframe.keeper, hframe.ctx, hframe.txConfig, hframe.validRevisions, hframe.nextRevisionID⟩
      obtain ⟨t', hrest', hle'⟩ := rollback_undo_mono hrest (show u.Le s₂.abs from hle)
      rw [← hframe₂.keeper, ← hframe₂.ctx] at hrest'
      have hlog₂ : ∀ e' ∈ log, e'.Coherent s₂.keeper s₂.ctx := by
        intro e' he'
        rw [hframe₂.keeper, hframe₂.ctx]
        exact hlog e' (List.mem_append_left _ he')
      obtain ⟨s', hrun, hj', hle'', hco', hframe'⟩ := ih (s := s₂) hco hlog₂ hrest'
      refine ⟨s', ?_, ?_, hle'.trans hle'', hco', hframe₂.trans hframe'⟩
      · rw [List.reverse_append, List.reverse_singleton, List.singleton_append, revertEntries, hrev]
        exact hrun
      · rw [hj', List.reverse_append, List.reverse_singleton, List.singleton_append, List.foldl_cons,
          ← hj]

/-! ## The invariant of reachable states -/

/-- The view of the state `New` returns. -/
def initialView (k : Keeper σ) (ctx : σ) : View where
  objects := baseView k ctx
  refund := 0
  logs := []
  accessList := .new

/-- The valid revisions of a state. -/
structure RevisionsWf (s : StateDB σ) : Prop where
  ids : s.validRevisions.Pairwise fun r r' => r.id < r'.id
  indices : s.validRevisions.Pairwise fun r r' => r.journalIndex ≤ r'.journalIndex
  next : ∀ r ∈ s.validRevisions, r.id < s.nextRevisionID
  bound : ∀ r ∈ s.validRevisions, r.journalIndex ≤ s.journal.entries.length

/-- **The invariant of reachable states.** -/
structure Wf (s : StateDB σ) : Prop where
  ready : Ready s
  entries : ∀ e ∈ s.journal.entries, e.Coherent s.keeper s.ctx
  counts : Counts s.journal.entries s.journal.dirties
  history : ∃ t, Rollback (Undo s.keeper s.ctx) s.journal.entries s.abs t ∧
    t.view = initialView s.keeper s.ctx
  revisions : RevisionsWf s

/-- A fresh state is well-formed. -/
theorem wf_new (ctx : σ) (k : Keeper σ) (txConfig : TxConfig) : Wf (StateDB.new ctx k txConfig) where
  ready := by
    refine ⟨?_, AccessList.new_wf⟩
    intro a o ho
    simp [StateDB.new] at ho
  entries := by simp [StateDB.new, Journal.new]
  counts := by
    intro a
    simp [StateDB.new, Journal.new, dirtyCount]
  history := by
    refine ⟨_, rfl, ?_⟩
    ext1
    · funext a
      exact StateDB.view_objects_of_get_none (s := StateDB.new ctx k txConfig) (GoMap.get_empty a)
    · rfl
    · rfl
    · rfl
  revisions := by
    constructor <;> simp [StateDB.new]

/-- A step keeps the state well-formed. -/
theorem Wf.step {s s' : StateDB σ} (h : Wf s) {new : List JournalEntry} (hstep : Step s s' new) :
    Wf s' := by
  have hentries : s'.journal.entries = s.journal.entries ++ new := by
    rw [hstep.journal, foldl_append_entries]
  refine ⟨hstep.ready, ?_, ?_, ?_, ?_, ?_, ?_, ?_⟩
  · intro e he
    rw [hstep.frame.keeper, hstep.frame.ctx]
    rw [hentries] at he
    rcases List.mem_append.mp he with he | he
    · exact h.entries e he
    · exact hstep.entries e he
  · rw [hstep.journal]
    exact h.counts.foldl_append new
  · obtain ⟨t, ht, hview⟩ := h.history
    obtain ⟨u, hu, hle⟩ := hstep.undo
    obtain ⟨t', ht', hle'⟩ := rollback_undo_mono ht hle
    rw [hentries, hstep.frame.keeper, hstep.frame.ctx]
    exact ⟨t', hu.extend ht', hle'.1.trans hview⟩
  · rw [hstep.frame.validRevisions]
    exact h.revisions.ids
  · rw [hstep.frame.validRevisions]
    exact h.revisions.indices
  · rw [hstep.frame.validRevisions, hstep.frame.nextRevisionID]
    exact h.revisions.next
  · rw [hstep.frame.validRevisions, hentries, List.length_append]
    intro r hr
    have := h.revisions.bound r hr
    omega

/-- So does a snapshot. -/
theorem Wf.snapshot {s : StateDB σ} (h : Wf s) : Wf s.snapshot.2 := by
  refine ⟨⟨h.ready.coherent, h.ready.accessList_wf⟩, h.entries, h.counts, h.history, ?_, ?_, ?_, ?_⟩
  · show List.Pairwise _ (s.validRevisions ++ [_])
    rw [List.pairwise_append]
    refine ⟨h.revisions.ids, List.pairwise_singleton _ _, ?_⟩
    intro r hr r' hr'
    rw [List.mem_singleton.mp hr']
    exact h.revisions.next r hr
  · show List.Pairwise _ (s.validRevisions ++ [_])
    rw [List.pairwise_append]
    refine ⟨h.revisions.indices, List.pairwise_singleton _ _, ?_⟩
    intro r hr r' hr'
    rw [List.mem_singleton.mp hr']
    exact h.revisions.bound r hr
  · intro r hr
    show r.id < s.nextRevisionID + 1
    rcases List.mem_append.mp hr with hr | hr
    · have := h.revisions.next r hr
      omega
    · rw [List.mem_singleton.mp hr]
      exact Nat.lt_succ_self _
  · intro r hr
    rcases List.mem_append.mp hr with hr | hr
    · exact h.revisions.bound r hr
    · rw [List.mem_singleton.mp hr]
      exact le_rfl

/-! ## `RevertToSnapshot` -/

/-- A rollback keeps the access list well-formed. -/
theorem rollback_accessList_wf {k : Keeper σ} {ctx : σ} {log : List JournalEntry} {s t : Abs}
    (h : Rollback (Undo k ctx) log s t) (hs : s.view.accessList.Wf) : t.view.accessList.Wf :=
  Rollback.invariant (P := fun s => s.view.accessList.Wf)
    (fun _ _ _ _ hu _ => hu.accessList_wf) h hs

/-- The binary search of `RevertToSnapshot` finds a valid revision. -/
theorem RevisionsWf.findIdx {s : StateDB σ} (h : RevisionsWf s) {i : ℕ} {r : Revision}
    (hr : s.validRevisions[i]? = some r) :
    s.validRevisions.findIdx (fun r' => decide (r.id ≤ r'.id)) = i := by
  obtain ⟨hlt, hi⟩ := List.getElem?_eq_some_iff.mp hr
  rw [List.findIdx_eq hlt]
  refine ⟨by simp [hi], ?_⟩
  intro j hj
  have hij := List.pairwise_iff_getElem.mp h.ids j i (by omega) hlt hj
  rw [hi] at hij
  simp only [decide_eq_false_iff_not, not_le]
  exact hij

/-- What a revert to the revision `r` at index `i` leads to, where the journal rolls back to `w`. -/
structure RevertedTo (s s' : StateDB σ) (i : ℕ) (r : Revision) (w : Abs) : Prop where
  le : w.Le s'.abs
  ready : Ready s'
  keeper : s'.keeper = s.keeper
  ctx : s'.ctx = s.ctx
  txConfig : s'.txConfig = s.txConfig
  entries : s'.journal.entries = s.journal.entries.take r.journalIndex
  counts : Counts s'.journal.entries s'.journal.dirties
  validRevisions : s'.validRevisions = s.validRevisions.take i
  nextRevisionID : s'.nextRevisionID = s.nextRevisionID

/-- **A revert to a valid revision** succeeds and ends where the rollback of the journal does. -/
theorem StateDB.revertToSnapshot_spec {s : StateDB σ} (h : Wf s) {i : ℕ} {r : Revision}
    (hr : s.validRevisions[i]? = some r) {w : Abs}
    (hw : Rollback (Undo s.keeper s.ctx) (s.journal.entries.drop r.journalIndex) s.abs w) :
    ∃ s', s.revertToSnapshot r.id = .ok s' ∧ RevertedTo s s' i r w := by
  have hlog : ∀ e ∈ s.journal.entries.drop r.journalIndex, e.Coherent s.keeper s.ctx :=
    fun e he => h.entries e (List.mem_of_mem_drop he)
  obtain ⟨s₁, hrun, hj, hle, hco, hframe⟩ := revertEntries_spec h.ready.coherent hlog hw
  have hentries : s₁.journal.entries = s.journal.entries := by
    rw [hj, foldl_dropDirty_entries]
  have hcounts : Counts (s.journal.entries.take r.journalIndex) s₁.journal.dirties := by
    rw [hj]
    apply Counts.foldl_dropDirty
    rw [List.take_append_drop]
    exact h.counts
  refine ⟨{ s₁ with
      journal := { s₁.journal with entries := s₁.journal.entries.take r.journalIndex }
      validRevisions := s₁.validRevisions.take i }, ?_, hle, ⟨hco, ?_⟩, hframe.keeper, hframe.ctx,
      hframe.txConfig, ?_, ?_, ?_, hframe.nextRevisionID⟩
  · simp [revertToSnapshot, h.revisions.findIdx hr, hr, journalRevert, hrun, bind, Except.bind]
  · have hwf := rollback_accessList_wf hw h.ready.accessList_wf
    rw [← hle.1] at hwf
    exact hwf
  · rw [hentries]
  · rw [hentries]
    exact hcounts
  · rw [hframe.validRevisions]

/-- A call that returned was given the id of a valid revision. -/
theorem StateDB.exists_revision_of_revertToSnapshot {s s' : StateDB σ} {revid : ℕ}
    (h : s.revertToSnapshot revid = .ok s') :
    ∃ (i : ℕ) (r : Revision), s.validRevisions[i]? = some r ∧ r.id = revid := by
  simp only [revertToSnapshot] at h
  split at h
  · exact absurd h (by simp)
  · rename_i r hr
    by_cases hid : r.id = revid
    · exact ⟨_, r, hr, hid⟩
    · rw [if_pos hid] at h
      exact absurd h (by simp)

/-- A revision older than the one reverted to has an index below the cut. -/
theorem RevisionsWf.index_le {s : StateDB σ} (h : RevisionsWf s) {i : ℕ} {r r' : Revision}
    (hr : s.validRevisions[i]? = some r) (hr' : r' ∈ s.validRevisions.take i) :
    r'.journalIndex ≤ r.journalIndex := by
  obtain ⟨hlt, hi⟩ := List.getElem?_eq_some_iff.mp hr
  obtain ⟨j, hj, hget⟩ := List.mem_take_iff_getElem.mp hr'
  have hji : j < i := by omega
  have hij := List.pairwise_iff_getElem.mp h.indices j i (by omega) hlt hji
  rw [hget, hi] at hij
  exact hij

/-- So does a revert. -/
theorem Wf.revertedTo {s s' : StateDB σ} (h : Wf s) {i : ℕ} {r : Revision}
    (hr : s.validRevisions[i]? = some r) {w t : Abs} (hrev : RevertedTo s s' i r w)
    (ht : Rollback (Undo s.keeper s.ctx) (s.journal.entries.take r.journalIndex) w t)
    (hview : t.view = initialView s.keeper s.ctx) : Wf s' := by
  refine ⟨hrev.ready, ?_, hrev.counts, ?_, ?_, ?_, ?_, ?_⟩
  · intro e he
    rw [hrev.keeper, hrev.ctx]
    rw [hrev.entries] at he
    exact h.entries e (List.mem_of_mem_take he)
  · obtain ⟨t', ht', hle'⟩ := rollback_undo_mono ht hrev.le
    rw [hrev.keeper, hrev.ctx, hrev.entries]
    exact ⟨t', ht', hle'.1.trans hview⟩
  · rw [hrev.validRevisions]
    exact h.revisions.ids.sublist (List.take_sublist _ _)
  · rw [hrev.validRevisions]
    exact h.revisions.indices.sublist (List.take_sublist _ _)
  · intro r' hr'
    rw [hrev.validRevisions] at hr'
    rw [hrev.nextRevisionID]
    exact h.revisions.next r' (List.mem_of_mem_take hr')
  · intro r' hr'
    rw [hrev.validRevisions] at hr'
    rw [hrev.entries, List.length_take]
    have hle := h.revisions.index_le hr hr'
    have hbound := h.revisions.bound r' (List.mem_of_mem_take hr')
    omega

/-- **What a successful `RevertToSnapshot` does**, in one statement: it goes to the state the
journal rolls back to, and the remaining journal leads on to the initial state. -/
theorem Wf.revertToSnapshot {s s' : StateDB σ} (h : Wf s) {revid : ℕ}
    (hrun : s.revertToSnapshot revid = .ok s') :
    ∃ (i : ℕ) (r : Revision), s.validRevisions[i]? = some r ∧ r.id = revid ∧ Wf s' ∧
      ∀ w, Rollback (Undo s.keeper s.ctx) (s.journal.entries.drop r.journalIndex) s.abs w →
        RevertedTo s s' i r w := by
  obtain ⟨i, r, hr, rfl⟩ := StateDB.exists_revision_of_revertToSnapshot hrun
  have hto : ∀ w, Rollback (Undo s.keeper s.ctx) (s.journal.entries.drop r.journalIndex) s.abs w →
      RevertedTo s s' i r w := by
    intro w hw
    obtain ⟨s₁, hrun₁, hrev⟩ := StateDB.revertToSnapshot_spec h hr hw
    obtain rfl := Except.ok.inj (hrun₁.symm.trans hrun)
    exact hrev
  obtain ⟨t, ht, hview⟩ := h.history
  obtain ⟨w, hw, hrest⟩ := ht.split r.journalIndex
  exact ⟨i, r, hr, rfl, h.revertedTo hr (hto w hw) hrest hview, hto⟩

/-! ## Runs -/

/-- **Every operation keeps the state well-formed.** -/
theorem Op.wf {op : Op} {s s' : StateDB σ} (h : Wf s) (hrun : op.run s = .ok s') : Wf s' := by
  by_cases hop : op.isVersion = false
  · obtain ⟨new, hstep, -⟩ := Op.step hop h.ready hrun
    exact h.step hstep
  · cases op with
    | snapshot =>
        obtain rfl := Except.ok.inj hrun
        exact h.snapshot
    | revertToSnapshot revid =>
        obtain ⟨i, r, -, -, hwf, -⟩ := h.revertToSnapshot hrun
        exact hwf
    | _ => exact absurd rfl hop

/-- **Every reachable state satisfies the invariant.** -/
theorem runOps_wf {ops : List Op} {s s' : StateDB σ} (h : Wf s) (hrun : runOps s ops = .ok s') :
    Wf s' := by
  induction ops generalizing s with
  | nil =>
      obtain rfl := Except.ok.inj hrun
      exact h
  | cons op ops ih =>
      obtain ⟨s₁, h₁, h₂⟩ := runOps_cons.mp hrun
      exact ih (Op.wf h h₁) h₂

/-- No operation changes the store; only a commit does. -/
theorem Op.store {op : Op} {s s' : StateDB σ} (h : Wf s) (hrun : op.run s = .ok s') :
    s'.keeper = s.keeper ∧ s'.ctx = s.ctx ∧ s'.txConfig = s.txConfig := by
  by_cases hop : op.isVersion = false
  · obtain ⟨new, hstep, -⟩ := Op.step hop h.ready hrun
    exact ⟨hstep.frame.keeper, hstep.frame.ctx, hstep.frame.txConfig⟩
  · cases op with
    | snapshot =>
        obtain rfl := Except.ok.inj hrun
        exact ⟨rfl, rfl, rfl⟩
    | revertToSnapshot revid =>
        obtain ⟨i, r, -, -, -, hto⟩ := h.revertToSnapshot hrun
        obtain ⟨t, ht, -⟩ := h.history
        obtain ⟨w, hw, -⟩ := ht.split r.journalIndex
        have hrev := hto w hw
        exact ⟨hrev.keeper, hrev.ctx, hrev.txConfig⟩
    | _ => exact absurd rfl hop

/-- Operations write to neither the store nor the configuration. -/
theorem runOps_store {ops : List Op} {s s' : StateDB σ} (h : Wf s) (hrun : runOps s ops = .ok s') :
    s'.keeper = s.keeper ∧ s'.ctx = s.ctx ∧ s'.txConfig = s.txConfig := by
  induction ops generalizing s with
  | nil =>
      obtain rfl := Except.ok.inj hrun
      exact ⟨rfl, rfl, rfl⟩
  | cons op ops ih =>
      obtain ⟨s₁, h₁, h₂⟩ := runOps_cons.mp hrun
      obtain ⟨hk₁, hc₁, ht₁⟩ := Op.store h h₁
      obtain ⟨hk₂, hc₂, ht₂⟩ := ih (Op.wf h h₁) h₂
      exact ⟨hk₂.trans hk₁, hc₂.trans hc₁, ht₂.trans ht₁⟩

/-! ## Observations -/

/-- What a caller can observe of a state through its getters, with the length of the journal and
the dirty map that `Commit` walks. -/
structure Observation where
  exist : Address → Bool
  empty : Address → Bool
  getBalance : Address → ℤ
  getNonce : Address → UInt64
  getCode : Address → Option Bytes
  getCodeHash : Address → Hash
  hasSuicided : Address → Bool
  getState : Address → Hash → Hash
  getCommittedState : Address → Hash → Hash
  getRefund : UInt64
  logs : List Log
  addressInAccessList : Address → Bool
  slotInAccessList : Address → Hash → Except Panic (Bool × Bool)
  journalLength : ℕ
  dirties : GoMap Address ℤ

/-- Each getter called on the state itself. -/
def StateDB.observe (s : StateDB σ) : Observation where
  exist a := (s.exist a).1
  empty a := (s.empty a).1
  getBalance a := (s.getBalance a).1
  getNonce a := (s.getNonce a).1
  getCode a := (s.getCode a).1
  getCodeHash a := (s.getCodeHash a).1
  hasSuicided a := (s.hasSuicided a).1
  getState a key := (s.getState a key).1
  getCommittedState a key := (s.getCommittedState a key).1
  getRefund := s.refund
  logs := s.logs
  addressInAccessList a := s.accessList.containsAddress a
  slotInAccessList a slot := s.accessList.contains a slot
  journalLength := s.journal.length
  dirties := s.journal.dirties

/-- Coherent states over the same store with the same view and the same dirty tracking cannot be
told apart. -/
theorem StateDB.observe_congr {s t : StateDB σ} (hs : s.Coherent) (ht : t.Coherent)
    (hk : t.keeper = s.keeper) (hctx : t.ctx = s.ctx) (hview : t.view = s.view)
    (hlen : t.journal.length = s.journal.length) (hdirties : t.journal.dirties = s.journal.dirties) :
    t.observe = s.observe := by
  have hrefund : t.refund = s.refund := congrArg View.refund hview
  have hlogs : t.logs = s.logs := congrArg View.logs hview
  have hacl : t.accessList = s.accessList := congrArg View.accessList hview
  simp only [observe, exist_fst hs, exist_fst ht, empty_fst hs, empty_fst ht, getBalance_fst hs,
    getBalance_fst ht, getNonce_fst hs, getNonce_fst ht, getCode_fst hs, getCode_fst ht,
    getCodeHash_fst hs, getCodeHash_fst ht, hasSuicided_fst hs, hasSuicided_fst ht,
    getState_fst hs, getState_fst ht, getCommittedState_fst hs, getCommittedState_fst ht, hk, hctx,
    hview, hrefund, hlogs, hacl, hlen, hdirties]

/-! ## Exactness -/

/-- The snapshot `id` taken in `s₀` is still good in `s`: where its revision is still valid, the
journal below it is the one of `s₀` and the journal above it leads back to `s₀`. -/
structure Tracks (s₀ : StateDB σ) (id : ℕ) (s : StateDB σ) : Prop where
  keeper : s.keeper = s₀.keeper
  ctx : s.ctx = s₀.ctx
  id_lt : id < s.nextRevisionID
  revision : ∀ r ∈ s.validRevisions, r.id = id →
    r.journalIndex = s₀.journal.entries.length ∧
    s.journal.entries.take r.journalIndex = s₀.journal.entries ∧
    ∃ u, Rollback (Undo s.keeper s.ctx) (s.journal.entries.drop r.journalIndex) s.abs u ∧ s₀.abs.Le u

/-- A snapshot can be reverted to right away. -/
theorem Tracks.snapshot_self {s : StateDB σ} (h : Wf s) : Tracks s s.snapshot.1 s.snapshot.2 where
  keeper := rfl
  ctx := rfl
  id_lt := Nat.lt_succ_self _
  revision := by
    intro r hr hid
    rcases List.mem_append.mp hr with hr | hr
    · have := h.revisions.next r hr
      have hid' : r.id = s.nextRevisionID := hid
      omega
    · rw [List.mem_singleton.mp hr]
      refine ⟨rfl, List.take_length, s.abs, ?_, Abs.Le.refl _⟩
      show Rollback _ (s.journal.entries.drop s.journal.entries.length) s.abs s.abs
      rw [List.drop_length]
      rfl

/-- A step keeps that it can be reverted to. -/
theorem Tracks.step {s₀ s s' : StateDB σ} {id : ℕ} (h : Tracks s₀ id s) {new : List JournalEntry}
    (hstep : Step s s' new) : Tracks s₀ id s' where
  keeper := hstep.frame.keeper.trans h.keeper
  ctx := hstep.frame.ctx.trans h.ctx
  id_lt := by
    rw [hstep.frame.nextRevisionID]
    exact h.id_lt
  revision := by
    intro r hr hid
    rw [hstep.frame.validRevisions] at hr
    obtain ⟨hidx, htake, u, hu, hle⟩ := h.revision r hr hid
    have hentries : s'.journal.entries = s.journal.entries ++ new := by
      rw [hstep.journal, foldl_append_entries]
    have hlen : r.journalIndex ≤ s.journal.entries.length := by
      have := congrArg List.length htake
      rw [List.length_take, ← hidx] at this
      omega
    obtain ⟨w, hw, hlew⟩ := hstep.undo
    obtain ⟨u', hu', hle'⟩ := rollback_undo_mono hu hlew
    rw [hentries, hstep.frame.keeper, hstep.frame.ctx]
    refine ⟨hidx, ?_, u', Rollback.drop_extend hlen hw hu', hle.trans hle'⟩
    rw [List.take_append_of_le_length hlen]
    exact htake

/-- So does a later snapshot. -/
theorem Tracks.snapshot {s₀ s : StateDB σ} {id : ℕ} (h : Tracks s₀ id s) :
    Tracks s₀ id s.snapshot.2 where
  keeper := h.keeper
  ctx := h.ctx
  id_lt := Nat.lt_succ_of_lt h.id_lt
  revision := by
    intro r hr hid
    rcases List.mem_append.mp hr with hr | hr
    · exact h.revision r hr hid
    · rw [List.mem_singleton.mp hr] at hid
      have := h.id_lt
      have hid' : s.nextRevisionID = id := hid
      omega

/-- So does a revert, as far as the snapshot is still valid. -/
theorem Tracks.revertToSnapshot {s₀ s s' : StateDB σ} {id revid : ℕ} (h : Tracks s₀ id s)
    (hwf : Wf s) (hrun : s.revertToSnapshot revid = .ok s') : Tracks s₀ id s' := by
  obtain ⟨i, r, hr, -, -, hto⟩ := hwf.revertToSnapshot hrun
  obtain ⟨t, ht, -⟩ := hwf.history
  obtain ⟨w₀, hw₀, -⟩ := ht.split r.journalIndex
  have hrev₀ := hto w₀ hw₀
  refine ⟨hrev₀.keeper.trans h.keeper, hrev₀.ctx.trans h.ctx, ?_, ?_⟩
  · rw [hrev₀.nextRevisionID]
    exact h.id_lt
  · intro r' hr' hid
    rw [hrev₀.validRevisions] at hr'
    have hle := hwf.revisions.index_le hr hr'
    obtain ⟨hidx, htake, u, hu, hleu⟩ := h.revision r' (List.mem_of_mem_take hr') hid
    -- The rollback to the tracked snapshot passes through the point reverted to.
    obtain ⟨w, hw, hrest⟩ := hu.split (r.journalIndex - r'.journalIndex)
    rw [List.drop_drop, Nat.add_sub_cancel' hle] at hw
    rw [← List.drop_take] at hrest
    have hrev := hto w hw
    obtain ⟨u', hu', hle'⟩ := rollback_undo_mono hrest hrev.le
    rw [hrev.entries, hrev.keeper, hrev.ctx]
    refine ⟨hidx, ?_, u', hu', hleu.trans hle'⟩
    rw [List.take_take, min_eq_left hle]
    exact htake

/-- So do any operations. -/
theorem runOps_tracks {s₀ : StateDB σ} {id : ℕ} {ops : List Op} {s s' : StateDB σ} (hwf : Wf s)
    (h : Tracks s₀ id s) (hrun : runOps s ops = .ok s') : Tracks s₀ id s' := by
  induction ops generalizing s with
  | nil =>
      obtain rfl := Except.ok.inj hrun
      exact h
  | cons op ops ih =>
      obtain ⟨s₁, h₁, h₂⟩ := runOps_cons.mp hrun
      refine ih (Op.wf hwf h₁) ?_ h₂
      by_cases hop : op.isVersion = false
      · obtain ⟨new, hstep, -⟩ := Op.step hop hwf.ready h₁
        exact h.step hstep
      · cases op with
        | snapshot =>
            obtain rfl := Except.ok.inj h₁
            exact h.snapshot
        | revertToSnapshot revid => exact h.revertToSnapshot hwf h₁
        | _ => exact absurd rfl hop

/-- A revision id that `RevertToSnapshot` accepts. -/
def StateDB.ValidRevision (s : StateDB σ) (id : ℕ) : Prop := ∃ r ∈ s.validRevisions, r.id = id

/-- `t` is back in the state `s`: it reports the same and has the same journal. Only its caches may
hold more. -/
structure Returned (s t : StateDB σ) : Prop where
  ready : Ready t
  keeper : t.keeper = s.keeper
  ctx : t.ctx = s.ctx
  view : t.view = s.view
  entries : t.journal.entries = s.journal.entries
  dirties : t.journal.dirties = s.journal.dirties

/-- Take a snapshot, run any operations that leave it valid, and revert to it. -/
theorem Wf.exists_returned {s t : StateDB σ} (h : Wf s) {ops : List Op}
    (ht : runOps s.snapshot.2 ops = .ok t) (hvalid : t.ValidRevision s.snapshot.1) :
    ∃ t', t.revertToSnapshot s.snapshot.1 = .ok t' ∧ Returned s t' := by
  have hwft : Wf t := runOps_wf h.snapshot ht
  have htracks := runOps_tracks h.snapshot (Tracks.snapshot_self h) ht
  obtain ⟨r, hr, hid⟩ := hvalid
  obtain ⟨hidx, htake, u, hu, hle⟩ := htracks.revision r hr hid
  obtain ⟨i, hi⟩ := List.mem_iff_getElem?.mp hr
  obtain ⟨t', hrun, hrev⟩ := StateDB.revertToSnapshot_spec hwft hi hu
  rw [hid] at hrun
  have hentries : t'.journal.entries = s.journal.entries := hrev.entries.trans htake
  have hcounts := hrev.counts
  rw [hentries] at hcounts
  exact ⟨t', hrun, hrev.ready, hrev.keeper.trans htracks.keeper, hrev.ctx.trans htracks.ctx,
    hrev.le.1.trans hle.1, hentries, counts_unique hcounts h.counts⟩

/-- A revert that returned was to a valid snapshot. -/
theorem Wf.returned {s t t' : StateDB σ} (h : Wf s) {ops : List Op}
    (ht : runOps s.snapshot.2 ops = .ok t) (hrev : t.revertToSnapshot s.snapshot.1 = .ok t') :
    Returned s t' := by
  obtain ⟨i, r, hr, hid⟩ := StateDB.exists_revision_of_revertToSnapshot hrev
  obtain ⟨t'', hrun, hret⟩ := h.exists_returned ht ⟨r, List.mem_of_getElem? hr, hid⟩
  obtain rfl := Except.ok.inj (hrun.symm.trans hrev)
  exact hret

/-- **Snapshot and revert are exact.** Take a snapshot in any reachable state, run any operations
that return and leave the snapshot valid, and revert to it: the revert succeeds, and every
observation is the one made when the snapshot was taken. -/
theorem revertToSnapshot_exact (k : Keeper σ) (ctx : σ) (txConfig : TxConfig) {ops ops' : List Op}
    {s t : StateDB σ} (hs : runOps (StateDB.new ctx k txConfig) ops = .ok s)
    (ht : runOps s.snapshot.2 ops' = .ok t) (hvalid : t.ValidRevision s.snapshot.1) :
    ∃ t', t.revertToSnapshot s.snapshot.1 = .ok t' ∧ t'.observe = s.observe := by
  have hwfs : Wf s := runOps_wf (wf_new ctx k txConfig) hs
  obtain ⟨t', hrun, hret⟩ := hwfs.exists_returned ht hvalid
  refine ⟨t', hrun, ?_⟩
  apply StateDB.observe_congr hwfs.ready.coherent hret.ready.coherent
  · exact hret.keeper
  · exact hret.ctx
  · exact hret.view
  · exact congrArg List.length hret.entries
  · exact hret.dirties

end runs

/-- A run over an empty store that re-creates an account, and takes and reverts an inner snapshot
before it goes back to the outer one. -/
theorem revertToSnapshot_exact_nested :
    letI := sampleKeccak
    let a : Address := .ofNat 20 1
    ∃ s t t' : StateDB MapStore,
      runOps (StateDB.new MapStore.new mapKeeper (.newEmpty (.zero 32)))
        [.addBalance a 5, .setState a (.ofNat 32 1) (.ofNat 32 7)] = .ok s ∧
      runOps s.snapshot.2 [.createAccount a, .setCode a (some [0]), .snapshot, .suicide a,
        .revertToSnapshot 1, .subBalance a 3, .addSlotToAccessList a (.zero 32)] = .ok t ∧
      t.revertToSnapshot s.snapshot.1 = .ok t' ∧ t'.observe = s.observe ∧
      (t.getBalance a).1 = 2 ∧ (t'.getBalance a).1 = 5 := by
  let _ := sampleKeccak
  intro a
  obtain ⟨t', hrun, hobs⟩ := revertToSnapshot_exact mapKeeper MapStore.new (.newEmpty (.zero 32))
    (rfl : runOps _ [.addBalance a 5, .setState a (.ofNat 32 1) (.ofNat 32 7)] = .ok _)
    (rfl : runOps _ [.createAccount a, .setCode a (some [0]), .snapshot, .suicide a,
      .revertToSnapshot 1, .subBalance a 3, .addSlotToAccessList a (.zero 32)] = .ok _)
    ⟨⟨0, 3⟩, by decide, rfl⟩
  refine ⟨_, _, t', rfl, rfl, hrun, hobs, rfl, ?_⟩
  exact (congrFun (congrArg Observation.getBalance hobs) a).trans rfl

end Smartdoge.Statedb
