import Smartdoge.Lib.Search
import Smartdoge.Statedb.Snapshot

/-!
# Revision ids

`Snapshot` hands out ids and `RevertToSnapshot` takes them back. What an id is good for is told by the
calls alone: it was returned, and no revert to it or to an older one has happened since (`Stands`). The
code decides by a binary search in `validRevisions`. `revertToSnapshotId` is the call with that search,
and with any `int`; on the ids of a reachable state the search finds the first revision that is not
older (`revertToSnapshotId_eq`).

* `stands_iff_valid`: along a run, the revisions of the list are those that stand.
* **`revisions_stack`**: in every reachable state the list is ordered, a revert panics exactly for the
  ids that do not stand, and otherwise leaves the older ones, each with the state it was taken in.
-/

set_option linter.unusedSectionVars false

namespace Smartdoge.Statedb

open Smartdoge.Lib

/-! ## Ids by the calls -/

/-- A call that concerns revisions and returned. -/
inductive RevisionEvent where
  /-- `Snapshot` returned an id. -/
  | returned (id : ℕ)
  /-- `RevertToSnapshot` was called with an id. -/
  | reverted (id : ℕ)
deriving DecidableEq

/-- The id was returned, and no later revert went to it or to an older one. -/
def Stands (events : List RevisionEvent) (id : ℕ) : Prop :=
  ∃ before after, events = before ++ .returned id :: after ∧ ∀ id', .reverted id' ∈ after → id < id'

/-- The ids that `Snapshot` returned, in this order. -/
def returnedIds (events : List RevisionEvent) : List ℕ :=
  events.filterMap fun
    | .returned id => some id
    | .reverted _ => none

/-- No snapshot stands before one was taken. -/
theorem not_stands_nil (id : ℕ) : ¬Stands [] id := by
  rintro ⟨before, after, h, -⟩
  simp at h

/-- An event is the last one, or stands before the last one. -/
theorem stands_concat {events : List RevisionEvent} {x : RevisionEvent} {id : ℕ} :
    Stands (events ++ [x]) id ↔
      x = .returned id ∨ Stands events id ∧ ∀ id', x = .reverted id' → id < id' := by
  constructor
  · rintro ⟨before, after, h, hlater⟩
    rcases List.eq_nil_or_concat' after with rfl | ⟨after, y, rfl⟩
    · left
      exact List.singleton_inj.mp (List.append_inj_right' h rfl)
    · right
      rw [← List.cons_append, ← List.append_assoc] at h
      obtain ⟨rfl, hx⟩ := List.append_inj' h rfl
      obtain rfl := List.singleton_inj.mp hx
      refine ⟨⟨before, after, rfl, ?_⟩, ?_⟩
      · intro id' hid'
        exact hlater id' (List.mem_append_left _ hid')
      · rintro id' rfl
        exact hlater id' (List.mem_append_right _ (List.mem_singleton.mpr rfl))
  · rintro (rfl | ⟨⟨before, after, rfl, hlater⟩, hlast⟩)
    · exact ⟨events, [], rfl, by simp⟩
    · refine ⟨before, after ++ [x], by simp, ?_⟩
      intro id' hid'
      rcases List.mem_append.mp hid' with hid' | hid'
      · exact hlater id' hid'
      · exact hlast id' (List.mem_singleton.mp hid').symm

section runs

variable [Keccak] {σ : Type}

/-- The event of one call. -/
def Op.revisionEvents (s : StateDB σ) : Op → List RevisionEvent
  | .snapshot => [.returned s.snapshot.1]
  | .revertToSnapshot id => [.reverted id]
  | _ => []

/-- The events of a run, up to the first panic. -/
def revisionEvents (s : StateDB σ) : List Op → List RevisionEvent
  | [] => []
  | op :: ops =>
    match op.run s with
    | .ok s₁ => op.revisionEvents s ++ revisionEvents s₁ ops
    | .error _ => []

/-! ## The list of revisions -/

instance (s : StateDB σ) (id : ℕ) : Decidable (s.ValidRevision id) :=
  inferInstanceAs (Decidable (∃ r ∈ s.validRevisions, r.id = id))

/-- A snapshot adds its own identifier to the valid ones. -/
theorem StateDB.validRevision_snapshot (s : StateDB σ) (id : ℕ) :
    s.snapshot.2.ValidRevision id ↔ s.ValidRevision id ∨ id = s.snapshot.1 := by
  simp only [ValidRevision, snapshot, List.mem_append, List.mem_singleton]
  constructor
  · rintro ⟨r, hr | rfl, rfl⟩
    · exact Or.inl ⟨r, hr, rfl⟩
    · exact Or.inr rfl
  · rintro (⟨r, hr, rfl⟩ | rfl)
    · exact ⟨r, Or.inl hr, rfl⟩
    · exact ⟨_, Or.inr rfl, rfl⟩

/-- The revisions before an index are those with a smaller id. -/
theorem RevisionsWf.mem_take {s : StateDB σ} (h : RevisionsWf s) {i : ℕ} {r : Revision}
    (hr : s.validRevisions[i]? = some r) {r' : Revision} :
    r' ∈ s.validRevisions.take i ↔ r' ∈ s.validRevisions ∧ r'.id < r.id := by
  obtain ⟨hlt, hi⟩ := List.getElem?_eq_some_iff.mp hr
  have hids := List.pairwise_iff_getElem.mp h.ids
  rw [List.mem_take_iff_getElem]
  constructor
  · rintro ⟨j, hj, rfl⟩
    refine ⟨List.getElem_mem _, ?_⟩
    rw [← hi]
    exact hids j i (by omega) hlt (by omega)
  · rintro ⟨hmem, hless⟩
    obtain ⟨j, hj, rfl⟩ := List.mem_iff_getElem.mp hmem
    have hji : j < i := by
      by_contra hge
      rcases Nat.lt_or_eq_of_le (Nat.le_of_not_lt hge) with hlt' | rfl
      · have := hids i j hlt hj hlt'
        rw [hi] at this
        omega
      · rw [hi] at hless
        omega
    exact ⟨j, by omega, rfl⟩

/-- **What a revert leaves**: the older revisions. -/
theorem Wf.validRevision_revertToSnapshot {s s' : StateDB σ} (h : Wf s) {revid : ℕ}
    (hrun : s.revertToSnapshot revid = .ok s') (id : ℕ) :
    s'.ValidRevision id ↔ s.ValidRevision id ∧ id < revid := by
  obtain ⟨i, r, hr, rfl, -, hto⟩ := h.revertToSnapshot hrun
  obtain ⟨t, ht, -⟩ := h.history
  obtain ⟨w, hw, -⟩ := ht.split r.journalIndex
  unfold StateDB.ValidRevision
  rw [(hto w hw).validRevisions]
  simp only [h.revisions.mem_take hr]
  constructor
  · rintro ⟨r', ⟨hmem, hlt⟩, rfl⟩
    exact ⟨⟨r', hmem, rfl⟩, hlt⟩
  · rintro ⟨⟨r', hmem, rfl⟩, hlt⟩
    exact ⟨r', ⟨hmem, hlt⟩, rfl⟩

/-- **A revert returns exactly for a valid revision.** -/
theorem Wf.revertToSnapshot_iff {s : StateDB σ} (h : Wf s) (revid : ℕ) :
    (∃ s', s.revertToSnapshot revid = .ok s') ↔ s.ValidRevision revid := by
  constructor
  · rintro ⟨s', hrun⟩
    obtain ⟨i, r, hr, hid⟩ := StateDB.exists_revision_of_revertToSnapshot hrun
    exact ⟨r, List.mem_of_getElem? hr, hid⟩
  · rintro ⟨r, hr, rfl⟩
    obtain ⟨i, hi⟩ := List.mem_iff_getElem?.mp hr
    obtain ⟨t, ht, -⟩ := h.history
    obtain ⟨w, hw, -⟩ := ht.split r.journalIndex
    obtain ⟨s', hrun, -⟩ := StateDB.revertToSnapshot_spec h hi hw
    exact ⟨s', hrun⟩

/-! ## The call -/

/-- The call with any `int`, and with the search it makes.
Source: `statedb.go` `RevertToSnapshot` -/
def StateDB.revertToSnapshotId (s : StateDB σ) (revid : ℤ) : Except Panic (StateDB σ) :=
  -- Find the snapshot in the stack of valid snapshots.
  let idx := Search.search s.validRevisions.length fun i =>
    (s.validRevisions[i]?).any fun r => decide (revid ≤ r.id)
  match s.validRevisions[idx]? with
  | none => .error (.revisionNotReverted revid)
  | some r =>
    if (r.id : ℤ) ≠ revid then .error (.revisionNotReverted revid)
    else do
      let s' ← s.journalRevert r.journalIndex
      .ok { s' with validRevisions := s'.validRevisions.take idx }

/-- On ordered ids the search finds the first revision that is not older. -/
theorem RevisionsWf.search_eq {s : StateDB σ} (h : RevisionsWf s) (revid : ℤ) :
    (Search.search s.validRevisions.length fun i =>
        (s.validRevisions[i]?).any fun r => decide (revid ≤ r.id)) =
      s.validRevisions.findIdx fun r => decide (revid ≤ r.id) := by
  apply Search.search_eq_findIdx
  refine h.ids.imp ?_
  intro r r' hlt hle
  rw [decide_eq_true_eq] at hle ⊢
  omega

/-- **The binary search** does what a search from the front does. -/
theorem RevisionsWf.revertToSnapshotId_eq {s : StateDB σ} (h : RevisionsWf s) (revid : ℕ) :
    s.revertToSnapshotId revid = s.revertToSnapshot revid := by
  unfold StateDB.revertToSnapshotId StateDB.revertToSnapshot
  simp only [h.search_eq]
  simp only [Int.ofNat_le]
  cases s.validRevisions[s.validRevisions.findIdx fun r => decide (revid ≤ r.id)]? with
  | none => rfl
  | some r => simp only [ne_eq, Int.natCast_inj]

/-- No revision has a negative id. -/
theorem RevisionsWf.revertToSnapshotId_neg {s : StateDB σ} (h : RevisionsWf s) {revid : ℤ}
    (hneg : revid < 0) : s.revertToSnapshotId revid = .error (.revisionNotReverted revid) := by
  unfold StateDB.revertToSnapshotId
  simp only [h.search_eq]
  split
  · rfl
  · rename_i r _
    have hne : (r.id : ℤ) ≠ revid := by omega
    rw [if_pos hne]

/-- A call that panics says so, and panics for no other reason. -/
theorem StateDB.revertToSnapshot_error {s : StateDB σ} {revid : ℕ} (hinvalid : ¬s.ValidRevision revid) :
    s.revertToSnapshot revid = .error (.revisionNotReverted revid) := by
  unfold StateDB.revertToSnapshot
  simp only
  split
  · rfl
  · rename_i r hr
    have hne : r.id ≠ revid := by
      rintro rfl
      exact hinvalid ⟨r, List.mem_of_getElem? hr, rfl⟩
    rw [if_pos hne]

/-! ## Runs -/

/-- The events tell which revisions are valid, and the ids were returned in increasing order. -/
structure Tells (events : List RevisionEvent) (s : StateDB σ) : Prop where
  stands : ∀ id, Stands events id ↔ s.ValidRevision id
  increasing : (returnedIds events).Pairwise (· < ·)
  next : ∀ id ∈ returnedIds events, id < s.nextRevisionID

/-- A fresh state has no history. -/
theorem tells_new (ctx : σ) (k : Keeper σ) (txConfig : TxConfig) :
    Tells [] (StateDB.new ctx k txConfig) where
  stands id := by
    refine iff_of_false (not_stands_nil id) ?_
    rintro ⟨r, hr, -⟩
    simp [StateDB.new] at hr
  increasing := List.Pairwise.nil
  next := by simp [returnedIds]

section step

variable {events : List RevisionEvent} {s s' : StateDB σ} (h : Tells events s)

include h

/-- A call that leaves the revisions alone. -/
theorem Tells.of_frame (hframe : SameFrame s s') : Tells events s' where
  stands id := by
    rw [h.stands id, StateDB.ValidRevision, StateDB.ValidRevision, hframe.validRevisions]
  increasing := h.increasing
  next := by
    rw [hframe.nextRevisionID]
    exact h.next

/-- A snapshot is told. -/
theorem Tells.snapshot : Tells (events ++ [.returned s.snapshot.1]) s.snapshot.2 where
  stands id := by
    rw [stands_concat, s.validRevision_snapshot, h.stands]
    constructor
    · rintro (heq | ⟨hvalid, -⟩)
      · exact Or.inr (RevisionEvent.returned.inj heq).symm
      · exact Or.inl hvalid
    · rintro (hvalid | rfl)
      · exact Or.inr ⟨hvalid, by simp⟩
      · exact Or.inl rfl
  increasing := by
    simp only [returnedIds, List.filterMap_append, List.pairwise_append]
    refine ⟨h.increasing, by simp, ?_⟩
    intro id hid id' hid'
    obtain rfl : id' = s.nextRevisionID := by simpa [StateDB.snapshot] using hid'
    exact h.next id hid
  next := by
    intro id hid
    show id < s.nextRevisionID + 1
    simp only [returnedIds, List.filterMap_append, List.mem_append] at hid
    rcases hid with hid | hid
    · exact Nat.lt_succ_of_lt (h.next id hid)
    · obtain rfl : id = s.nextRevisionID := by simpa [StateDB.snapshot] using hid
      exact Nat.lt_succ_self _

/-- A revert is told. -/
theorem Tells.revertToSnapshot (hwf : Wf s) {revid : ℕ} (hrun : s.revertToSnapshot revid = .ok s') :
    Tells (events ++ [.reverted revid]) s' := by
  have hids : returnedIds (events ++ [.reverted revid]) = returnedIds events := by
    simp [returnedIds]
  obtain ⟨i, r, -, -, -, hto⟩ := hwf.revertToSnapshot hrun
  obtain ⟨t, ht, -⟩ := hwf.history
  obtain ⟨w, hw, -⟩ := ht.split r.journalIndex
  refine ⟨?_, ?_, ?_⟩
  · intro id
    rw [stands_concat, hwf.validRevision_revertToSnapshot hrun, h.stands]
    simp
  · rw [hids]
    exact h.increasing
  · rw [hids, (hto w hw).nextRevisionID]
    exact h.next

/-- **One call.** -/
theorem Tells.op (hwf : Wf s) {op : Op} (hrun : op.run s = .ok s') :
    Tells (events ++ op.revisionEvents s) s' := by
  by_cases hop : op.isVersion = false
  · have hnone : op.revisionEvents s = [] := by
      cases op with
      | snapshot | revertToSnapshot _ => simp [Op.isVersion] at hop
      | _ => rfl
    obtain ⟨new, hstep, -⟩ := Op.step hop hwf.ready hrun
    rw [hnone, List.append_nil]
    exact h.of_frame hstep.frame
  · cases op with
    | snapshot =>
        obtain rfl := Except.ok.inj hrun
        exact h.snapshot
    | revertToSnapshot revid => exact h.revertToSnapshot hwf hrun
    | _ => exact absurd rfl hop

/-- **A run.** -/
theorem runOps_tells (hwf : Wf s) {ops : List Op} (hrun : runOps s ops = .ok s') :
    Tells (events ++ revisionEvents s ops) s' := by
  induction ops generalizing s events with
  | nil =>
      obtain rfl := Except.ok.inj hrun
      rw [revisionEvents, List.append_nil]
      exact h
  | cons op ops ih =>
      obtain ⟨s₁, h₁, h₂⟩ := runOps_cons.mp hrun
      have hrest := ih (h.op hwf h₁) (Op.wf hwf h₁) h₂
      rw [List.append_assoc] at hrest
      simp only [revisionEvents, h₁]
      exact hrest

end step

/-- Along a run from `New`, the revisions of the list are those that stand. -/
theorem stands_iff_valid {ctx : σ} {k : Keeper σ} {txConfig : TxConfig} {ops : List Op} {s : StateDB σ}
    (hrun : runOps (StateDB.new ctx k txConfig) ops = .ok s) :
    Tells (revisionEvents (StateDB.new ctx k txConfig) ops) s :=
  runOps_tells (tells_new ctx k txConfig) (wf_new ctx k txConfig) hrun

/-! ## The stack of live snapshots -/

/-- Going back to a snapshot of a run gives every observation of the moment it was taken. -/
def Denotes (start s : StateDB σ) (ops : List Op) (id : ℕ) : Prop :=
  ∀ (older newer : List Op) (s₀ : StateDB σ), ops = older ++ .snapshot :: newer →
    runOps start older = .ok s₀ → s₀.snapshot.1 = id →
    ∃ t, s.revertToSnapshotId id = .ok t ∧ t.observe = s₀.observe

/-- A valid revision denotes the state it was taken in. -/
theorem denotes_of_valid {ctx : σ} {k : Keeper σ} {txConfig : TxConfig} {ops : List Op} {s : StateDB σ}
    (hrun : runOps (StateDB.new ctx k txConfig) ops = .ok s) {id : ℕ} (hvalid : s.ValidRevision id) :
    Denotes (StateDB.new ctx k txConfig) s ops id := by
  rintro older newer s₀ rfl hs₀ rfl
  obtain ⟨s₁, h₁, h₂⟩ := runOps_append.mp hrun
  obtain rfl := Except.ok.inj (hs₀.symm.trans h₁)
  obtain ⟨s₂, hsnap, hnewer⟩ := runOps_cons.mp h₂
  obtain rfl := Except.ok.inj hsnap
  have hwf₀ : Wf s₀ := runOps_wf (wf_new ctx k txConfig) hs₀
  have hwf : Wf s := runOps_wf hwf₀.snapshot hnewer
  obtain ⟨t, hback, hret⟩ := hwf₀.exists_returned hnewer hvalid
  refine ⟨t, (hwf.revisions.revertToSnapshotId_eq _).trans hback, ?_⟩
  apply StateDB.observe_congr hwf₀.ready.coherent hret.ready.coherent hret.keeper hret.ctx hret.view
  · exact congrArg List.length hret.entries
  · exact hret.dirties

/-- A call that returned was given a natural number. -/
theorem RevisionsWf.exists_nat {s s' : StateDB σ} (h : RevisionsWf s) {revid : ℤ}
    (hrun : s.revertToSnapshotId revid = .ok s') :
    ∃ id : ℕ, revid = id ∧ s.revertToSnapshot id = .ok s' := by
  rcases lt_or_ge revid 0 with hneg | hnonneg
  · rw [h.revertToSnapshotId_neg hneg] at hrun
    exact absurd hrun (by simp)
  · obtain ⟨id, rfl⟩ := Int.eq_ofNat_of_zero_le hnonneg
    exact ⟨id, rfl, (h.revertToSnapshotId_eq id).symm.trans hrun⟩

/-- **Revision ids are a stack of live snapshots.** In every reachable state the revisions are ordered;
`RevertToSnapshot` panics exactly for an id that does not stand, and says so; a revert that returns
leaves exactly the older ids valid, each with the state it was taken in; and no id is returned twice. -/
theorem revisions_stack {ctx : σ} {k : Keeper σ} {txConfig : TxConfig} {ops : List Op} {s : StateDB σ}
    (hrun : runOps (StateDB.new ctx k txConfig) ops = .ok s) :
    let start := StateDB.new ctx k txConfig
    let events := revisionEvents start ops
    RevisionsWf s ∧
    (∀ revid : ℤ, (∃ p, s.revertToSnapshotId revid = .error p) ↔ ¬∃ id : ℕ, revid = id ∧ Stands events id) ∧
    (∀ revid p, s.revertToSnapshotId revid = .error p → p = .revisionNotReverted revid) ∧
    (∀ (revid : ℕ) (s' : StateDB σ), s.revertToSnapshotId revid = .ok s' →
      ∀ id, (s'.ValidRevision id ↔ Stands events id ∧ id < revid) ∧
        (s'.ValidRevision id → Denotes start s' (ops ++ [.revertToSnapshot revid]) id)) ∧
    (returnedIds events).Nodup := by
  intro start events
  have hwf : Wf s := runOps_wf (wf_new ctx k txConfig) hrun
  have htells : Tells events s := stands_iff_valid hrun
  have hvalid : ∀ id : ℕ, (∃ s', s.revertToSnapshotId id = .ok s') ↔ Stands events id := by
    intro id
    rw [htells.stands, ← hwf.revertToSnapshot_iff]
    simp only [hwf.revisions.revertToSnapshotId_eq]
  refine ⟨hwf.revisions, ?_, ?_, ?_, ?_⟩
  · intro revid
    constructor
    · rintro ⟨p, hp⟩ ⟨id, rfl, hstands⟩
      obtain ⟨s', hs'⟩ := (hvalid id).mpr hstands
      rw [hp] at hs'
      exact absurd hs' (by simp)
    · intro hnot
      cases hcall : s.revertToSnapshotId revid with
      | error p => exact ⟨p, rfl⟩
      | ok s' =>
          obtain ⟨id, rfl, -⟩ := hwf.revisions.exists_nat hcall
          exact absurd ⟨id, rfl, (hvalid id).mp ⟨s', hcall⟩⟩ hnot
  · intro revid p hp
    rcases lt_or_ge revid 0 with hneg | hnonneg
    · rw [hwf.revisions.revertToSnapshotId_neg hneg] at hp
      exact (Except.error.inj hp).symm
    · obtain ⟨id, rfl⟩ := Int.eq_ofNat_of_zero_le hnonneg
      have hinvalid : ¬s.ValidRevision id := by
        rw [← hwf.revertToSnapshot_iff]
        rintro ⟨s', hs'⟩
        rw [← hwf.revisions.revertToSnapshotId_eq, hp] at hs'
        exact absurd hs' (by simp)
      rw [hwf.revisions.revertToSnapshotId_eq, StateDB.revertToSnapshot_error hinvalid] at hp
      exact (Except.error.inj hp).symm
  · intro revid s' hcall id
    rw [hwf.revisions.revertToSnapshotId_eq] at hcall
    refine ⟨?_, ?_⟩
    · rw [hwf.validRevision_revertToSnapshot hcall, htells.stands]
    · apply denotes_of_valid
      exact runOps_append.mpr ⟨s, hrun, runOps_cons.mpr ⟨s', hcall, rfl⟩⟩
  · exact htells.increasing.imp fun hlt => Nat.ne_of_lt hlt

end runs

/-- Three snapshots, a revert to the second of them, and a fourth: the second and the third are gone, and
a revert to the fourth leaves the first. -/
theorem revisions_stack_nested :
    letI := sampleKeccak
    let a : Address := .ofNat 20 1
    let start := StateDB.new MapStore.new mapKeeper (.newEmpty (.zero 32))
    let ops : List Op := [.snapshot, .addBalance a 5, .snapshot, .setNonce a 1, .snapshot,
      .revertToSnapshot 1, .snapshot]
    ∃ s s' : StateDB MapStore, runOps start ops = .ok s ∧ returnedIds (revisionEvents start ops) = [0, 1, 2, 3] ∧
      (∃ p, s.revertToSnapshotId 1 = .error p) ∧ (∃ p, s.revertToSnapshotId 2 = .error p) ∧
      (∃ p, s.revertToSnapshotId (-1) = .error p) ∧ s.revertToSnapshotId 3 = .ok s' ∧
      s'.ValidRevision 0 ∧ ¬s'.ValidRevision 3 := by
  let _ := sampleKeccak
  intro a start ops
  obtain ⟨s, hrun, hzero, hone, htwo, hthree⟩ : ∃ s, runOps start ops = .ok s ∧ s.ValidRevision 0 ∧
      ¬s.ValidRevision 1 ∧ ¬s.ValidRevision 2 ∧ s.ValidRevision 3 := ⟨_, rfl, by decide +kernel⟩
  obtain ⟨-, hpanics, -, hleaves, -⟩ := revisions_stack hrun
  have htells := stands_iff_valid hrun
  have hgone : ∀ id : ℕ, ¬s.ValidRevision id → ∃ p, s.revertToSnapshotId id = .error p := by
    intro id hinvalid
    refine (hpanics id).mpr ?_
    rintro ⟨id', heq, hstands⟩
    obtain rfl : id = id' := Int.natCast_inj.mp heq
    exact hinvalid ((htells.stands id).mp hstands)
  obtain ⟨s', hs'⟩ : ∃ s', s.revertToSnapshotId (3 : ℕ) = .ok s' := by
    cases hcall : s.revertToSnapshotId (3 : ℕ) with
    | ok s' => exact ⟨s', rfl⟩
    | error p => exact absurd ⟨3, rfl, (htells.stands 3).mpr hthree⟩ ((hpanics (3 : ℕ)).mp ⟨p, hcall⟩)
  refine ⟨s, s', hrun, rfl, hgone 1 hone, hgone 2 htwo, (hpanics (-1)).mpr ?_, hs', ?_, ?_⟩
  · rintro ⟨id, hid, -⟩
    omega
  · exact (hleaves 3 s' hs' 0).1.mpr ⟨(htells.stands 0).mpr hzero, by decide⟩
  · intro hvalid
    exact absurd ((hleaves 3 s' hs' 3).1.mp hvalid).2 (by decide)

end Smartdoge.Statedb
