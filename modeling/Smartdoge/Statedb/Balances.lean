import Mathlib.Algebra.BigOperators.Pi
import Mathlib.Data.FinEnum
import Mathlib.Data.Fintype.Vector
import Smartdoge.Statedb.Heads

/-!
# Balances along a run

What each operation but a suicide does to the balances of a view: `AddBalance` and `SubBalance` move
their amount at their address, and no other operation changes a balance (`Op.credits`).

* **Balanced runs** (`runOps_level`): a run whose credits and debits have paired up at every
  snapshot and at its end leaves the sum of all balances as it was.
* **Runs without debits** (`runOps_atLeast`): an account that no operation debits keeps at least what
  it had.
* **Clean addresses** (`Wf.balance_of_not_dirty`): an address that is not dirty still has the
  balance the keeper holds for it, even where it was re-created.
-/

set_option linter.unusedSectionVars false

namespace Smartdoge.Statedb

open Smartdoge.Lib
open Smartdoge.Lib.UndoLog

variable [Keccak] {σ : Type}

/-! ## What an operation does to balances -/

/-- `GetBalance`, on views. -/
def View.balance (v : View) (a : Address) : ℤ := ((v.objects a).map fun o => o.account.balance).getD 0

/-- No account of the view is marked for deletion. -/
def View.NoSuicide (v : View) : Prop := ∀ a o, v.objects a = some o → o.suicided = false

/-- The balance is that of the head. -/
theorem View.balance_eq_head (v : View) (a : Address) :
    v.balance a = ((v.head a).getD .empty).balance := by
  unfold View.balance View.head
  cases v.objects a with
  | none => rfl
  | some o => rfl

/-- Suicides can be read off the heads. -/
theorem View.noSuicide_iff_head (v : View) :
    v.NoSuicide ↔ ∀ a, ((v.head a).getD .empty).suicided = false := by
  unfold View.NoSuicide View.head
  refine forall_congr' ?_
  intro a
  cases v.objects a with
  | none => simp [Head.empty]
  | some o => simp [ObjectView.head]

/-- Balances moved by `delta`, and no account was marked for deletion. -/
structure Credits (v v' : View) (delta : Address → ℤ) : Prop where
  balance : ∀ a, v'.balance a = v.balance a + delta a
  noSuicide : v.NoSuicide → v'.NoSuicide

/-- What an operation adds to each balance. -/
def Op.credit : Op → Address → ℤ
  | .addBalance a amount => amountAt a amount
  | .subBalance a amount => amountAt a (-amount)
  | _ => 0

/-- An operation other than a suicide, on one head. -/
theorem Op.head_credit {op : Op} (hsu : ∀ a, op ≠ .suicide a) (b : Address) (h : Option Head) :
    ((op.head b h).getD .empty).balance = (h.getD .empty).balance + op.credit b ∧
      ((h.getD .empty).suicided = false → ((op.head b h).getD .empty).suicided = false) := by
  cases op with
  | suicide a => exact absurd rfl (hsu a)
  | createAccount a | addBalance a amount | subBalance a amount | setNonce a nonce | setCode a code
  | setState a key value =>
      simp only [Op.head, headAt, Op.credit, amountAt_apply]
      split_ifs <;> simp [Head.credit, Head.setNonce]
  | _ => exact ⟨(add_zero _).symm, id⟩

/-- **What an operation does to balances**, other than a suicide or a move between versions. -/
theorem Op.credits {op : Op} (hop : op.isVersion = false) (hsu : ∀ a, op ≠ .suicide a)
    {s s' : StateDB σ} (hs : Ready s) (h : op.run s = .ok s') :
    Credits s.view s'.view op.credit := by
  refine ⟨?_, ?_⟩
  · intro a
    rw [View.balance_eq_head, View.balance_eq_head, Op.heads hop hs h]
    exact (Op.head_credit hsu a _).1
  · intro hv
    rw [View.noSuicide_iff_head] at hv ⊢
    intro a
    rw [Op.heads hop hs h]
    exact (Op.head_credit hsu a _).2 (hv a)

/-! ## Runs with paired credits and debits -/

instance : Finite Address := by
  have hfinite : Finite (List.Vector UInt8 20) := inferInstance
  refine Finite.of_injective (β := List.Vector UInt8 20) (fun a => ⟨a.bytes, a.length_eq⟩) ?_
  intro a b h
  exact FixedBytes.ext (congrArg Subtype.val h)

/-- All addresses. -/
noncomputable def allAddresses : Finset Address := (Set.toFinite (Set.univ : Set Address)).toFinset

/-- Every address is one of them. -/
theorem mem_allAddresses (a : Address) : a ∈ allAddresses := by simp [allAddresses]

/-- The sum of all balances. -/
noncomputable def View.total (v : View) : ℤ := ∑ a ∈ allAddresses, v.balance a

/-- The total moves by the sum of the credits. -/
theorem Credits.total {v v' : View} {delta : Address → ℤ} (h : Credits v v' delta) :
    v'.total = v.total + ∑ a ∈ allAddresses, delta a := by
  unfold View.total
  rw [← Finset.sum_add_distrib]
  exact Finset.sum_congr rfl fun a _ => h.balance a

/-- An amount at one address is the sum over all. -/
theorem sum_amountAt (a : Address) (amount : ℤ) :
    ∑ b ∈ allAddresses, amountAt a amount b = amount := by
  simp only [amountAt_apply]
  rw [Finset.sum_ite_eq' allAddresses a fun _ => amount, if_pos (mem_allAddresses a)]

/-- The credits and debits of a run pair up: with `d` their balance since the last snapshot or
revert, it is zero at every snapshot and at the end. No account is suicided. -/
def paired (d : ℤ) : List Op → Bool
  | [] => d = 0
  | .addBalance _ amount :: ops => paired (d + amount) ops
  | .subBalance _ amount :: ops => paired (d - amount) ops
  | .suicide _ :: _ => false
  | .snapshot :: ops => d = 0 ∧ paired d ops
  | .revertToSnapshot _ :: ops => paired 0 ops
  | _ :: ops => paired d ops

/-- A view with the sum of balances `T` and no account marked for deletion. -/
structure Level (T : ℤ) (v : View) : Prop where
  total : v.total = T
  noSuicide : v.NoSuicide

/-- **A run with paired credits and debits** keeps the sum of all balances. -/
theorem runOps_level {T d : ℤ} {ops : List Op} {s s' : StateDB σ} (hwf : Wf s)
    (hpaired : paired d ops = true) (hs : Level (T + d) s.view) (hrev : RevisionsAt (Level T) s)
    (hrun : runOps s ops = .ok s') : Level T s'.view := by
  induction ops generalizing s d with
  | nil =>
      obtain rfl := Except.ok.inj hrun
      have hd : d = 0 := by simpa [paired] using hpaired
      rwa [hd, add_zero] at hs
  | cons op ops ih =>
      obtain ⟨s₁, h₁, h₂⟩ := runOps_cons.mp hrun
      have hwf₁ := Op.wf hwf h₁
      -- Every operation but a suicide and a move between versions.
      have hstep : ∀ d', op.isVersion = false → (∀ a, op ≠ .suicide a) →
          ∑ a ∈ allAddresses, op.credit a = d' - d → paired d' ops = true → Level T s'.view := by
        intro d' hop hsu hsum hpaired'
        obtain ⟨new, hnew, -⟩ := Op.step hop hwf.ready h₁
        have hcredits := Op.credits hop hsu hwf.ready h₁
        refine ih hwf₁ hpaired' ⟨?_, hcredits.noSuicide hs.noSuicide⟩ (hrev.step hwf hnew) h₂
        rw [hcredits.total, hs.total, hsum]
        omega
      cases op with
      | addBalance a amount =>
          refine hstep (d + amount) rfl (by simp) ?_ hpaired
          rw [Op.credit, sum_amountAt, add_sub_cancel_left]
      | subBalance a amount =>
          refine hstep (d - amount) rfl (by simp) ?_ hpaired
          rw [Op.credit, sum_amountAt]
          omega
      | suicide a => simp [paired] at hpaired
      | snapshot =>
          obtain rfl := Except.ok.inj h₁
          obtain ⟨hd, hpaired'⟩ : d = 0 ∧ paired d ops = true := by simpa [paired] using hpaired
          refine ih hwf₁ hpaired' hs (hrev.snapshot ?_) h₂
          rwa [hd, add_zero] at hs
      | revertToSnapshot revid =>
          obtain ⟨hlevel, hrev'⟩ := hrev.revertToSnapshot hwf h₁
          rw [← add_zero T] at hlevel
          exact ih hwf₁ hpaired hlevel hrev' h₂
      | _ => exact hstep d rfl (by simp) (by simp [Op.credit]) hpaired

/-! ## Runs that do not debit an account -/

/-- Whether an operation takes coins from an account, or deletes it. -/
def Op.debits (c : Address) : Op → Bool
  | .addBalance a amount => a = c ∧ amount < 0
  | .subBalance a amount => a = c ∧ 0 < amount
  | .suicide a => a = c
  | _ => false

/-- An account with a balance of `n` or more that is not marked for deletion. -/
structure AtLeast (c : Address) (n : ℤ) (head : Address → Option Head) : Prop where
  balance : n ≤ ((head c).getD .empty).balance
  live : ((head c).getD .empty).suicided = false

/-- An operation that does not debit an account keeps its balance above a bound. -/
theorem Op.atLeast {op : Op} {c : Address} {n : ℤ} (hop : op.debits c = false)
    {head : Address → Option Head} (h : AtLeast c n head) :
    AtLeast c n fun b => op.head b (head b) := by
  by_cases hsu : ∃ a, op = .suicide a
  · obtain ⟨a, rfl⟩ := hsu
    have hne : c ≠ a := by
      rintro rfl
      simp [debits] at hop
    have hsame : (Op.suicide a).head c (head c) = head c := headAt_of_ne hne _ _
    exact ⟨by rw [hsame]; exact h.balance, by rw [hsame]; exact h.live⟩
  · obtain ⟨hbalance, hlive⟩ := head_credit (not_exists.mp hsu) c (head c)
    refine ⟨?_, hlive h.live⟩
    have hcredit : 0 ≤ op.credit c := by
      cases op with
      | addBalance a amount =>
          simp only [credit, amountAt_apply]
          split_ifs with hc
          · simpa [debits, hc] using hop
          · exact le_refl 0
      | subBalance a amount =>
          simp only [credit, amountAt_apply]
          split_ifs with hc
          · simpa [debits, hc] using hop
          · exact le_refl 0
      | _ => exact le_refl 0
    have hbefore := h.balance
    rw [hbalance]
    omega

/-- **A run that never debits an account** leaves it what it had, whatever is reverted. -/
theorem runOps_atLeast {ops : List Op} {c : Address} {n : ℤ}
    (hops : ∀ op ∈ ops, op.debits c = false) {s s' : StateDB σ} (hwf : Wf s)
    (hs : AtLeast c n s.view.head) (hrev : RevisionsAt (fun v => AtLeast c n v.head) s)
    (hrun : runOps s ops = .ok s') : AtLeast c n s'.view.head :=
  (runOps_keeps (Q := AtLeast c n) (fun op hop _ h => Op.atLeast (hops op hop) h) hwf hs hrev hrun).1

/-! ## Clean addresses -/

/-- What an undo can do at an address that its entry does not mark dirty: nothing, or undo a
re-creation, which keeps the balance. -/
theorem Undo.balance_of_not_dirtied {k : Keeper σ} {ctx : σ} {e : JournalEntry} {s t : Abs}
    (h : Undo k ctx e s t) {a : Address} (ha : e.dirtied ≠ some a) :
    t.view.balance a = s.view.balance a := by
  by_cases htarget : e.target = some a
  · cases e with
    | resetObjectChange prev =>
        obtain rfl := Option.some.inj htarget
        have hnow := h.reset prev rfl
        have hundo := h.view
        simp only [JournalEntry.undo, View.modify, hnow, Option.map_some, Option.some.injEq] at hundo
        rw [← hundo, View.balance, View.balance, View.setObject_objects_self, hnow]
        rfl
    | _ => exact absurd htarget ha
  · rw [View.balance, View.balance, JournalEntry.undo_objects_of_ne h.view htarget]

/-- An account that is marked for deletion is dirty. -/
theorem Wf.dirty_of_suicided {s : StateDB σ} (h : Wf s) {a : Address} {o : ObjectView}
    (ho : s.view.objects a = some o) (hsu : o.suicided = true) : a ∈ s.journal.sortedDirties := by
  by_contra hclean
  obtain ⟨t, ht, hview⟩ := h.history
  have hmarked : ∃ o, t.view.objects a = some o ∧ o.suicided = true := by
    refine Rollback.invariant (P := fun t => ∃ o, t.view.objects a = some o ∧ o.suicided = true)
      ?_ ht ⟨o, ho, hsu⟩
    rintro e he u w hundo ⟨o, ho, hsu⟩
    by_cases htarget : e.target = some a
    · cases e with
      | resetObjectChange prev =>
          -- A re-created account is not marked.
          obtain rfl := Option.some.inj htarget
          rw [hundo.reset prev rfl, Option.some.injEq] at ho
          rw [← ho] at hsu
          exact absurd hsu (by simp [StateObject.view, StateObject.recreated, newObject,
            StateObject.setBalance])
      | _ =>
          refine absurd ?_ hclean
          rw [mem_sortedDirties, h.counts.isSome_iff]
          exact ⟨_, he, htarget⟩
    · exact ⟨o, by rw [JournalEntry.undo_objects_of_ne hundo.view htarget]; exact ho, hsu⟩
  obtain ⟨o', ho', hsu'⟩ := hmarked
  rw [hview] at ho'
  obtain ⟨account, -, rfl⟩ := Option.map_eq_some_iff.mp ho'
  exact absurd hsu' (by simp [StateObject.view, newObject])

/-- **A clean address has the balance the keeper holds for it.** -/
theorem Wf.balance_of_not_dirty {s : StateDB σ} (h : Wf s) {a : Address}
    (ha : a ∉ s.journal.sortedDirties) :
    s.view.balance a = ((s.keeper.getAccount s.ctx a).map Account.balance).getD 0 := by
  obtain ⟨t, ht, hview⟩ := h.history
  have hsame : t.view.balance a = s.view.balance a := by
    refine Rollback.invariant (P := fun t => t.view.balance a = s.view.balance a) ?_ ht rfl
    intro e he u w hundo hu
    refine (hundo.balance_of_not_dirtied ?_).trans hu
    intro hdirtied
    apply ha
    rw [mem_sortedDirties, h.counts.isSome_iff]
    exact ⟨e, he, hdirtied⟩
  rw [← hsame, hview]
  show ((baseView s.keeper s.ctx a).map _).getD 0 = _
  rw [baseView, Option.map_map]
  rfl

/-- **A clean address has the storage the keeper holds for it.** If it was re-created, the new object
has no slot of its own. -/
theorem Wf.storage_of_not_dirty {s : StateDB σ} (h : Wf s) {a : Address} {o : ObjectView}
    (ho : s.view.objects a = some o) (ha : a ∉ s.journal.sortedDirties) (key : Hash) :
    o.storage key = s.keeper.getState s.ctx a key := by
  obtain ⟨t, ht, hview⟩ := h.history
  -- Back to the newest re-creation of the account, or to the start, the account stays as it is.
  have hback : t.view.objects a = some o ∨ o.storage key = s.keeper.getState s.ctx a key := by
    refine Rollback.invariant (P := fun t => t.view.objects a = some o ∨
      o.storage key = s.keeper.getState s.ctx a key) ?_ ht (Or.inl ho)
    rintro e he u w hundo (hu | hkept)
    · by_cases htarget : e.target = some a
      · cases e with
        | resetObjectChange prev =>
            obtain rfl := Option.some.inj htarget
            rw [hundo.reset prev rfl, Option.some.injEq] at hu
            rw [← hu]
            exact Or.inr (StateObject.getState_fst _ key)
        | _ =>
            refine absurd ?_ ha
            rw [mem_sortedDirties, h.counts.isSome_iff]
            exact ⟨_, he, htarget⟩
      · rw [JournalEntry.undo_objects_of_ne hundo.view htarget]
        exact Or.inl hu
    · exact Or.inr hkept
  rcases hback with hstart | hkept
  · rw [hview] at hstart
    obtain ⟨account, -, rfl⟩ := Option.map_eq_some_iff.mp hstart
    exact StateObject.getState_fst _ key
  · exact hkept

end Smartdoge.Statedb
