import Mathlib.Tactic.Common
import Mathlib.Order.Basic

/-!
# Undo logs

An undo log is a list of entries, oldest first. `undo e s t` relates a state `s` to a state `t`
that undoing the entry `e` leads to; it is a relation, so that an undo can have a precondition and
can be looser than a function. `Rollback undo log s t` undoes a whole log, newest entry first.

* **Composition** (`rollback_append`, `rollback_concat`, `Rollback.split`): a rollback can be cut
  at any point of the log.
* **History** (`Rollback.extend`): if the entries an operation appended lead back to the state
  before it, then every older point of the log still leads back to where it led before the
  operation. Exactness of a rollback follows from this by induction over a run.
* **Monotonicity** (`Rollback.mono`): for logs whose undos only get easier in a larger state.
* **Invariants** (`Rollback.invariant`) and the states at which an entry is undone
  (`Rollback.exists_undo`).
-/

namespace Smartdoge.Lib.UndoLog

variable {σ ε : Type}

/-- Undo every entry of a log, newest (last) first. -/
def Rollback (undo : ε → σ → σ → Prop) : List ε → σ → σ → Prop
  | [], s, t => s = t
  | e :: log, s, t => ∃ u, Rollback undo log s u ∧ undo e u t

variable {undo : ε → σ → σ → Prop}

/-- An empty log undoes nothing. -/
@[simp] theorem rollback_nil {s t : σ} : Rollback undo [] s t ↔ s = t := Iff.rfl

/-- The newer part of a log is undone before the older part. -/
theorem rollback_append {old new : List ε} {s t : σ} :
    Rollback undo (old ++ new) s t ↔ ∃ u, Rollback undo new s u ∧ Rollback undo old u t := by
  induction old generalizing t with
  | nil => simp
  | cons e old ih =>
      simp only [List.cons_append, Rollback, ih]
      constructor
      · rintro ⟨w, ⟨u, hu, hw⟩, he⟩
        exact ⟨u, hu, w, hw, he⟩
      · rintro ⟨u, hu, w, hw, he⟩
        exact ⟨w, ⟨u, hu, hw⟩, he⟩

/-- A log of one entry undoes that entry. -/
theorem rollback_singleton {e : ε} {s t : σ} : Rollback undo [e] s t ↔ undo e s t := by
  simp [Rollback]

/-- The last entry of a log is the first one undone. -/
theorem rollback_concat {log : List ε} {e : ε} {s t : σ} :
    Rollback undo (log ++ [e]) s t ↔ ∃ u, undo e s u ∧ Rollback undo log u t := by
  simp only [rollback_append, rollback_singleton]

/-- A rollback passes through every point of the log. -/
theorem Rollback.split {log : List ε} {s t : σ} (h : Rollback undo log s t) (n : ℕ) :
    ∃ u, Rollback undo (log.drop n) s u ∧ Rollback undo (log.take n) u t := by
  rw [← List.take_append_drop n log] at h
  exact rollback_append.mp h

/-- **The step rule.** When the entries `new` lead from `s'` back to `s`, the older log leads back
from `s'` to wherever it led back from `s`. -/
theorem Rollback.extend {old new : List ε} {s s' t : σ} (hnew : Rollback undo new s' s)
    (hold : Rollback undo old s t) : Rollback undo (old ++ new) s' t :=
  rollback_append.mpr ⟨s, hnew, hold⟩

/-- The step rule at a point of the older log. -/
theorem Rollback.drop_extend {old new : List ε} {s s' t : σ} {n : ℕ} (hn : n ≤ old.length)
    (hnew : Rollback undo new s' s) (hold : Rollback undo (old.drop n) s t) :
    Rollback undo ((old ++ new).drop n) s' t := by
  rw [List.drop_append_of_le_length hn]
  exact hnew.extend hold

/-- If every undo stays possible in a larger state, with a larger result, so does a rollback. -/
theorem Rollback.mono {le : σ → σ → Prop}
    (hundo : ∀ e s t s', undo e s t → le s s' → ∃ t', undo e s' t' ∧ le t t')
    {log : List ε} {s t s' : σ} (h : Rollback undo log s t) (hle : le s s') :
    ∃ t', Rollback undo log s' t' ∧ le t t' := by
  induction log generalizing t with
  | nil =>
      obtain rfl := rollback_nil.mp h
      exact ⟨s', rfl, hle⟩
  | cons e log ih =>
      obtain ⟨u, hu, he⟩ := h
      obtain ⟨u', hu', hle'⟩ := ih hu
      obtain ⟨t', ht', hlet⟩ := hundo e u t u' he hle'
      exact ⟨t', ⟨u', hu', ht'⟩, hlet⟩

/-- What every undo of a log preserves, its rollback preserves. -/
theorem Rollback.invariant {P : σ → Prop} {log : List ε} {s t : σ}
    (hundo : ∀ e ∈ log, ∀ s t, undo e s t → P s → P t) (h : Rollback undo log s t) (hs : P s) :
    P t := by
  induction log generalizing t with
  | nil =>
      obtain rfl := rollback_nil.mp h
      exact hs
  | cons e log ih =>
      obtain ⟨u, hu, he⟩ := h
      have hPu : P u := ih (fun e' he' => hundo e' (List.mem_cons_of_mem e he')) hu
      exact hundo e List.mem_cons_self u t he hPu

/-- Every entry of a log is undone somewhere along its rollback, after the entries newer than it. -/
theorem Rollback.exists_undo {log : List ε} {s t : σ} (h : Rollback undo log s t) {e : ε}
    (he : e ∈ log) : ∃ newer u w, newer <:+ log ∧ Rollback undo newer s u ∧ undo e u w := by
  obtain ⟨older, newer, rfl⟩ := List.append_of_mem he
  obtain ⟨w, ⟨u, hu, hw⟩, -⟩ := rollback_append.mp h
  refine ⟨newer, u, w, ?_, hu, hw⟩
  exact ⟨older ++ [e], by simp⟩

end Smartdoge.Lib.UndoLog
