import Mathlib.Tactic.Common

/-!
# Loops that need not end

A `for` loop with a condition: every round either goes on in another state or ends the loop with a result.
Nothing makes such a loop end, so it is run with a bound on the number of rounds (`run`), and it ends if some
bound is enough. `visits` are the states in which a round was begun.

* `run_of_visit_done`: the loop ends in the state that is visited last.
* `visits_invariant`, `run_invariant`: what holds at first and is kept by the rounds that go on.
* `exists_run`: a loop ends if a measure decreases in every round that goes on.
* `run_eq_none`: it does not end if every round from some states goes on to such a state.

`forRange` is the loop over a list that also sees the index, and may fail. Its state before an iteration is the
loop over the elements before (`forRange_take_succ`).
-/

namespace Smartdoge.Lib.Loop

/-- What a round of a loop does. -/
inductive Round (σ ρ : Type*) where
  | again (s : σ)
  | done (r : ρ)

variable {σ ρ : Type*} (round : σ → Round σ ρ)

/-- The result of a loop that ends within some rounds. -/
def run : ℕ → σ → Option ρ
  | 0, _ => none
  | n + 1, s =>
    match round s with
    | .again s' => run n s'
    | .done r => some r

/-- The states in which the first rounds begin. -/
def visits : ℕ → σ → List σ
  | 0, _ => []
  | n + 1, s =>
    match round s with
    | .again s' => s :: visits n s'
    | .done _ => [s]

variable {round}

/-- A round that goes on. -/
theorem run_again {n : ℕ} {s s' : σ} (h : round s = .again s') : run round (n + 1) s = run round n s' := by
  rw [run, h]

/-- A round that ends the loop. -/
theorem run_done {n : ℕ} {s : σ} {r : ρ} (h : round s = .done r) : run round (n + 1) s = some r := by
  rw [run, h]

/-- The states that are visited when a round goes on. -/
theorem visits_again {n : ℕ} {s s' : σ} (h : round s = .again s') :
    visits round (n + 1) s = s :: visits round n s' := by
  rw [visits, h]

/-- The last state that is visited. -/
theorem visits_done {n : ℕ} {s : σ} {r : ρ} (h : round s = .done r) : visits round (n + 1) s = [s] := by
  rw [visits, h]

/-- A state that is visited and in which the loop ends is the last one. -/
theorem run_of_visit_done {n : ℕ} {s t : σ} {r : ρ} (hvisit : t ∈ visits round n s) (hdone : round t = .done r) :
    run round n s = some r := by
  induction n generalizing s with
  | zero => simp [visits] at hvisit
  | succ n ih =>
      cases hround : round s with
      | again s' =>
          rw [visits_again hround, List.mem_cons] at hvisit
          rw [run_again hround]
          rcases hvisit with rfl | hvisit
          · rw [hround] at hdone
            cases hdone
          · exact ih hvisit
      | done r' =>
          rw [visits_done hround, List.mem_singleton] at hvisit
          subst hvisit
          rw [run_done hdone]

/-- **What the rounds keep holds in every state that is visited.** -/
theorem visits_invariant {I : σ → Prop} (hkeeps : ∀ {s s'}, I s → round s = .again s' → I s') {n : ℕ} {s : σ}
    (hinit : I s) : ∀ t ∈ visits round n s, I t := by
  induction n generalizing s with
  | zero => simp [visits]
  | succ n ih =>
      cases hround : round s with
      | again s' =>
          rw [visits_again hround, List.forall_mem_cons]
          exact ⟨hinit, ih (hkeeps hinit hround)⟩
      | done r =>
          rw [visits_done hround, List.forall_mem_singleton]
          exact hinit

/-- **A loop that ended** did so in a state in which holds what the rounds keep. -/
theorem run_invariant {I : σ → Prop} (hkeeps : ∀ {s s'}, I s → round s = .again s' → I s') {n : ℕ} {s : σ}
    {r : ρ} (hinit : I s) (h : run round n s = some r) : ∃ t, I t ∧ round t = .done r := by
  induction n generalizing s with
  | zero => simp [run] at h
  | succ n ih =>
      cases hround : round s with
      | again s' =>
          rw [run_again hround] at h
          exact ih (hkeeps hinit hround) h
      | done r' =>
          rw [run_done hround, Option.some.injEq] at h
          exact ⟨s, hinit, by rw [hround, h]⟩

/-- **A loop ends** if a measure decreases in every round that goes on, from states in which holds what the
rounds keep. -/
theorem exists_run {I : σ → Prop} {μ : σ → ℕ} (hkeeps : ∀ {s s'}, I s → round s = .again s' → I s')
    (hdecreases : ∀ {s s'}, I s → round s = .again s' → μ s' < μ s) {n : ℕ} {s : σ} (hinit : I s)
    (hn : μ s < n) : ∃ r, run round n s = some r := by
  induction n generalizing s with
  | zero => omega
  | succ n ih =>
      cases hround : round s with
      | again s' =>
          have hless := hdecreases hinit hround
          rw [run_again hround]
          exact ih (hkeeps hinit hround) (by omega)
      | done r => exact ⟨r, run_done hround⟩

/-- **A loop does not end** if every round from some states goes on to such a state. -/
theorem run_eq_none {I : σ → Prop} (hagain : ∀ s, I s → ∃ s', round s = .again s' ∧ I s') {s : σ}
    (hinit : I s) (n : ℕ) : run round n s = none := by
  induction n generalizing s with
  | zero => rfl
  | succ n ih =>
      obtain ⟨s', hround, hnext⟩ := hagain s hinit
      rw [run_again hround]
      exact ih hnext

/-! ## Loops over a list -/

section forRange

variable {ε α : Type*} (step : σ → α → ℕ → Except ε σ)

/-- The body for every element and its index. -/
def forRange (xs : List α) (s : σ) : Except ε σ :=
  xs.zipIdx.foldlM (fun s x => step s x.1 x.2) s

variable {step}

/-- The loop over one more element ends with the step of that element. -/
theorem forRange_take_succ {xs : List α} {i : ℕ} {x : α} (h : xs[i]? = some x) (s : σ) :
    forRange step (xs.take (i + 1)) s = forRange step (xs.take i) s >>= fun s' => step s' x i := by
  have hi : i < xs.length := (List.getElem?_eq_some_iff.mp h).1
  have hlength : (xs.take i).length = i := List.length_take_of_le (Nat.le_of_lt hi)
  unfold forRange
  rw [List.take_add_one, h, Option.toList_some, List.zipIdx_append, List.foldlM_append, hlength, Nat.zero_add]
  congr 1
  funext s'
  rw [List.zipIdx_singleton, List.foldlM_cons]
  cases step s' x i with
  | error err => rfl
  | ok s₁ => rfl

end forRange

end Smartdoge.Lib.Loop
