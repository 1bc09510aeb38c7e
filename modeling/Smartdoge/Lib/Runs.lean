import Mathlib.Tactic.Common

/-!
# Runs of a transition system

A system takes steps that may be enabled or not: `step s a` is the state after the step `a`, or `none`. A
run is a list of steps that are all enabled. What holds at first and is kept by every step holds after
every run; where it is kept only by the steps that meet a condition, it holds after every run of those.

* `run_invariant`, `run_keeps`: the rules.
-/

namespace Smartdoge.Lib.Runs

variable {σ α : Type*} (step : σ → α → Option σ) (ok : σ → α → Prop)

/-- The state after some steps. -/
def run : σ → List α → Option σ
  | s, [] => some s
  | s, a :: as => (step s a).bind fun s' => run s' as

/-- Every step meets a condition on the state before it. -/
def Meets : σ → List α → Prop
  | _, [] => True
  | s, a :: as => ok s a ∧
    match step s a with
    | some s' => Meets s' as
    | none => True

instance decidableMeets [h : ∀ s a, Decidable (ok s a)] : ∀ s as, Decidable (Meets step ok s as)
  | _, [] => isTrue trivial
  | s, a :: as =>
    match hstep : step s a with
    | some s' =>
      match h s a, decidableMeets s' as with
      | isTrue hok, isTrue hrest => isTrue ⟨hok, by rw [hstep]; exact hrest⟩
      | isFalse hok, _ => isFalse fun hmeets => hok hmeets.1
      | _, isFalse hrest => isFalse fun hmeets => hrest (by have := hmeets.2; rw [hstep] at this; exact this)
    | none =>
      match h s a with
      | isTrue hok => isTrue ⟨hok, by rw [hstep]; trivial⟩
      | isFalse hok => isFalse fun hmeets => hok hmeets.1

variable {step ok}

/-- **What every step that meets the condition keeps, every run of such steps keeps.** -/
theorem run_invariant {I : σ → Prop} (hstep : ∀ {s a s'}, I s → ok s a → step s a = some s' → I s')
    {s s' : σ} {as : List α} (hinit : I s) (hmeets : Meets step ok s as) (hrun : run step s as = some s') :
    I s' := by
  induction as generalizing s with
  | nil =>
      obtain rfl := Option.some.inj hrun
      exact hinit
  | cons a as ih =>
      obtain ⟨s₁, hone, hrest⟩ := Option.bind_eq_some_iff.mp hrun
      obtain ⟨hok, hafter⟩ := hmeets
      rw [hone] at hafter
      exact ih (hstep hinit hok hone) hafter hrest

/-- Two conditions that every step meets. -/
theorem Meets.and {ok' : σ → α → Prop} {s : σ} {as : List α} (h : Meets step ok s as) (h' : Meets step ok' s as) :
    Meets step (fun s a => ok s a ∧ ok' s a) s as := by
  induction as generalizing s with
  | nil => trivial
  | cons a as ih =>
      obtain ⟨hok, hrest⟩ := h
      obtain ⟨hok', hrest'⟩ := h'
      refine ⟨⟨hok, hok'⟩, ?_⟩
      cases hstep : step s a with
      | none => trivial
      | some s₁ =>
          rw [hstep] at hrest hrest'
          exact ih hrest hrest'

/-- Every run meets a condition that every step does. -/
theorem meets_of_forall (h : ∀ s a, ok s a) (s : σ) (as : List α) : Meets step ok s as := by
  induction as generalizing s with
  | nil => trivial
  | cons a as ih =>
      refine ⟨h s a, ?_⟩
      cases step s a with
      | none => trivial
      | some s₁ => exact ih s₁

/-- **What every step keeps, every run keeps.** -/
theorem run_keeps {I : σ → Prop} (hstep : ∀ {s a s'}, I s → step s a = some s' → I s') {s s' : σ} {as : List α}
    (hinit : I s) (hrun : run step s as = some s') : I s' :=
  run_invariant (fun hs (_ : True) hone => hstep hs hone) hinit (meets_of_forall (fun _ _ => trivial) s as) hrun

end Smartdoge.Lib.Runs
