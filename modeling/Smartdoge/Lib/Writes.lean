import Mathlib.Tactic.Common

/-!
# Programs that write to a store

A write is an `EStateM ε σ Unit`: it returns or fails, and on failure it keeps what it had written.
This is how Go code that writes to a store and returns an `error` behaves.

* **Inversion** (`bind_ok`, `adaptExcept_ok`, `ofExcept_ok`): what a sequence of writes that returned
  did.
* **Evaluation** (`endsWith`, `failsWith`): a write on a concrete store, as a test that can be run.
* **Loops** (`forM_cons_ok`, `mapM_cons_ok`): a `for` loop that writes and stops at the first error,
  with the rules for what every iteration does (`forM_rel`, `mapM_rel`, `mapM_forall₂`) and for what it
  keeps (`forM_keeps`, `mapM_keeps`).
* **Failures** (`finalState_bind_rel`, `forM_finalState`): what a program keeps, whether it returns or not.
-/

namespace Smartdoge.Lib.Writes

variable {ε ε' σ α β : Type}

/-- A sequence returned: so did both parts. -/
theorem bind_ok {x : EStateM ε σ α} {f : α → EStateM ε σ β} {s s' : σ} {b : β} :
    (x >>= f) s = .ok b s' ↔ ∃ a s₁, x s = .ok a s₁ ∧ f a s₁ = .ok b s' := by
  show EStateM.bind x f s = .ok b s' ↔ _
  unfold EStateM.bind
  cases hx : x s with
  | ok a s₁ => simp
  | error e s₁ => simp

/-- A sequence failed: one of its parts did. -/
theorem bind_error {x : EStateM ε σ α} {f : α → EStateM ε σ β} {s s' : σ} {e : ε} :
    (x >>= f) s = .error e s' ↔
      x s = .error e s' ∨ ∃ a s₁, x s = .ok a s₁ ∧ f a s₁ = .error e s' := by
  show EStateM.bind x f s = .error e s' ↔ _
  unfold EStateM.bind
  cases hx : x s with
  | ok a s₁ => simp
  | error e s₁ => simp

/-- Wrapping the error of a write does not change what it does when it returns. -/
theorem adaptExcept_ok {x : EStateM ε σ α} {f : ε → ε'} {s s' : σ} {a : α} :
    (EStateM.adaptExcept f x) s = .ok a s' ↔ x s = .ok a s' := by
  unfold EStateM.adaptExcept
  cases x s with
  | ok a s₁ => simp
  | error e s₁ => simp

/-- An adapted program fails with the adapted error. -/
theorem adaptExcept_error {x : EStateM ε σ α} {f : ε → ε'} {s s' : σ} {e' : ε'} :
    (EStateM.adaptExcept f x) s = .error e' s' ↔ ∃ e, x s = .error e s' ∧ f e = e' := by
  unfold EStateM.adaptExcept
  cases x s with
  | ok a s₁ => simp
  | error e s₁ => simp [and_comm]

/-- A modification returns with the modified state. -/
@[simp] theorem modify_ok {f : σ → σ} {s s' : σ} {u : PUnit} :
    (modify f : EStateM ε σ PUnit) s = .ok u s' ↔ f s = s' := by
  show EStateM.Result.ok PUnit.unit (f s) = .ok u s' ↔ _
  simp

/-- It does not fail. -/
theorem modify_ne_error {f : σ → σ} {s s' : σ} {e : ε} :
    (modify f : EStateM ε σ PUnit) s ≠ .error e s' := by
  intro h
  cases h

/-- A pure program returns its value and keeps the state. -/
@[simp] theorem pure_ok {a b : α} {s s' : σ} :
    (pure a : EStateM ε σ α) s = .ok b s' ↔ a = b ∧ s = s' := by
  show EStateM.Result.ok a s = .ok b s' ↔ _
  simp

/-- A program that throws does not return. -/
@[simp] theorem throw_ok {e : ε} {s s' : σ} {a : α} :
    (throw e : EStateM ε σ α) s = .ok a s' ↔ False := by
  show EStateM.Result.error e s = .ok a s' ↔ _
  simp

/-- A computation that writes nothing. -/
@[simp] theorem ofExcept_ok {x : Except ε α} {s s' : σ} {a : α} :
    (ofExcept x : EStateM ε σ α) s = .ok a s' ↔ x = .ok a ∧ s = s' := by
  cases x with
  | ok b =>
      show EStateM.Result.ok b s = .ok a s' ↔ _
      simp
  | error e =>
      show EStateM.Result.error e s = .ok a s' ↔ _
      simp

/-- A lifted result fails as the result does, and keeps the state. -/
theorem ofExcept_error {x : Except ε α} {s s' : σ} {e : ε} :
    (ofExcept x : EStateM ε σ α) s = .error e s' ↔ x = .error e ∧ s = s' := by
  cases x with
  | ok b =>
      show EStateM.Result.ok b s = .error e s' ↔ _
      simp
  | error e' =>
      show EStateM.Result.error e' s = .error e s' ↔ _
      simp

/-- Reading the state returns it and keeps it. -/
@[simp] theorem get_ok {s s' a : σ} : (get : EStateM ε σ σ) s = .ok a s' ↔ s = a ∧ s = s' := by
  show EStateM.Result.ok s s = .ok a s' ↔ _
  simp

/-- A sequence of computations returned: so did both. -/
theorem except_bind_ok {x : Except ε α} {f : α → Except ε β} {b : β} :
    (x >>= f) = .ok b ↔ ∃ a, x = .ok a ∧ f a = .ok b := by
  cases x with
  | ok a => simp [bind, Except.bind]
  | error e => simp [bind, Except.bind]

/-- Mapping the error keeps what is returned. -/
theorem mapError_ok {x : Except ε α} {f : ε → ε'} {a : α} :
    x.mapError f = .ok a ↔ x = .ok a := by
  cases x <;> simp [Except.mapError]

/-- A value that must be there. -/
theorem elim_error_ok {x : Option α} {e : ε} {a : α} :
    (x.elim (.error e) .ok : Except ε α) = .ok a ↔ x = some a := by
  cases x <;> simp

/-- The error is the mapped one. -/
theorem mapError_error {x : Except ε α} {f : ε → ε'} {e' : ε'} :
    x.mapError f = .error e' ↔ ∃ e, x = .error e ∧ f e = e' := by
  cases x <;> simp [Except.mapError]

/-- Whether a computation returned, with a property of what it returned and left behind. -/
def endsWith (x : EStateM.Result ε σ α) (p : α → σ → Bool) : Bool :=
  match x with
  | .ok a s => p a s
  | .error _ _ => false

/-- A run that was evaluated has returned, with a value and a state that pass the test. -/
theorem exists_of_endsWith {x : EStateM.Result ε σ α} {p : α → σ → Bool} (h : endsWith x p = true) :
    ∃ a s, x = .ok a s ∧ p a s = true := by
  cases x with
  | ok a s => exact ⟨a, s, rfl, h⟩
  | error e s => simp [endsWith] at h

/-- A run that was evaluated has returned with the state it was compared with. -/
theorem ok_of_endsWith [DecidableEq σ] {x : EStateM.Result ε σ PUnit} {s : σ}
    (h : endsWith x (fun _ s' => decide (s' = s)) = true) : x = .ok () s := by
  obtain ⟨⟨⟩, s', hx, hs⟩ := exists_of_endsWith h
  rw [hx, of_decide_eq_true hs]

/-- A check that was evaluated has passed. -/
theorem except_ok_of_isOk {x : Except ε PUnit} (h : x.isOk = true) : x = .ok () := by
  cases x with
  | ok u => rfl
  | error e => cases h

/-- Whether a computation failed, with a property of its error. -/
def failsWith (x : EStateM.Result ε σ α) (p : ε → Bool) : Bool :=
  match x with
  | .ok _ _ => false
  | .error e _ => p e

/-- A run that was evaluated has failed, with an error that passes the test. -/
theorem exists_of_failsWith {x : EStateM.Result ε σ α} {p : ε → Bool} (h : failsWith x p = true) :
    ∃ e s, x = .error e s ∧ p e = true := by
  cases x with
  | ok a s => simp [failsWith] at h
  | error e s => exact ⟨e, s, rfl, h⟩

/-! ## Loops -/

/-- A loop over nothing keeps the state. -/
@[simp] theorem forM_nil_ok {w : α → EStateM ε σ PUnit} {s s' : σ} :
    (([] : List α).forM w) s = .ok () s' ↔ s = s' := by
  show EStateM.Result.ok PUnit.unit s = .ok () s' ↔ _
  simp

/-- A loop runs its first element and then the others. -/
theorem forM_cons_ok {a : α} {l : List α} {w : α → EStateM ε σ PUnit} {s s' : σ} :
    ((a :: l).forM w) s = .ok () s' ↔ ∃ s₁, w a s = .ok () s₁ ∧ (l.forM w) s₁ = .ok () s' := by
  have hunfold : (a :: l).forM w = (w a >>= fun _ => l.forM w) := rfl
  rw [hunfold, bind_ok]
  constructor
  · rintro ⟨⟨⟩, s₁, h₁, h₂⟩
    exact ⟨s₁, h₁, h₂⟩
  · rintro ⟨s₁, h₁, h₂⟩
    exact ⟨(), s₁, h₁, h₂⟩

/-- A loop that failed did so in one of its iterations. -/
theorem exists_of_forM_error {l : List α} {w : α → EStateM ε σ PUnit} {e : ε} {s s' : σ}
    (h : (l.forM w) s = .error e s') : ∃ a ∈ l, ∃ s₁, w a s₁ = .error e s' := by
  induction l generalizing s with
  | nil => cases h
  | cons a l ih =>
      have hunfold : (a :: l).forM w = (w a >>= fun _ => l.forM w) := rfl
      rw [hunfold, bind_error] at h
      rcases h with h | ⟨-, s₁, -, h⟩
      · exact ⟨a, List.mem_cons_self, s, h⟩
      · obtain ⟨b, hb, s₂, hs₂⟩ := ih h
        exact ⟨b, List.mem_cons_of_mem a hb, s₂, hs₂⟩

/-- A loop over nothing returns nothing and keeps the state. -/
@[simp] theorem mapM_nil_ok {f : α → EStateM ε σ β} {s s' : σ} {bs : List β} :
    (([] : List α).mapM f) s = .ok bs s' ↔ [] = bs ∧ s = s' := by
  rw [List.mapM_nil, pure_ok]

/-- A loop that collects what its iterations return. -/
theorem mapM_cons_ok {a : α} {l : List α} {f : α → EStateM ε σ β} {s s' : σ} {bs : List β} :
    ((a :: l).mapM f) s = .ok bs s' ↔
      ∃ b s₁ bs', f a s = .ok b s₁ ∧ (l.mapM f) s₁ = .ok bs' s' ∧ bs = b :: bs' := by
  rw [List.mapM_cons, bind_ok]
  constructor
  · rintro ⟨b, s₁, h₁, h₂⟩
    obtain ⟨bs', s₂, h₃, h₄⟩ := bind_ok.mp h₂
    obtain ⟨rfl, rfl⟩ := pure_ok.mp h₄
    exact ⟨b, s₁, bs', h₁, h₃, rfl⟩
  · rintro ⟨b, s₁, bs', h₁, h₃, rfl⟩
    exact ⟨b, s₁, h₁, bind_ok.mpr ⟨bs', s', h₃, pure_ok.mpr ⟨rfl, rfl⟩⟩⟩

/-- A loop failed: at its first iteration or later. -/
theorem mapM_cons_error {a : α} {l : List α} {f : α → EStateM ε σ β} {s s' : σ} {e : ε} :
    ((a :: l).mapM f) s = .error e s' ↔
      f a s = .error e s' ∨ ∃ b s₁, f a s = .ok b s₁ ∧ (l.mapM f) s₁ = .error e s' := by
  have hpure : ∀ (bs : List β) (s₁ : σ), (pure bs : EStateM ε σ (List β)) s₁ ≠ .error e s' :=
    fun _ _ h => by cases h
  rw [List.mapM_cons, bind_error]
  refine or_congr_right (exists₂_congr fun b s₁ => and_congr_right fun _ => ?_)
  rw [bind_error]
  refine ⟨?_, Or.inl⟩
  rintro (h | ⟨bs, s₂, -, h⟩)
  · exact h
  · exact absurd h (hpure _ s₂)

/-- What holds between the stores around every iteration, and goes through, holds around a loop. -/
theorem forM_rel {R : σ → σ → Prop} (hrefl : ∀ s, R s s)
    (htrans : ∀ {s₁ s₂ s₃}, R s₁ s₂ → R s₂ s₃ → R s₁ s₃) {l : List α} {w : α → EStateM ε σ PUnit}
    (hstep : ∀ a ∈ l, ∀ s s', w a s = .ok () s' → R s s') {s s' : σ}
    (hrun : (l.forM w) s = .ok () s') : R s s' := by
  induction l generalizing s with
  | nil =>
      obtain rfl := forM_nil_ok.mp hrun
      exact hrefl s
  | cons a l ih =>
      obtain ⟨s₁, h₁, h₂⟩ := forM_cons_ok.mp hrun
      exact htrans (hstep a List.mem_cons_self s s₁ h₁)
        (ih (fun b hb => hstep b (List.mem_cons_of_mem a hb)) h₂)

/-- The state a run ends in, whether it failed or not. -/
def finalState : EStateM.Result ε σ α → σ
  | .ok _ s => s
  | .error _ s => s

/-- What both parts of a sequence keep, the sequence keeps, also if one of them fails. -/
theorem finalState_bind_rel {R : σ → σ → Prop} (htrans : ∀ {s₁ s₂ s₃}, R s₁ s₂ → R s₂ s₃ → R s₁ s₃)
    {x : EStateM ε σ α} {f : α → EStateM ε σ β} {s : σ} (hx : R s (finalState (x s)))
    (hf : ∀ a s₁, R s₁ (finalState (f a s₁))) : R s (finalState ((x >>= f) s)) := by
  show R s (finalState (EStateM.bind x f s))
  unfold EStateM.bind
  cases hstep : x s with
  | ok a s₁ =>
      rw [hstep] at hx
      exact htrans hx (hf a s₁)
  | error err s₁ =>
      rw [hstep] at hx
      exact hx

/-- Adapting the errors does not change what is left behind. -/
theorem finalState_adaptExcept (f : ε → ε') (x : EStateM ε σ α) (s : σ) :
    finalState ((EStateM.adaptExcept f x) s) = finalState (x s) := by
  unfold EStateM.adaptExcept
  cases x s with
  | ok a s₁ => rfl
  | error e s₁ => rfl

/-- What every step of a loop keeps, also one that fails, the loop keeps. -/
theorem forM_finalState {R : σ → σ → Prop} (hrefl : ∀ s, R s s)
    (htrans : ∀ {s₁ s₂ s₃}, R s₁ s₂ → R s₂ s₃ → R s₁ s₃) {l : List α} {w : α → EStateM ε σ PUnit}
    (hstep : ∀ a ∈ l, ∀ s, R s (finalState (w a s))) (s : σ) : R s (finalState (l.forM w s)) := by
  induction l generalizing s with
  | nil => exact hrefl s
  | cons a l ih =>
      have ha := hstep a List.mem_cons_self s
      cases hw : w a s with
      | ok u s₁ =>
          rw [hw] at ha
          have hrest := ih (fun b hb => hstep b (List.mem_cons_of_mem a hb)) s₁
          have hloop : (a :: l).forM w s = l.forM w s₁ := by
            show EStateM.bind (w a) (fun _ => l.forM w) s = _
            simp only [EStateM.bind, hw]
          rw [hloop]
          exact htrans ha hrest
      | error err s₁ =>
          rw [hw] at ha
          have hloop : (a :: l).forM w s = .error err s₁ := by
            show EStateM.bind (w a) (fun _ => l.forM w) s = _
            simp only [EStateM.bind, hw]
          rw [hloop]
          exact ha

/-- The same for a loop that collects results. -/
theorem mapM_rel {R : σ → σ → Prop} (hrefl : ∀ s, R s s)
    (htrans : ∀ {s₁ s₂ s₃}, R s₁ s₂ → R s₂ s₃ → R s₁ s₃) {l : List α} {f : α → EStateM ε σ β}
    (hstep : ∀ a ∈ l, ∀ s b s', f a s = .ok b s' → R s s') {s s' : σ} {bs : List β}
    (hrun : (l.mapM f) s = .ok bs s') : R s s' := by
  induction l generalizing s bs with
  | nil =>
      obtain ⟨-, rfl⟩ := mapM_nil_ok.mp hrun
      exact hrefl s
  | cons a l ih =>
      obtain ⟨b, s₁, bs', h₁, h₂, -⟩ := mapM_cons_ok.mp hrun
      exact htrans (hstep a List.mem_cons_self s b s₁ h₁)
        (ih (fun c hc => hstep c (List.mem_cons_of_mem a hc)) h₂)

/-- A loop keeps the part of the state that every iteration keeps. -/
theorem forM_keeps {γ : Type} {g : σ → γ} {l : List α} {w : α → EStateM ε σ PUnit}
    (hstep : ∀ a ∈ l, ∀ s s', w a s = .ok () s' → g s' = g s) {s s' : σ}
    (hrun : (l.forM w) s = .ok () s') : g s' = g s := by
  refine forM_rel (R := fun s s' => g s' = g s) (fun _ => rfl) ?_ hstep hrun
  intro _ _ _ hfirst hsecond
  exact hsecond.trans hfirst

/-- The same for a loop that collects values. -/
theorem mapM_keeps {γ : Type} {g : σ → γ} {l : List α} {f : α → EStateM ε σ β}
    (hstep : ∀ a ∈ l, ∀ s b s', f a s = .ok b s' → g s' = g s) {s s' : σ} {bs : List β}
    (hrun : (l.mapM f) s = .ok bs s') : g s' = g s := by
  refine mapM_rel (R := fun s s' => g s' = g s) (fun _ => rfl) ?_ hstep hrun
  intro _ _ _ hfirst hsecond
  exact hsecond.trans hfirst

/-- What every iteration says about what it was given and what it returned. -/
theorem mapM_forall₂ {P : α → β → Prop} {l : List α} {f : α → EStateM ε σ β}
    (hstep : ∀ a ∈ l, ∀ s b s', f a s = .ok b s' → P a b) {s s' : σ} {bs : List β}
    (hrun : (l.mapM f) s = .ok bs s') : List.Forall₂ P l bs := by
  induction l generalizing s bs with
  | nil =>
      obtain ⟨rfl, -⟩ := mapM_nil_ok.mp hrun
      exact List.Forall₂.nil
  | cons a l ih =>
      obtain ⟨b, s₁, bs', h₁, h₂, rfl⟩ := mapM_cons_ok.mp hrun
      exact List.Forall₂.cons (hstep a List.mem_cons_self s b s₁ h₁)
        (ih (fun c hc => hstep c (List.mem_cons_of_mem a hc)) h₂)

/-- What a loop returned, element by element. -/
theorem mapM_map {γ : Type} {g : β → γ} {h : α → γ} {l : List α} {f : α → EStateM ε σ β}
    (hstep : ∀ a ∈ l, ∀ s b s', f a s = .ok b s' → g b = h a) {s s' : σ} {bs : List β}
    (hrun : (l.mapM f) s = .ok bs s') : bs.map g = l.map h := by
  have hall := mapM_forall₂ hstep hrun
  clear hstep hrun
  induction hall with
  | nil => rfl
  | cons hhead _ ih => rw [List.map_cons, List.map_cons, hhead, ih]

/-- A loop succeeds where another one does whose iterations demand more. -/
theorem mapM_ok_imp {l : List α} {f g : α → EStateM ε σ β}
    (hstep : ∀ a ∈ l, ∀ s b s', f a s = .ok b s' → g a s = .ok b s') {s s' : σ} {bs : List β}
    (hrun : (l.mapM f) s = .ok bs s') : (l.mapM g) s = .ok bs s' := by
  induction l generalizing s bs with
  | nil => exact hrun
  | cons a l ih =>
      obtain ⟨b, s₁, bs', h₁, h₂, rfl⟩ := mapM_cons_ok.mp hrun
      exact mapM_cons_ok.mpr ⟨b, s₁, bs', hstep a List.mem_cons_self s b s₁ h₁,
        ih (fun c hc => hstep c (List.mem_cons_of_mem a hc)) h₂, rfl⟩

/-- A loop runs the same on states with a part replaced that its iterations do not look at. -/
theorem forM_ok_comm {F : σ → σ} {l : List α} {w : α → EStateM ε σ PUnit}
    (hstep : ∀ a ∈ l, ∀ s s', w a s = .ok () s' → w a (F s) = .ok () (F s')) {s s' : σ}
    (hrun : (l.forM w) s = .ok () s') : (l.forM w) (F s) = .ok () (F s') := by
  induction l generalizing s with
  | nil =>
      obtain rfl := forM_nil_ok.mp hrun
      exact forM_nil_ok.mpr rfl
  | cons a l ih =>
      obtain ⟨s₁, h₁, h₂⟩ := forM_cons_ok.mp hrun
      exact forM_cons_ok.mpr ⟨F s₁, hstep a List.mem_cons_self s s₁ h₁,
        ih (fun c hc => hstep c (List.mem_cons_of_mem a hc)) h₂⟩

/-- The same for a loop that writes nothing. -/
theorem except_mapM_forall₂ {P : α → β → Prop} {l : List α} {f : α → Except ε β}
    (hstep : ∀ a ∈ l, ∀ b, f a = .ok b → P a b) {bs : List β} (hrun : l.mapM f = .ok bs) :
    List.Forall₂ P l bs := by
  induction l generalizing bs with
  | nil =>
      obtain rfl := Except.ok.inj hrun
      exact List.Forall₂.nil
  | cons a l ih =>
      rw [List.mapM_cons] at hrun
      obtain ⟨b, h₁, h₂⟩ := except_bind_ok.mp hrun
      obtain ⟨bs', h₃, h₄⟩ := except_bind_ok.mp h₂
      obtain rfl := Except.ok.inj h₄
      exact List.Forall₂.cons (hstep a List.mem_cons_self b h₁)
        (ih (fun c hc => hstep c (List.mem_cons_of_mem a hc)) h₃)

/-- A loop succeeds if and only if all its iterations do. -/
theorem except_mapM_ok_iff {l : List α} {f : α → Except ε β} :
    (∃ bs, l.mapM f = .ok bs) ↔ ∀ a ∈ l, ∃ b, f a = .ok b := by
  induction l with
  | nil =>
      refine iff_of_true ⟨[], rfl⟩ ?_
      intro a ha
      exact absurd ha List.not_mem_nil
  | cons a l ih =>
      rw [List.forall_mem_cons, ← ih, List.mapM_cons]
      constructor
      · rintro ⟨bs, h⟩
        obtain ⟨b, h₁, h₂⟩ := except_bind_ok.mp h
        obtain ⟨bs', h₃, -⟩ := except_bind_ok.mp h₂
        exact ⟨⟨b, h₁⟩, bs', h₃⟩
      · rintro ⟨⟨b, h₁⟩, bs, h₂⟩
        exact ⟨b :: bs, except_bind_ok.mpr ⟨b, h₁, except_bind_ok.mpr ⟨bs, h₂, rfl⟩⟩⟩

/-- What a loop returned, element by element. -/
theorem except_mapM_map {γ : Type} {g : β → γ} {h : α → γ} {l : List α} {f : α → Except ε β}
    (hstep : ∀ a ∈ l, ∀ b, f a = .ok b → g b = h a) {bs : List β} (hrun : l.mapM f = .ok bs) :
    bs.map g = l.map h := by
  have hall := except_mapM_forall₂ hstep hrun
  clear hstep hrun
  induction hall with
  | nil => rfl
  | cons hhead _ ih => rw [List.map_cons, List.map_cons, hhead, ih]

/-- A loop that fails nowhere. -/
theorem option_mapM_of_forall {f : α → Option β} {g : α → β} {l : List α} (h : ∀ a ∈ l, f a = some (g a)) :
    l.mapM f = some (l.map g) := by
  induction l with
  | nil => rfl
  | cons a l ih =>
      rw [List.mapM_cons, h a List.mem_cons_self, ih fun b hb => h b (List.mem_cons_of_mem a hb)]
      rfl

/-- A loop skips the elements at which it does nothing. -/
theorem except_foldlM_filter {p : α → Bool} {f : σ → α → Except ε σ}
    (hskip : ∀ s a, p a = false → f s a = .ok s) (l : List α) (s : σ) :
    l.foldlM f s = (l.filter p).foldlM f s := by
  induction l generalizing s with
  | nil => rfl
  | cons a l ih =>
      cases hp : p a with
      | true =>
          rw [List.filter_cons_of_pos hp, List.foldlM_cons, List.foldlM_cons]
          exact bind_congr ih
      | false =>
          rw [List.filter_cons_of_neg (by simp [hp]), List.foldlM_cons, hskip s a hp]
          exact ih s

end Smartdoge.Lib.Writes
