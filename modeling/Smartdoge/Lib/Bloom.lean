import Mathlib.Data.Nat.Bitwise

/-!
# Bloom filters

A filter is a number read as a set of bits. Every item has a few bits of its own; adding an item sets
them, and the test asks whether all of them are set. A filter has no false negatives: an item that was
added tests positive, in that filter and in every filter that covers it.
-/

namespace Smartdoge.Lib.Bloom

/-- Every bit of `c` is set in `b`. -/
def Covers (b c : ℕ) : Prop := ∀ i, c.testBit i = true → b.testBit i = true

/-- A filter covers itself. -/
theorem Covers.refl (b : ℕ) : Covers b b := fun _ h => h

/-- Covering is transitive. -/
theorem Covers.trans {b c d : ℕ} (h : Covers b c) (h' : Covers c d) : Covers b d :=
  fun i hi => h i (h' i hi)

/-- Equal filters cover each other. -/
theorem Covers.of_eq {b c : ℕ} (h : b = c) : Covers b c := h ▸ Covers.refl b

/-- A union covers its first part. -/
theorem covers_or_left (b c : ℕ) : Covers (b ||| c) b := by
  intro i hi
  simp [hi]

/-- A union covers its second part. -/
theorem covers_or_right (b c : ℕ) : Covers (b ||| c) c := by
  intro i hi
  simp [hi]

variable {α : Type} (values : α → ℕ)

/-- Whether all bits of an item are set. -/
def test (bloom : ℕ) (x : α) : Bool := bloom &&& values x = values x

/-- Add items one after the other. -/
def addAll (bloom : ℕ) (xs : List α) : ℕ := xs.foldl (fun b x => b ||| values x) bloom

variable {values}

/-- A test asks whether the filter covers the bits of the item. -/
theorem test_iff {bloom : ℕ} {x : α} : test values bloom x = true ↔ Covers bloom (values x) := by
  unfold test Covers
  rw [decide_eq_true_eq]
  constructor
  · intro h i hi
    rw [← h, Nat.testBit_and] at hi
    exact (Bool.and_eq_true_iff.mp hi).1
  · intro h
    refine Nat.eq_of_testBit_eq fun i => ?_
    rw [Nat.testBit_and]
    cases hi : (values x).testBit i with
    | false => exact Bool.and_false _
    | true => rw [h i hi, Bool.true_and]

/-- A filter that covers another one finds what the other finds. -/
theorem test_of_covers {b c : ℕ} {x : α} (h : Covers b c) (hx : test values c x = true) :
    test values b x = true :=
  test_iff.mpr (h.trans (test_iff.mp hx))

/-- Adding items keeps the bits that are set. -/
theorem addAll_covers (bloom : ℕ) (xs : List α) : Covers (addAll values bloom xs) bloom := by
  induction xs generalizing bloom with
  | nil => exact Covers.refl bloom
  | cons x xs ih => exact (ih (bloom ||| values x)).trans (covers_or_left bloom (values x))

/-- **No false negatives.** -/
theorem test_addAll {xs : List α} {x : α} (h : x ∈ xs) (bloom : ℕ) :
    test values (addAll values bloom xs) x = true := by
  induction xs generalizing bloom with
  | nil => simp at h
  | cons y xs ih =>
      rcases List.mem_cons.mp h with rfl | h
      · refine test_of_covers (addAll_covers (bloom ||| values x) xs) ?_
        exact test_iff.mpr (covers_or_right bloom (values x))
      · exact ih h (bloom ||| values y)

end Smartdoge.Lib.Bloom
