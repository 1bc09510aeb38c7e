import Mathlib.Algebra.Order.Ring.Int
import Mathlib.Tactic.Common
import Mathlib.Tactic.NormNum
import Mathlib.Tactic.Ring

/-!
# Arithmetic of `int64`

A result of `int64` arithmetic is the one value of the type that is congruent to the exact result. The values of a
counter between two bounds are a list.

* `int64_eq`, `int64_overflow`: results in the range are exact, and those above come out at its other end.
* `heights_append`: a range splits at every value inside.
-/

namespace Smartdoge

/-- The `Int64()` of a big integer, and every result of the arithmetic of `int64`. -/
def int64 (x : ℤ) : ℤ := x.bmod (2 ^ 64)

/-- A conversion is in the range of `int64`. -/
theorem int64_range (x : ℤ) : -2 ^ 63 ≤ int64 x ∧ int64 x < 2 ^ 63 := by
  unfold int64
  have hlow := Int.le_bmod (x := x) (m := 2 ^ 64) (by decide)
  have hhigh := Int.bmod_lt (x := x) (m := 2 ^ 64) (by decide)
  norm_num at hlow hhigh ⊢
  omega

/-- Arithmetic that stays in the range is exact. -/
theorem int64_eq {x : ℤ} (hlow : -2 ^ 63 ≤ x) (hhigh : x < 2 ^ 63) : int64 x = x := by
  unfold int64
  norm_num at hlow hhigh
  exact Int.bmod_eq_of_le (by norm_num; omega) (by norm_num; omega)

/-- A conversion only lowers a number that is not below the range. -/
theorem int64_le {x : ℤ} (h : -2 ^ 63 ≤ x) : int64 x ≤ x := by
  by_cases hhigh : x < 2 ^ 63
  · exact le_of_eq (int64_eq h hhigh)
  · exact le_trans (le_of_lt (int64_range x).2) (not_lt.mp hhigh)

/-- A sum that leaves the range comes out at its other end. -/
theorem int64_overflow {x : ℤ} (hlow : 2 ^ 63 ≤ x) (hhigh : x < 2 ^ 64) : int64 x = x - 2 ^ 64 := by
  have hback : int64 (x - 2 ^ 64) = x - 2 ^ 64 := int64_eq (by omega) (by omega)
  rw [← hback]
  unfold int64
  rw [Int.bmod_eq_bmod_iff_bmod_sub_eq_zero]
  simp

/-! ## Counters -/

/-- The values of a counter that runs from a height up to another one. -/
def heights (first last : ℤ) : List ℤ := (List.range (last - first + 1).toNat).map fun (i : ℕ) => first + (i : ℤ)

/-- The heights are those between the first and the last. -/
theorem mem_heights {first last height : ℤ} : height ∈ heights first last ↔ first ≤ height ∧ height ≤ last := by
  unfold heights
  rw [List.mem_map]
  constructor
  · rintro ⟨i, hi, rfl⟩
    rw [List.mem_range] at hi
    omega
  · intro h
    refine ⟨(height - first).toNat, ?_, by omega⟩
    rw [List.mem_range]
    omega

/-- How many heights there are. -/
theorem length_heights (first last : ℤ) : (heights first last).length = (last - first + 1).toNat := by
  unfold heights
  rw [List.length_map, List.length_range]

/-- There is no height where the last one is below the first. -/
theorem heights_eq_nil {first last : ℤ} (h : last < first) : heights first last = [] := by
  have hnone : (last - first + 1).toNat = 0 := by omega
  unfold heights
  rw [hnone]
  rfl

/-- Otherwise the first one comes first. -/
theorem heights_cons {first last : ℤ} (h : first ≤ last) :
    heights first last = first :: heights (first + 1) last := by
  have hlength : (last - first + 1).toNat = (last - (first + 1) + 1).toNat + 1 := by omega
  unfold heights
  rw [hlength, List.range_succ_eq_map, List.map_cons, List.map_map]
  congr 1
  · simp
  · apply List.map_congr_left
    intro i _
    simp only [Function.comp_apply, Nat.succ_eq_add_one, Nat.cast_add, Nat.cast_one]
    ring

/-- The range splits at a height inside. -/
theorem heights_append {first mid last : ℤ} (hfirst : first ≤ mid + 1) (hlast : mid ≤ last) :
    heights first last = heights first mid ++ heights (mid + 1) last := by
  obtain ⟨n, hn⟩ : ∃ n : ℕ, mid + 1 - first = n := ⟨(mid + 1 - first).toNat, by omega⟩
  induction n generalizing first with
  | zero =>
      have hstart : first = mid + 1 := by omega
      rw [heights_eq_nil (by omega : mid < first), hstart, List.nil_append]
  | succ n ih =>
      rw [heights_cons (by omega : first ≤ last), heights_cons (by omega : first ≤ mid), List.cons_append,
        ih (by omega) (by push_cast at hn ⊢; omega)]

end Smartdoge
