import Mathlib.Algebra.BigOperators.Group.List.Lemmas
import Mathlib.Algebra.Order.BigOperators.Group.List
import Mathlib.Algebra.Order.Ring.Nat
import Mathlib.Data.List.Sort
import Mathlib.Tactic.Common

/-!
# Weighted quantiles

Entries have a key and a weight. The quantile at a level is the key up to which the entries weigh as much as the
level, and below which they weigh less: the first such key, or the greatest one if all entries together weigh less.

* `IsQuantile.mono`: it grows with the level, so that there is at most one at each.
* `isQuantile_of_split`: it is found by going through the entries in the order of their keys.
-/

namespace Smartdoge.Lib.Quantile

variable {α κ : Type*} [LinearOrder κ] (key : α → κ) (weight : α → ℕ)

/-- The weight of the entries with smaller keys. -/
def below (xs : List α) (k : κ) : ℕ := ((xs.filter fun x => key x < k).map weight).sum

/-- The weight of the entries with keys up to this one. -/
def upTo (xs : List α) (k : κ) : ℕ := ((xs.filter fun x => key x ≤ k).map weight).sum

/-- The key is the quantile at a level. -/
structure IsQuantile (xs : List α) (level : ℕ) (k : κ) : Prop where
  mem : ∃ x ∈ xs, key x = k
  needed : (∀ x ∈ xs, k ≤ key x) ∨ below key weight xs k < level
  enough : (∀ x ∈ xs, key x ≤ k) ∨ level ≤ upTo key weight xs k

variable {key weight}

/-- What counts up to a key counts below every greater one. -/
theorem upTo_le_below {xs : List α} {k k' : κ} (h : k < k') : upTo key weight xs k ≤ below key weight xs k' := by
  unfold upTo below
  refine List.Sublist.sum_le_sum (List.Sublist.map weight ?_) fun _ _ => Nat.zero_le _
  refine List.monotone_filter_right xs ?_
  intro x hx
  simp only [decide_eq_true_eq] at hx ⊢
  exact lt_of_le_of_lt hx h

/-- **The quantile grows with the level.** -/
theorem IsQuantile.mono {xs : List α} {level level' : ℕ} {k k' : κ} (h : IsQuantile key weight xs level k)
    (h' : IsQuantile key weight xs level' k') (hle : level ≤ level') : k ≤ k' := by
  by_contra hlt
  have hlt : k' < k := not_le.mp hlt
  obtain ⟨x, hx, rfl⟩ := h.mem
  obtain ⟨x', hx', rfl⟩ := h'.mem
  -- The greater key is needed only above the weight up to the smaller one.
  have hneeded : below key weight xs (key x) < level :=
    h.needed.resolve_left fun hmin => not_le.mpr hlt (hmin x' hx')
  have henough : level' ≤ upTo key weight xs (key x') :=
    h'.enough.resolve_left fun hmax => not_le.mpr hlt (hmax x hx)
  have hweights : upTo key weight xs (key x') ≤ below key weight xs (key x) := upTo_le_below hlt
  omega

/-- The order of the entries does not matter. -/
theorem IsQuantile.perm {xs ys : List α} {level : ℕ} {k : κ} (h : IsQuantile key weight xs level k)
    (hperm : xs.Perm ys) : IsQuantile key weight ys level k where
  mem := by
    obtain ⟨x, hx, hkey⟩ := h.mem
    exact ⟨x, hperm.mem_iff.mp hx, hkey⟩
  needed := by
    refine h.needed.imp (fun hmin y hy => hmin y (hperm.mem_iff.mpr hy)) fun hlt => ?_
    unfold below at hlt ⊢
    rwa [← ((hperm.filter _).map weight).sum_eq]
  enough := by
    refine h.enough.imp (fun hmax y hy => hmax y (hperm.mem_iff.mpr hy)) fun hle => ?_
    unfold upTo at hle ⊢
    rwa [← ((hperm.filter _).map weight).sum_eq]

section sorted

variable {before after : List α} {x : α} (hsorted : (before ++ x :: after).Pairwise fun a b => key a ≤ key b)

include hsorted

/-- In a sorted list, no key before an element is greater than its own. -/
theorem key_le_of_before : ∀ y ∈ before, key y ≤ key x := by
  intro y hy
  exact (List.pairwise_append.mp hsorted).2.2 y hy x List.mem_cons_self

/-- In a sorted list, no key from an element on is less than its own. -/
theorem le_key_of_after : ∀ y ∈ x :: after, key x ≤ key y := by
  intro y hy
  rcases List.mem_cons.mp hy with rfl | hy
  · exact le_rfl
  · exact (List.pairwise_cons.mp (List.pairwise_append.mp hsorted).2.1).1 y hy

/-- The weight below the key of an element comes before it. -/
theorem below_le_before : below key weight (before ++ x :: after) (key x) ≤ (before.map weight).sum := by
  have hnone : (x :: after).filter (fun y => key y < key x) = [] := by
    rw [List.filter_eq_nil_iff]
    intro y hy
    simpa using le_key_of_after hsorted y hy
  unfold below
  rw [List.filter_append, hnone, List.append_nil]
  exact List.Sublist.sum_le_sum (List.Sublist.map weight List.filter_sublist) fun _ _ => Nat.zero_le _

/-- The weight up to an element, itself included, counts up to its key. -/
theorem before_le_upTo : ((before ++ [x]).map weight).sum ≤ upTo key weight (before ++ x :: after) (key x) := by
  have hall : (before ++ [x]).filter (fun y => key y ≤ key x) = before ++ [x] := by
    rw [List.filter_eq_self]
    intro y hy
    rcases List.mem_append.mp hy with hy | hy
    · simpa using key_le_of_before hsorted y hy
    · simp [List.mem_singleton.mp hy]
  have hsplit : before ++ x :: after = (before ++ [x]) ++ after := by simp
  unfold upTo
  rw [hsplit, List.filter_append, hall]
  generalize before ++ [x] = first
  rw [List.map_append, List.sum_append]
  exact Nat.le_add_right _ _

/-- **Going through the entries in the order of their keys**, to the first at which those so far weigh enough, or to
the last, finds the quantile. -/
theorem isQuantile_of_split {level : ℕ} (hneeded : before = [] ∨ (before.map weight).sum < level)
    (henough : after = [] ∨ level ≤ ((before ++ [x]).map weight).sum) :
    IsQuantile key weight (before ++ x :: after) level (key x) where
  mem := ⟨x, by simp, rfl⟩
  needed := by
    rcases hneeded with rfl | hlt
    · exact Or.inl (le_key_of_after hsorted)
    · exact Or.inr (lt_of_le_of_lt (below_le_before hsorted) hlt)
  enough := by
    rcases henough with rfl | hle
    · left
      intro y hy
      rcases List.mem_append.mp hy with hy | hy
      · exact key_le_of_before hsorted y hy
      · rw [List.mem_singleton.mp hy]
    · exact Or.inr (le_trans hle (before_le_upTo hsorted))

end sorted

end Smartdoge.Lib.Quantile
