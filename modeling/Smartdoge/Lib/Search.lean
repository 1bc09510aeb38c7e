import Mathlib.Data.List.Basic
import Mathlib.Tactic.Common

/-!
# Binary search

`sort.Search` of Go: the interval `[i, j)` is halved until it is empty. For a predicate that stays true
once it is true, the loop keeps the predicate false below `i` and true from `j` on, so that it ends at the
first index at which the predicate holds (`search_spec`). On a list this is `List.findIdx`
(`search_eq_findIdx`).
-/

namespace Smartdoge.Lib.Search

/-- The loop of the search on the interval from `i` to `j`. -/
def searchLoop (f : ℕ → Bool) (i j : ℕ) : ℕ :=
  if i < j then
    let h := (i + j) / 2
    if f h then searchLoop f i h else searchLoop f (h + 1) j
  else i
termination_by j - i

/-- `sort.Search(n, f)`. -/
def search (n : ℕ) (f : ℕ → Bool) : ℕ := searchLoop f 0 n

/-- The predicate is false below an index and true from it up to `n`. -/
structure FirstIndex (n : ℕ) (f : ℕ → Bool) (i : ℕ) : Prop where
  le : i ≤ n
  below : ∀ m < i, f m = false
  above : ∀ m, i ≤ m → m < n → f m = true

/-- **The loop.** -/
theorem searchLoop_spec {n : ℕ} {f : ℕ → Bool} (hmono : ∀ i j, i ≤ j → j < n → f i = true → f j = true)
    {i j : ℕ} (hij : i ≤ j) (hjn : j ≤ n) (hbelow : ∀ m < i, f m = false)
    (habove : ∀ m, j ≤ m → m < n → f m = true) : FirstIndex n f (searchLoop f i j) := by
  induction i, j using searchLoop.induct (f := f) with
  | case1 i j hlt h hf ih =>
      rw [searchLoop, if_pos hlt, if_pos hf]
      apply ih
      · show i ≤ (i + j) / 2
        omega
      · show (i + j) / 2 ≤ n
        omega
      · exact hbelow
      · intro m hm hmn
        exact hmono h m hm hmn hf
  | case2 i j hlt h hf ih =>
      rw [searchLoop, if_pos hlt, if_neg hf]
      have hh : h < j := by
        show (i + j) / 2 < j
        omega
      apply ih
      · exact hh
      · exact hjn
      · intro m hm
        -- A true value at `m` would make the value at `h` true.
        rw [← Bool.not_eq_true]
        intro hfm
        exact hf (hmono m h (Nat.lt_succ_iff.mp hm) (by omega) hfm)
      · exact habove
  | case3 i j hlt =>
      rw [searchLoop, if_neg hlt]
      obtain rfl : i = j := by omega
      exact ⟨hjn, hbelow, habove⟩

/-- **The search finds the first index at which a monotone predicate holds.** -/
theorem search_spec {n : ℕ} {f : ℕ → Bool} (hmono : ∀ i j, i ≤ j → j < n → f i = true → f j = true) :
    FirstIndex n f (search n f) := by
  apply searchLoop_spec hmono (Nat.zero_le n) (Nat.le_refl n)
  · intro m hm
    exact absurd hm (Nat.not_lt_zero m)
  · intro m hm hmn
    omega

/-- On a list whose elements satisfy the predicate from some point on, the search is `findIdx`. -/
theorem search_eq_findIdx {α : Type} {l : List α} {p : α → Bool}
    (hmono : l.Pairwise fun x y => p x = true → p y = true) :
    search l.length (fun i => (l[i]?).any p) = l.findIdx p := by
  have hspec : FirstIndex l.length (fun i => (l[i]?).any p) (search l.length fun i => (l[i]?).any p) := by
    apply search_spec
    intro i j hij hj hi
    rcases Nat.lt_or_eq_of_le hij with hlt | rfl
    · have hil : i < l.length := by omega
      rw [List.getElem?_eq_getElem hil, Option.any_some] at hi
      rw [List.getElem?_eq_getElem hj, Option.any_some]
      exact List.pairwise_iff_getElem.mp hmono i j hil hj hlt hi
    · exact hi
  generalize search l.length (fun i => (l[i]?).any p) = k at hspec
  symm
  rcases Nat.lt_or_eq_of_le hspec.le with hk | rfl
  · rw [List.findIdx_eq hk]
    constructor
    · have := hspec.above k (Nat.le_refl k) hk
      rwa [List.getElem?_eq_getElem hk, Option.any_some] at this
    · intro m hm
      have := hspec.below m hm
      rwa [List.getElem?_eq_getElem (by omega), Option.any_some] at this
  · rw [List.findIdx_eq_length]
    intro x hx
    obtain ⟨m, hm, rfl⟩ := List.mem_iff_getElem.mp hx
    have := hspec.below m hm
    rwa [List.getElem?_eq_getElem hm, Option.any_some] at this

end Smartdoge.Lib.Search
