import Mathlib.Data.Finmap
import Mathlib.Data.List.Sort
import Mathlib.Tactic.Common

/-!
# Go maps

A `map[K]V` of Go as a finite map: read with the comma-ok form (`get`), written (`set`), deleted
from (`delete`) and enumerated. The order of `range` over a Go map is not defined, so the only
enumeration offered is the sorted one (`sortedKeys`), which is how deterministic Go code walks a
map. Two maps with the same reads are equal (`GoMap.ext`).

The carrier is Mathlib's `Finmap`; this file fixes the reading of it and the `if`-form read
equations (`get_set`, `get_delete`) the development rewrites with.
-/

namespace Smartdoge.Lib

/-- A Go `map[K]V`. -/
def GoMap (K V : Type) : Type := Finmap fun _ : K => V

namespace GoMap

variable {K V : Type}

/-- `make(map[K]V)`. -/
def empty : GoMap K V := (∅ : Finmap fun _ : K => V)

instance : Inhabited (GoMap K V) := ⟨empty⟩

/-- The keys present in the map. -/
def keys (m : GoMap K V) : Finset K := Finmap.keys m

variable [DecidableEq K]

instance [DecidableEq V] : DecidableEq (GoMap K V) :=
  inferInstanceAs (DecidableEq (Finmap fun _ : K => V))

/-- `v, ok := m[k]`. -/
def get (m : GoMap K V) (k : K) : Option V := Finmap.lookup k m

/-- `m[k] = v`. -/
def set (m : GoMap K V) (k : K) (v : V) : GoMap K V := Finmap.insert k v m

/-- `delete(m, k)`. -/
def delete (m : GoMap K V) (k : K) : GoMap K V := Finmap.erase k m

/-! ## Reads -/

/-- The empty map has no entry. -/
@[simp] theorem get_empty (k : K) : (empty : GoMap K V).get k = none := Finmap.lookup_empty k

/-- The value that was set is read back. -/
@[simp] theorem get_set_self (m : GoMap K V) (k : K) (v : V) : (m.set k v).get k = some v :=
  Finmap.lookup_insert _

/-- The other entries are as before. -/
theorem get_set_of_ne (m : GoMap K V) {k j : K} (h : j ≠ k) (v : V) :
    (m.set k v).get j = m.get j :=
  Finmap.lookup_insert_of_ne _ h

/-- A read after a write. -/
theorem get_set (m : GoMap K V) (k j : K) (v : V) :
    (m.set k v).get j = if j = k then some v else m.get j := by
  split_ifs with h
  · subst h
    exact get_set_self m j v
  · exact get_set_of_ne m h v

/-- A deleted entry is gone. -/
@[simp] theorem get_delete_self (m : GoMap K V) (k : K) : (m.delete k).get k = none :=
  Finmap.lookup_erase _ _

/-- The other entries are as before. -/
theorem get_delete_of_ne (m : GoMap K V) {k j : K} (h : j ≠ k) : (m.delete k).get j = m.get j :=
  Finmap.lookup_erase_ne h

/-- A read after a deletion. -/
theorem get_delete (m : GoMap K V) (k j : K) :
    (m.delete k).get j = if j = k then none else m.get j := by
  split_ifs with h
  · subst h
    exact get_delete_self m j
  · exact get_delete_of_ne m h

/-- What is there after a deletion was there before. -/
theorem get_of_get_delete {m : GoMap K V} {k j : K} {v : V} (h : (m.delete k).get j = some v) :
    m.get j = some v := by
  rw [get_delete] at h
  split_ifs at h
  exact h

/-- Maps with the same reads are equal. -/
@[ext] theorem ext {m m' : GoMap K V} (h : ∀ k, m.get k = m'.get k) : m = m' :=
  Finmap.ext_lookup h

/-- Writing what is there. -/
theorem set_of_get {m : GoMap K V} {k : K} {v : V} (h : m.get k = some v) : m.set k v = m := by
  ext1 j
  rw [get_set]
  split_ifs with hj
  · rw [hj, h]
  · rfl

/-- Deleting what is not there. -/
theorem delete_of_get {m : GoMap K V} {k : K} (h : m.get k = none) : m.delete k = m := by
  ext1 j
  rw [get_delete]
  split_ifs with hj
  · rw [hj, h]
  · rfl

/-! ## Enumeration -/

/-- The keys are those with an entry. -/
theorem mem_keys {m : GoMap K V} {k : K} : k ∈ m.keys ↔ (m.get k).isSome :=
  Finmap.mem_keys.trans Finmap.lookup_isSome.symm

/-- A key with an entry is one of them. -/
theorem mem_keys_of_get {m : GoMap K V} {k : K} {v : V} (h : m.get k = some v) : k ∈ m.keys := by
  rw [mem_keys, h]
  rfl

/-- A key that is set is added to the keys. -/
theorem keys_set (m : GoMap K V) (k : K) (v : V) : (m.set k v).keys = insert k m.keys := by
  ext j
  rw [mem_keys, get_set, Finset.mem_insert, mem_keys]
  by_cases h : j = k <;> simp [h]

/-- The entries after several deletions. -/
theorem get_foldl_delete (ks : List K) (m : GoMap K V) (j : K) :
    (ks.foldl delete m).get j = if j ∈ ks then none else m.get j := by
  induction ks generalizing m with
  | nil => simp
  | cons k ks ih =>
      rw [List.foldl_cons, ih, get_delete]
      by_cases hk : j = k
      · simp [hk]
      · simp [hk]

section sorted

variable (r : K → K → Prop) [DecidableRel r] [Std.Total r] [Std.Antisymm r] [IsTrans K r]

omit [DecidableEq K] in
/-- The keys in increasing order. The carrier's order is forgotten before sorting, so the result
depends on the set of keys only. -/
def sortedKeys (m : GoMap K V) : List K :=
  Quot.liftOn m.keys.val (List.insertionSort r) fun _ _ h =>
    ((List.perm_insertionSort r _).trans (h.trans (List.perm_insertionSort r _).symm)).eq_of_pairwise'
      (List.pairwise_insertionSort r _) (List.pairwise_insertionSort r _)

omit [DecidableEq K] in
/-- Sorting the keys permutes them. -/
theorem coe_sortedKeys (m : GoMap K V) : (↑(m.sortedKeys r) : Multiset K) = m.keys.val := by
  unfold sortedKeys
  induction m.keys.val using Quot.inductionOn with
  | h l => exact Quot.sound (List.perm_insertionSort r l)

/-- The sorted keys are those with an entry. -/
theorem mem_sortedKeys {m : GoMap K V} {k : K} : k ∈ m.sortedKeys r ↔ (m.get k).isSome := by
  rw [← mem_keys, Finset.mem_def, ← coe_sortedKeys r m, Multiset.mem_coe]

omit [DecidableEq K] in
/-- Every key is listed once. -/
theorem nodup_sortedKeys (m : GoMap K V) : (m.sortedKeys r).Nodup := by
  rw [← Multiset.coe_nodup, coe_sortedKeys]
  exact m.keys.nodup

omit [DecidableEq K] in
/-- The sorted keys are in order. -/
theorem pairwise_sortedKeys (m : GoMap K V) : (m.sortedKeys r).Pairwise r := by
  unfold sortedKeys
  induction m.keys.val using Quot.inductionOn with
  | h l => exact List.pairwise_insertionSort r l

/-- Maps with the same keys of one kind enumerate them alike. -/
theorem filter_sortedKeys_congr {m m' : GoMap K V} {p : K → Bool}
    (h : ∀ k, p k = true → ((m.get k).isSome ↔ (m'.get k).isSome)) :
    (m.sortedKeys r).filter p = (m'.sortedKeys r).filter p := by
  have hperm : ((m.sortedKeys r).filter p).Perm ((m'.sortedKeys r).filter p) := by
    rw [List.perm_ext_iff_of_nodup ((nodup_sortedKeys r m).filter p) ((nodup_sortedKeys r m').filter p)]
    intro k
    rw [List.mem_filter, List.mem_filter, mem_sortedKeys, mem_sortedKeys]
    exact and_congr_left (h k)
  exact hperm.eq_of_pairwise' ((pairwise_sortedKeys r m).filter p) ((pairwise_sortedKeys r m').filter p)

end sorted

end GoMap

end Smartdoge.Lib
