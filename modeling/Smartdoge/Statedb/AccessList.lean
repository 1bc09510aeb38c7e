import Smartdoge.Lib.GoMap
import Smartdoge.Types.Bytes
import Smartdoge.Types.Panic

/-!
# The access list

`statedb/access_list.go`: addresses map to an index into a slice of slot sets, or to `-1` when no
slot of the address is listed. Slots are undone by truncating the slice, so an undo is correct
only in the reverse order of the additions.

* `AccessList.Wf`: every index in use points into the slice, at a slot set that is not empty.
  Additions keep it (`addAddress_wf`, `addSlot_wf`).
* **Exact undo** (`deleteAddress_addAddress`, `deleteSlot_openSlots`, `deleteSlot_setSlots`): under `Wf`, deleting what was
  added last gives the same access list back, as a structure and not only as a set.
* `openSlots_addAddress`: adding a slot of an absent address is adding the address first and the
  slot after it, which is why that case leaves two journal entries.
-/

namespace Smartdoge.Statedb

open Smartdoge.Lib

/-- Source: `access_list.go` `accessList` -/
structure AccessList where
  /-- The index of each listed address into `slots`, `-1` when it has no slot. -/
  addresses : GoMap Address ℤ
  /-- The slot sets (`map[common.Hash]struct{}`). -/
  slots : List (Finset Hash)
deriving DecidableEq

namespace AccessList

/-- Source: `access_list.go` `newAccessList` -/
def new : AccessList := ⟨GoMap.empty, []⟩

/-- Source: `access_list.go` `ContainsAddress` -/
def containsAddress (al : AccessList) (address : Address) : Bool :=
  (al.addresses.get address).isSome

/-- Presence of the address and of the slot.
Source: `access_list.go` `Contains` -/
def contains (al : AccessList) (address : Address) (slot : Hash) : Except Panic (Bool × Bool) :=
  match al.addresses.get address with
  | none => .ok (false, false)
  | some idx =>
    if idx = -1 then .ok (true, false)
    else do
      let slotmap ← goIndex al.slots idx
      .ok (true, decide (slot ∈ slotmap))

/-- Add an address; `true` when it was not listed before.
Source: `access_list.go` `AddAddress` -/
def addAddress (al : AccessList) (address : Address) : Bool × AccessList :=
  match al.addresses.get address with
  | some _ => (false, al)
  | none => (true, { al with addresses := al.addresses.set address (-1) })

/-- Open a slot set for an address that has none, with its first slot in it.
Source: `access_list.go` `AddSlot`, the branch `!addrPresent || idx == -1` -/
def openSlots (al : AccessList) (address : Address) (slot : Hash) : AccessList :=
  { addresses := al.addresses.set address al.slots.length, slots := al.slots ++ [{slot}] }

/-- Add an (address, slot) pair; the flags say whether the address and the slot are new.
Source: `access_list.go` `AddSlot` -/
def addSlot (al : AccessList) (address : Address) (slot : Hash) :
    Except Panic ((Bool × Bool) × AccessList) :=
  match al.addresses.get address with
  | none => .ok ((true, true), al.openSlots address slot)
  | some idx =>
    if idx = -1 then .ok ((false, true), al.openSlots address slot)
    else do
      let slotmap ← goIndex al.slots idx
      if slot ∈ slotmap then .ok ((false, false), al)
      else .ok ((false, true), { al with slots := al.slots.set idx.toNat (insert slot slotmap) })

/-- Remove an (address, slot) pair; called by the journal only, in reverse order of addition.
Source: `access_list.go` `DeleteSlot` -/
def deleteSlot (al : AccessList) (address : Address) (slot : Hash) : Except Panic AccessList :=
  match al.addresses.get address with
  | none => .error .slotAddressNotPresent
  | some idx => do
    let slotmap ← goIndex al.slots idx
    let slotmap := slotmap.erase slot
    -- If that was the last (first) slot, remove it.
    if slotmap = ∅ then
      .ok { addresses := al.addresses.set address (-1), slots := al.slots.take idx.toNat }
    else .ok { al with slots := al.slots.set idx.toNat slotmap }

/-- Source: `access_list.go` `DeleteAddress` -/
def deleteAddress (al : AccessList) (address : Address) : AccessList :=
  { al with addresses := al.addresses.delete address }

/-! ## Well-formedness -/

/-- Every listed address has index `-1`, or the index of a slot set that is not empty. -/
def Wf (al : AccessList) : Prop :=
  ∀ a idx, al.addresses.get a = some idx →
    idx = -1 ∨ ∃ (i : ℕ) (slotmap : Finset Hash),
      idx = i ∧ al.slots[i]? = some slotmap ∧ slotmap ≠ ∅

/-- The empty access list is well-formed. -/
theorem new_wf : new.Wf := by
  intro a idx h
  simp [new] at h

/-- Adding an address keeps it well-formed. -/
theorem addAddress_wf {al : AccessList} (h : al.Wf) (a : Address) : (al.addAddress a).2.Wf := by
  intro b idx hb
  unfold addAddress at hb ⊢
  cases ha : al.addresses.get a with
  | some i =>
      rw [ha] at hb
      exact h b idx hb
  | none =>
      simp only [ha, GoMap.get_set] at hb ⊢
      split_ifs at hb with hba
      · left
        exact (Option.some.inj hb).symm
      · exact h b idx hb

/-- So does the first slot of an address. -/
theorem openSlots_wf {al : AccessList} (h : al.Wf) (a : Address) (slot : Hash) :
    (al.openSlots a slot).Wf := by
  intro b idx hb
  simp only [openSlots, GoMap.get_set] at hb ⊢
  split_ifs at hb with hba
  · right
    refine ⟨al.slots.length, {slot}, (Option.some.inj hb).symm, by simp, by simp⟩
  · rcases h b idx hb with hneg | ⟨i, sm, hi, hsm, hne⟩
    · exact Or.inl hneg
    · refine Or.inr ⟨i, sm, hi, ?_, hne⟩
      obtain ⟨hlt, -⟩ := List.getElem?_eq_some_iff.mp hsm
      rw [List.getElem?_append_left hlt]
      exact hsm

/-- **What `addSlot` can do** to a well-formed list: open a slot set for an address that is absent
or has none, add to the slot set of the address, or nothing. -/
theorem addSlot_cases {al : AccessList} (h : al.Wf) (a : Address) (slot : Hash) :
    (al.addresses.get a = none ∧ al.addSlot a slot = .ok ((true, true), al.openSlots a slot)) ∨
    (al.addresses.get a = some (-1) ∧
      al.addSlot a slot = .ok ((false, true), al.openSlots a slot)) ∨
    (∃ (i : ℕ) (sm : Finset Hash), al.addresses.get a = some (i : ℤ) ∧ al.slots[i]? = some sm ∧
      sm ≠ ∅ ∧ slot ∉ sm ∧
      al.addSlot a slot = .ok ((false, true), { al with slots := al.slots.set i (insert slot sm) })) ∨
    al.addSlot a slot = .ok ((false, false), al) := by
  cases ha : al.addresses.get a with
  | none =>
      left
      exact ⟨rfl, by simp [addSlot, ha]⟩
  | some idx =>
      right
      rcases h a idx ha with hneg | ⟨i, sm, hi, hsm, hne⟩
      · left
        subst hneg
        exact ⟨rfl, by simp [addSlot, ha]⟩
      · right
        subst hi
        have hidx : ((i : ℤ) = -1) = False := by simp
        have hget : goIndex al.slots (i : ℤ) = .ok sm := goIndex_ok_iff.mpr hsm
        by_cases hslot : slot ∈ sm
        · right
          simp [addSlot, ha, hget, hslot, bind, Except.bind]
        · left
          refine ⟨i, sm, rfl, hsm, hne, hslot, ?_⟩
          simp [addSlot, ha, hget, hslot, bind, Except.bind]

/-- So does replacing a set of slots by one that is not empty. -/
theorem setSlots_wf {al : AccessList} (h : al.Wf) {i : ℕ} {sm : Finset Hash} (hne : sm ≠ ∅) :
    ({ al with slots := al.slots.set i sm } : AccessList).Wf := by
  intro b idx hb
  rcases h b idx hb with hneg | ⟨j, sm', hj, hsm', hne'⟩
  · exact Or.inl hneg
  · obtain ⟨hlt, -⟩ := List.getElem?_eq_some_iff.mp hsm'
    by_cases hji : j = i
    · subst hji
      exact Or.inr ⟨j, sm, hj, by simp [hlt], hne⟩
    · refine Or.inr ⟨j, sm', hj, ?_, hne'⟩
      rw [List.getElem?_set_ne (Ne.symm hji)]
      exact hsm'

/-! ## Exact undo -/

/-- Deleting an address that was just added. -/
theorem deleteAddress_addAddress {al : AccessList} {a : Address} (h : al.addresses.get a = none) :
    (al.addAddress a).2.deleteAddress a = al := by
  have hdel : (al.addresses.set a (-1)).delete a = al.addresses := by
    ext1 b
    rw [GoMap.get_delete, GoMap.get_set]
    split_ifs with hb
    · rw [hb, h]
    · rfl
  simp [addAddress, h, deleteAddress, hdel]

/-- Deleting the slot for which a slot set was just opened. -/
theorem deleteSlot_openSlots {al : AccessList} {a : Address} (h : al.addresses.get a = some (-1))
    (slot : Hash) : (al.openSlots a slot).deleteSlot a slot = .ok al := by
  have hset : (al.addresses.set a al.slots.length).set a (-1) = al.addresses := by
    ext1 b
    rw [GoMap.get_set, GoMap.get_set]
    split_ifs with hb
    · rw [hb, h]
    · rfl
  have hget : goIndex (al.slots ++ [{slot}]) (al.slots.length : ℤ) = .ok {slot} :=
    goIndex_ok_iff.mpr (by simp)
  simp [deleteSlot, openSlots, hget, hset, bind, Except.bind]

/-- Deleting a slot that was just added to the slot set of its address. -/
theorem deleteSlot_setSlots {al : AccessList} {a : Address} {i : ℕ} {sm : Finset Hash}
    {slot : Hash} (ha : al.addresses.get a = some (i : ℤ)) (hsm : al.slots[i]? = some sm)
    (hne : sm ≠ ∅) (hslot : slot ∉ sm) :
    ({ al with slots := al.slots.set i (insert slot sm) } : AccessList).deleteSlot a slot =
      .ok al := by
  obtain ⟨hlt, hi⟩ := List.getElem?_eq_some_iff.mp hsm
  have hget : goIndex (al.slots.set i (insert slot sm)) (i : ℤ) = .ok (insert slot sm) :=
    goIndex_ok_iff.mpr (by simp [hlt])
  have hback : (al.slots.set i (insert slot sm)).set i sm = al.slots := by
    rw [List.set_set, ← hi, List.set_getElem_self]
  simp [deleteSlot, ha, hget, hslot, hne, hback, bind, Except.bind]

/-- Adding a slot of an absent address is adding the address first. -/
theorem openSlots_addAddress {al : AccessList} {a : Address} (h : al.addresses.get a = none)
    (slot : Hash) : (al.addAddress a).2.openSlots a slot = al.openSlots a slot := by
  have hset : (al.addresses.set a (-1)).set a (al.slots.length : ℤ) =
      al.addresses.set a al.slots.length := by
    ext1 b
    rw [GoMap.get_set, GoMap.get_set, GoMap.get_set]
    split_ifs <;> rfl
  simp [addAddress, h, openSlots, hset]

end AccessList

end Smartdoge.Statedb
