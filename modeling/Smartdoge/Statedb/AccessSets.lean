import Smartdoge.Lib.UndoLog
import Smartdoge.Statedb.Quiet

/-!
# The access list as a set

`statedb/access_list.go` keeps the slots in a slice that a map indexes, and deletes by truncating the slice. What it
stands for is a set of addresses and a set of (address, slot) pairs. A session adds to the list and undoes what was
reported as a change, last first, in any interleaving.

* `Represents.addAddress`, `Represents.addSlot`: an addition to the list is an insertion, and reports growth.
* `undoes_address`, `undoes_openSlots`, `undoes_setSlots`: what was added can be undone, and only that is deleted.
* **`accessList_refines_sets`**: over every session, no call panics, the list is the sets, the reports are growth, no
  two addresses share an index, and a truncation cuts off one slot set only. `PrepareAccessList` fills an empty list
  with the sender, the destination, the precompiles and the tuples.
-/

set_option linter.unusedSectionVars false

namespace Smartdoge.Statedb

open Smartdoge.Lib Smartdoge.Lib.UndoLog

/-! ## Sessions -/

/-- A change that an addition reported.
Source: `statedb/journal.go` `accessListAddAccountChange`, `accessListAddSlotChange` -/
inductive AccessChange where
  | address (a : Address)
  | slot (a : Address) (key : Hash)

/-- Source: `statedb/journal.go` `accessListAddAccountChange.revert`, `accessListAddSlotChange.revert` -/
def AccessChange.revert (al : AccessList) : AccessChange → Except Panic AccessList
  | .address a => .ok (al.deleteAddress a)
  | .slot a key => al.deleteSlot a key

/-- The changes that an addition reports, in the order in which they are journalled. -/
def reported (a : Address) (key : Hash) (report : Bool × Bool) : List AccessChange :=
  (if report.1 then [.address a] else []) ++ if report.2 then [.slot a key] else []

/-- A call of a session: an addition, or an undo of the newest change. -/
inductive AccessCall where
  | addAddress (a : Address)
  | addSlot (a : Address) (key : Hash)
  | undo

/-- An access list and the changes that were reported and not undone, oldest first. -/
structure AccessSession where
  list : AccessList
  log : List AccessChange

namespace AccessSession

def new : AccessSession := ⟨.new, []⟩

/-- The flags of the call (address added, slot added) and the session after it. -/
def call (s : AccessSession) : AccessCall → Except Panic ((Bool × Bool) × AccessSession)
  | .addAddress a =>
    .ok (((s.list.addAddress a).1, false),
      ⟨(s.list.addAddress a).2, s.log ++ if (s.list.addAddress a).1 then [.address a] else []⟩)
  | .addSlot a key => do
    let (report, al) ← s.list.addSlot a key
    .ok (report, ⟨al, s.log ++ reported a key report⟩)
  | .undo =>
    match s.log.getLast? with
    | none => .ok ((false, false), s)
    | some change => do
      let al ← change.revert s.list
      .ok ((false, false), ⟨al, s.log.dropLast⟩)

def run (s : AccessSession) : List AccessCall → Except Panic (List (Bool × Bool) × AccessSession)
  | [] => .ok ([], s)
  | c :: calls => do
    let (report, s) ← s.call c
    let (reports, s) ← s.run calls
    .ok (report :: reports, s)

end AccessSession

/-! ## Sets -/

/-- What an access list is for. -/
@[ext] structure AccessSets where
  addresses : Finset Address
  slots : Finset (Address × Hash)
deriving DecidableEq

namespace AccessSets

def empty : AccessSets := ⟨∅, ∅⟩

def addAddress (S : AccessSets) (a : Address) : AccessSets := ⟨insert a S.addresses, S.slots⟩

def addSlot (S : AccessSets) (a : Address) (key : Hash) : AccessSets :=
  ⟨insert a S.addresses, insert (a, key) S.slots⟩

def erase (S : AccessSets) : AccessChange → AccessSets
  | .address a => { S with addresses := S.addresses.erase a }
  | .slot a key => { S with slots := S.slots.erase (a, key) }

/-- Which of the two sets grew. -/
def grown (S S' : AccessSets) : Bool × Bool := (decide (S.addresses ⊂ S'.addresses), decide (S.slots ⊂ S'.slots))

end AccessSets

/-- The sets, and the insertions that made them grow and were not undone, oldest first. -/
structure SetSession where
  sets : AccessSets
  log : List AccessChange

namespace SetSession

def new : SetSession := ⟨.empty, []⟩

def call (t : SetSession) : AccessCall → (Bool × Bool) × SetSession
  | .addAddress a =>
    (t.sets.grown (t.sets.addAddress a),
      ⟨t.sets.addAddress a, t.log ++ if (t.sets.grown (t.sets.addAddress a)).1 then [.address a] else []⟩)
  | .addSlot a key =>
    (t.sets.grown (t.sets.addSlot a key),
      ⟨t.sets.addSlot a key, t.log ++ reported a key (t.sets.grown (t.sets.addSlot a key))⟩)
  | .undo =>
    match t.log.getLast? with
    | none => ((false, false), t)
    | some change => ((false, false), ⟨t.sets.erase change, t.log.dropLast⟩)

def run (t : SetSession) : List AccessCall → List (Bool × Bool) × SetSession
  | [] => ([], t)
  | c :: calls => ((t.call c).1 :: ((t.call c).2.run calls).1, ((t.call c).2.run calls).2)

end SetSession

/-! ## What is claimed of a list -/

namespace AccessList

/-- **The list answers as the sets do.** -/
structure Agrees (al : AccessList) (S : AccessSets) : Prop where
  containsAddress : ∀ a, al.containsAddress a = decide (a ∈ S.addresses)
  contains : ∀ a key, al.contains a key = .ok (decide (a ∈ S.addresses), decide ((a, key) ∈ S.slots))

/-- No two addresses share an index. -/
def Distinct (al : AccessList) : Prop :=
  ∀ a b (i : ℕ), al.addresses.get a = some (i : ℤ) → al.addresses.get b = some (i : ℤ) → a = b

/-- A deletion of a slot finds an index within the slice, truncates the slice only where nothing follows, and leaves
the slots of every other address as they were. -/
def DeletesOnly (al : AccessList) (a : Address) (key : Hash) : Prop :=
  ∃ (i : ℕ) (sm : Finset Hash) (al' : AccessList), al.addresses.get a = some (i : ℤ) ∧ al.slots[i]? = some sm ∧
    key ∈ sm ∧ (sm.erase key = ∅ → i + 1 = al.slots.length) ∧ al.deleteSlot a key = .ok al' ∧
      ∀ b, b ≠ a → ∀ key', al'.contains b key' = al.contains b key'

end AccessList

/-- The newest change can be undone. -/
def AccessSession.UndoSafe (s : AccessSession) : Prop :=
  ∀ a key, s.log.getLast? = some (.slot a key) → s.list.DeletesOnly a key

/-! ## The slots of an address -/

namespace AccessList

/-- The slot set of an address. -/
def slotSet (al : AccessList) (a : Address) : Finset Hash :=
  match al.addresses.get a with
  | none => ∅
  | some idx => if idx = -1 then ∅ else al.slots[idx.toNat]?.getD ∅

/-- An address that is not listed has no slots. -/
theorem slotSet_none {al : AccessList} {a : Address} (h : al.addresses.get a = none) : al.slotSet a = ∅ := by
  simp [slotSet, h]

/-- An address with the index -1 has no slots. -/
theorem slotSet_neg {al : AccessList} {a : Address} (h : al.addresses.get a = some (-1)) : al.slotSet a = ∅ := by
  simp [slotSet, h]

/-- Any other index is that of the set of slots. -/
theorem slotSet_index {al : AccessList} {a : Address} {i : ℕ} {sm : Finset Hash}
    (h : al.addresses.get a = some (i : ℤ)) (hsm : al.slots[i]? = some sm) : al.slotSet a = sm := by
  simp [slotSet, h, hsm]

/-- **`Contains`** reads the address and its set of slots. -/
theorem contains_eq {al : AccessList} (h : al.Wf) (a : Address) (key : Hash) :
    al.contains a key = .ok ((al.addresses.get a).isSome, decide (key ∈ al.slotSet a)) := by
  unfold contains
  cases ha : al.addresses.get a with
  | none => simp [slotSet_none ha]
  | some idx =>
      rcases h a idx ha with rfl | ⟨i, sm, rfl, hsm, -⟩
      · simp [slotSet_neg ha]
      · have hget : goIndex al.slots (i : ℤ) = .ok sm := goIndex_ok_iff.mpr hsm
        simp [slotSet_index ha hsm, hget, bind, Except.bind]

/-- The slot set of an address is found by the index, wherever the address and the slice are as before. -/
theorem slotSet_congr {al al' : AccessList} (h : al.Wf) {a : Address}
    (ha : al'.addresses.get a = al.addresses.get a)
    (hslots : ∀ i : ℕ, al.addresses.get a = some (i : ℤ) → al'.slots[i]? = al.slots[i]?) :
    al'.slotSet a = al.slotSet a := by
  cases hget : al.addresses.get a with
  | none => rw [slotSet_none hget, slotSet_none (ha.trans hget)]
  | some idx =>
      rcases h a idx hget with rfl | ⟨i, sm, rfl, hsm, -⟩
      · rw [slotSet_neg hget, slotSet_neg (ha.trans hget)]
      · rw [slotSet_index hget hsm, slotSet_index (ha.trans hget) ((hslots i hget).trans hsm)]

/-- The index of an address is in range. -/
theorem lt_length {al : AccessList} (h : al.Wf) {a : Address} {i : ℕ} (ha : al.addresses.get a = some (i : ℤ)) :
    i < al.slots.length := by
  rcases h a i ha with hneg | ⟨j, sm, hj, hsm, -⟩
  · omega
  · obtain rfl : i = j := by exact_mod_cast hj
    exact (List.getElem?_eq_some_iff.mp hsm).1

/-- A new address changes no slots. -/
theorem slotSet_addAddress {al : AccessList} (h : al.Wf) {a : Address} (ha : al.addresses.get a = none)
    (b : Address) : (al.addAddress a).2.slotSet b = al.slotSet b := by
  by_cases hb : b = a
  · subst hb
    rw [slotSet_none ha, slotSet_neg (by simp [addAddress, ha])]
  · refine slotSet_congr h ?_ fun i _ => ?_
    · simp [addAddress, ha, GoMap.get_set_of_ne _ hb]
    · simp [addAddress, ha]

/-- The first slot of an address changes the slots of no other. -/
theorem slotSet_openSlots {al : AccessList} (h : al.Wf) (a b : Address) (key : Hash) :
    (al.openSlots a key).slotSet b = if b = a then {key} else al.slotSet b := by
  by_cases hb : b = a
  · subst hb
    rw [if_pos rfl]
    exact slotSet_index (GoMap.get_set_self _ _ _) (by simp [openSlots])
  · rw [if_neg hb]
    refine slotSet_congr h (GoMap.get_set_of_ne _ hb _) fun i hi => ?_
    exact List.getElem?_append_left (lt_length h hi)

/-- Neither does replacing its set of slots, as no two addresses share one. -/
theorem slotSet_setSlots {al : AccessList} (h : al.Wf) (hdistinct : al.Distinct) {a : Address} {i : ℕ}
    (ha : al.addresses.get a = some (i : ℤ)) (sm : Finset Hash) (b : Address) :
    ({ al with slots := al.slots.set i sm } : AccessList).slotSet b = if b = a then sm else al.slotSet b := by
  by_cases hb : b = a
  · subst hb
    rw [if_pos rfl]
    exact slotSet_index ha (by simp [lt_length h ha])
  · rw [if_neg hb]
    refine slotSet_congr h rfl fun j hj => List.getElem?_set_ne ?_
    -- Another address has another index.
    rintro rfl
    exact hb (hdistinct b a i hj ha)

/-! ## Distinct indexes -/

/-- No two addresses of the empty list share a set. -/
theorem new_distinct : new.Distinct := by
  intro a b i ha
  simp [new] at ha

/-- A new address shares none. -/
theorem addAddress_distinct {al : AccessList} (h : al.Distinct) (a : Address) : (al.addAddress a).2.Distinct := by
  cases ha : al.addresses.get a with
  | some idx => simpa [addAddress, ha] using h
  | none =>
      intro b c i hb hc
      simp only [addAddress, ha, GoMap.get_set] at hb hc
      split_ifs at hb hc with hba hca hca
      · exact hba.trans hca.symm
      · exact absurd (Option.some.inj hb) (by omega)
      · exact absurd (Option.some.inj hc) (by omega)
      · exact h b c i hb hc

/-- An address whose first slot is added shares none either. -/
theorem openSlots_distinct {al : AccessList} (hwf : al.Wf) (h : al.Distinct) (a : Address) (key : Hash) :
    (al.openSlots a key).Distinct := by
  intro b c i hb hc
  simp only [openSlots, GoMap.get_set] at hb hc
  -- The new index is the length of the slice, which no other address has.
  split_ifs at hb hc with hba hca hca
  · exact hba.trans hca.symm
  · have hlen : (al.slots.length : ℤ) = i := Option.some.inj hb
    exact absurd (lt_length hwf hc) (by omega)
  · have hlen : (al.slots.length : ℤ) = i := Option.some.inj hc
    exact absurd (lt_length hwf hb) (by omega)
  · exact h b c i hb hc

end AccessList

/-! ## Additions -/

/-- The list is well formed and holds the sets. -/
structure Represents (al : AccessList) (S : AccessSets) : Prop where
  wf : al.Wf
  distinct : al.Distinct
  addresses : ∀ a, (al.addresses.get a).isSome = true ↔ a ∈ S.addresses
  slots : ∀ a key, key ∈ al.slotSet a ↔ (a, key) ∈ S.slots

namespace Represents

variable {al : AccessList} {S : AccessSets}

/-- A list that represents the sets answers as they do. -/
theorem agrees (h : Represents al S) : al.Agrees S where
  containsAddress a := by
    unfold AccessList.containsAddress
    exact Bool.eq_iff_iff.mpr (by simp [h.addresses])
  contains a key := by
    have haddress : (al.addresses.get a).isSome = decide (a ∈ S.addresses) :=
      Bool.eq_iff_iff.mpr (by simp [h.addresses])
    rw [AccessList.contains_eq h.wf, haddress]
    simp [h.slots]

/-- The empty list represents the empty sets. -/
theorem new : Represents .new .empty where
  wf := AccessList.new_wf
  distinct := AccessList.new_distinct
  addresses a := by simp [AccessList.new, AccessSets.empty]
  slots a key := by simp [AccessList.slotSet_none, AccessList.new, AccessSets.empty]

/-- An address that is not listed is not in the set. -/
theorem notMem (h : Represents al S) {a : Address} (ha : al.addresses.get a = none) : a ∉ S.addresses := by
  rw [← h.addresses, ha]
  simp

/-- An address that is listed is. -/
theorem mem (h : Represents al S) {a : Address} {idx : ℤ} (ha : al.addresses.get a = some idx) :
    a ∈ S.addresses := by
  rw [← h.addresses, ha]
  rfl

/-- An address that was absent. -/
theorem insertAddress (h : Represents al S) {a : Address} (ha : al.addresses.get a = none) :
    Represents (al.addAddress a).2 (S.addAddress a) where
  wf := AccessList.addAddress_wf h.wf a
  distinct := AccessList.addAddress_distinct h.distinct a
  addresses b := by
    by_cases hb : b = a
    · simp [AccessList.addAddress, ha, AccessSets.addAddress, hb]
    · simp [AccessList.addAddress, ha, AccessSets.addAddress, hb, GoMap.get_set_of_ne _ hb, h.addresses]
  slots b key := by
    rw [AccessList.slotSet_addAddress h.wf ha]
    exact h.slots b key

/-- The first slot of an address. -/
theorem openSlots (h : Represents al S) {a : Address} (ha : al.slotSet a = ∅) (key : Hash) :
    Represents (al.openSlots a key) (S.addSlot a key) where
  wf := AccessList.openSlots_wf h.wf a key
  distinct := AccessList.openSlots_distinct h.wf h.distinct a key
  addresses b := by
    by_cases hb : b = a
    · simp [AccessList.openSlots, AccessSets.addSlot, hb]
    · simp [AccessList.openSlots, AccessSets.addSlot, hb, GoMap.get_set_of_ne _ hb, h.addresses]
  slots b key' := by
    rw [AccessList.slotSet_openSlots h.wf]
    by_cases hb : b = a
    · subst hb
      simp [AccessSets.addSlot, ← h.slots, ha]
    · simp [AccessSets.addSlot, hb, h.slots]

/-- One more slot of an address that has some. -/
theorem setSlots (h : Represents al S) {a : Address} {i : ℕ} {sm : Finset Hash}
    (ha : al.addresses.get a = some (i : ℤ)) (hsm : al.slots[i]? = some sm) (key : Hash) :
    Represents { al with slots := al.slots.set i (insert key sm) } (S.addSlot a key) where
  wf := AccessList.setSlots_wf h.wf (Finset.insert_ne_empty key sm)
  distinct := h.distinct
  addresses b := by
    by_cases hb : b = a
    · simp [AccessSets.addSlot, hb, ha]
    · simp [AccessSets.addSlot, hb, h.addresses]
  slots b key' := by
    rw [AccessList.slotSet_setSlots h.wf h.distinct ha]
    by_cases hb : b = a
    · subst hb
      simp [AccessSets.addSlot, ← h.slots, AccessList.slotSet_index ha hsm]
    · simp [AccessSets.addSlot, hb, h.slots]

end Represents

/-! ## Growth -/

namespace AccessSets

variable {S : AccessSets} {a : Address} {key : Hash}

/-- A set grows by an element that it does not have. -/
theorem ssubset_insert_iff {α : Type} [DecidableEq α] {s : Finset α} {x : α} : s ⊂ insert x s ↔ x ∉ s := by
  constructor
  · intro h hx
    rw [Finset.insert_eq_of_mem hx] at h
    exact (ssubset_irrefl s) h
  · exact Finset.ssubset_insert

/-- What grows when an address is added. -/
theorem grown_addAddress : S.grown (S.addAddress a) = (decide (a ∉ S.addresses), false) := by
  simp [grown, addAddress, ssubset_insert_iff]

/-- What grows when a slot is added. -/
theorem grown_addSlot :
    S.grown (S.addSlot a key) = (decide (a ∉ S.addresses), decide ((a, key) ∉ S.slots)) := by
  simp [grown, addSlot, ssubset_insert_iff]

/-- Adding an address again changes nothing. -/
theorem addAddress_of_mem (h : a ∈ S.addresses) : S.addAddress a = S := by
  simp [addAddress, Finset.insert_eq_of_mem h]

/-- Adding a slot again changes nothing. -/
theorem addSlot_of_mem (h : a ∈ S.addresses) (hkey : (a, key) ∈ S.slots) : S.addSlot a key = S := by
  simp [addSlot, Finset.insert_eq_of_mem h, Finset.insert_eq_of_mem hkey]

/-- Adding a slot adds its address. -/
theorem addSlot_addAddress : (S.addAddress a).addSlot a key = S.addSlot a key := by
  simp [addAddress, addSlot]

/-- Erasing a new address undoes it. -/
theorem erase_address (h : a ∉ S.addresses) : (S.addAddress a).erase (.address a) = S := by
  simp [erase, addAddress, Finset.erase_insert h]

/-- Erasing a new slot undoes it, where the address was there before. -/
theorem erase_slot (h : a ∈ S.addresses) (hkey : (a, key) ∉ S.slots) :
    (S.addSlot a key).erase (.slot a key) = S := by
  simp [erase, addSlot, Finset.insert_eq_of_mem h, Finset.erase_insert hkey]

end AccessSets

/-! ## Undoing -/

/-- One undo, in the list and in the sets. -/
structure Undoes (change : AccessChange) (s t : AccessList × AccessSets) : Prop where
  list : change.revert s.1 = .ok t.1
  sets : s.2.erase change = t.2
  represents : Represents t.1 t.2
  safe : ∀ a key, change = .slot a key → s.1.DeletesOnly a key

section undoing

variable {al : AccessList} {S : AccessSets} {a : Address} {key : Hash}

/-- Deleting a new address undoes it, in the list and in the sets. -/
theorem undoes_address (h : Represents al S) (ha : al.addresses.get a = none) :
    Undoes (.address a) ((al.addAddress a).2, S.addAddress a) (al, S) where
  list := congrArg Except.ok (AccessList.deleteAddress_addAddress ha)
  sets := AccessSets.erase_address (h.notMem ha)
  represents := h
  safe := by
    intro b key hslot
    cases hslot

/-- A deletion that leads back to a list with the same slots of the other addresses. -/
theorem AccessList.contains_of_slotSet {al al' : AccessList} (h : al.Wf) (h' : al'.Wf) {b : Address}
    (haddress : al'.addresses.get b = al.addresses.get b) (hslots : al'.slotSet b = al.slotSet b) (key : Hash) :
    al.contains b key = al'.contains b key := by
  rw [AccessList.contains_eq h, AccessList.contains_eq h', haddress, hslots]

/-- Deleting the first slot of an address undoes it, in both. -/
theorem undoes_openSlots (h : Represents al S) (ha : al.addresses.get a = some (-1)) :
    Undoes (.slot a key) (al.openSlots a key, S.addSlot a key) (al, S) where
  list := AccessList.deleteSlot_openSlots ha key
  sets := AccessSets.erase_slot (h.mem ha) (by rw [← h.slots, AccessList.slotSet_neg ha]; simp)
  represents := h
  safe := by
    rintro _ _ ⟨⟩
    refine ⟨al.slots.length, {key}, al, GoMap.get_set_self _ _ _, by simp [AccessList.openSlots], by simp, ?_,
      AccessList.deleteSlot_openSlots ha key, ?_⟩
    · -- the set that is cut off is the last one
      intro _
      simp [AccessList.openSlots]
    · intro b hb key'
      refine AccessList.contains_of_slotSet h.wf (AccessList.openSlots_wf h.wf a key) ?_ ?_ key'
      · exact GoMap.get_set_of_ne _ hb _
      · rw [AccessList.slotSet_openSlots h.wf, if_neg hb]

/-- Deleting a further slot of an address undoes it, in both. -/
theorem undoes_setSlots (h : Represents al S) {i : ℕ} {sm : Finset Hash}
    (ha : al.addresses.get a = some (i : ℤ)) (hsm : al.slots[i]? = some sm) (hne : sm ≠ ∅) (hkey : key ∉ sm) :
    Undoes (.slot a key) ({ al with slots := al.slots.set i (insert key sm) }, S.addSlot a key) (al, S) where
  list := AccessList.deleteSlot_setSlots ha hsm hne hkey
  sets := AccessSets.erase_slot (h.mem ha) (by rw [← h.slots, AccessList.slotSet_index ha hsm]; exact hkey)
  represents := h
  safe := by
    rintro _ _ ⟨⟩
    have hlt := AccessList.lt_length h.wf ha
    refine ⟨i, insert key sm, al, ha, by simp [hlt], by simp, ?_, AccessList.deleteSlot_setSlots ha hsm hne hkey, ?_⟩
    · intro hempty
      rw [Finset.erase_insert hkey] at hempty
      exact absurd hempty hne
    · intro b hb key'
      refine AccessList.contains_of_slotSet h.wf
        (AccessList.setSlots_wf h.wf (Finset.insert_ne_empty key sm)) rfl ?_ key'
      rw [AccessList.slotSet_setSlots h.wf h.distinct ha, if_neg hb]

end undoing

/-! ## Sessions keep the sets -/

/-- **The invariant of a session.** Both logs are the same, and undoing it leads back to the empty list through lists
that hold the sets. -/
structure SessionTracks (s : AccessSession) (t : SetSession) : Prop where
  log : s.log = t.log
  represents : Represents s.list t.sets
  history : Rollback Undoes s.log (s.list, t.sets) (.new, .empty)

/-- What an addition does to the list and to the sets. -/
structure Adds (al : AccessList) (S : AccessSets) (al' : AccessList) (S' : AccessSets)
    (changes : List AccessChange) : Prop where
  represents : Represents al' S'
  history : Rollback Undoes changes (al', S') (al, S)

/-- Nothing is added, and nothing recorded. -/
theorem Adds.refl {al : AccessList} {S : AccessSets} (h : Represents al S) : Adds al S al S [] := ⟨h, rfl⟩

/-- **`AddAddress`** reports what grows, and what it records undoes it. -/
theorem Represents.addAddress {al : AccessList} {S : AccessSets} (h : Represents al S) (a : Address) :
    ((al.addAddress a).1, false) = S.grown (S.addAddress a) ∧
      Adds al S (al.addAddress a).2 (S.addAddress a) (if (al.addAddress a).1 then [.address a] else []) := by
  rw [AccessSets.grown_addAddress]
  cases ha : al.addresses.get a with
  | none =>
      have hnew : (al.addAddress a).1 = true := by simp [AccessList.addAddress, ha]
      rw [hnew]
      exact ⟨by simp [h.notMem ha], h.insertAddress ha, rollback_singleton.mpr (undoes_address h ha)⟩
  | some idx =>
      have hsame : al.addAddress a = (false, al) := by simp [AccessList.addAddress, ha]
      rw [hsame, AccessSets.addAddress_of_mem (h.mem ha)]
      exact ⟨by simp [h.mem ha], .refl h⟩

/-- An addition that reports nothing found the slot. -/
theorem Represents.mem_of_addSlot {al : AccessList} {S : AccessSets} (h : Represents al S) {a : Address} {key : Hash}
    (hadd : al.addSlot a key = .ok ((false, false), al)) : a ∈ S.addresses ∧ (a, key) ∈ S.slots := by
  cases ha : al.addresses.get a with
  | none => simp [AccessList.addSlot, ha] at hadd
  | some idx =>
      refine ⟨h.mem ha, ?_⟩
      rcases h.wf a idx ha with rfl | ⟨i, sm, rfl, hsm, -⟩
      · simp [AccessList.addSlot, ha] at hadd
      · rw [← h.slots, AccessList.slotSet_index ha hsm]
        have hget : goIndex al.slots (i : ℤ) = .ok sm := goIndex_ok_iff.mpr hsm
        by_contra hkey
        simp [AccessList.addSlot, ha, hget, hkey, bind, Except.bind] at hadd

/-- **`AddSlot`** reports what grows, and what is recorded for it undoes it. -/
theorem Represents.addSlot {al : AccessList} {S : AccessSets} (h : Represents al S) (a : Address) (key : Hash) :
    ∃ al', al.addSlot a key = .ok (S.grown (S.addSlot a key), al') ∧
      Adds al S al' (S.addSlot a key) (reported a key (S.grown (S.addSlot a key))) := by
  rw [AccessSets.grown_addSlot]
  rcases AccessList.addSlot_cases h.wf a key with
    ⟨ha, hadd⟩ | ⟨ha, hadd⟩ | ⟨i, sm, ha, hsm, hne, hkey, hadd⟩ | hadd
  · -- An absent address is added first, and then its slot.
    have haddress := h.notMem ha
    have hslot : (a, key) ∉ S.slots := by
      rw [← h.slots, AccessList.slotSet_none ha]
      simp
    have hmid := h.insertAddress ha
    have hneg : (al.addAddress a).2.addresses.get a = some (-1) := by simp [AccessList.addAddress, ha]
    have hopen := hmid.openSlots (AccessList.slotSet_neg hneg) key
    have hundo := @undoes_openSlots _ _ a key hmid hneg
    rw [AccessList.openSlots_addAddress ha, AccessSets.addSlot_addAddress] at hopen hundo
    refine ⟨al.openSlots a key, by simp [hadd, haddress, hslot], hopen, ?_⟩
    have hlog : reported a key (decide (a ∉ S.addresses), decide ((a, key) ∉ S.slots)) =
        [.address a] ++ [.slot a key] := by
      simp [reported, haddress, hslot]
    rw [hlog]
    exact (rollback_singleton.mpr hundo).extend (rollback_singleton.mpr (undoes_address h ha))
  · have hslot : (a, key) ∉ S.slots := by
      rw [← h.slots, AccessList.slotSet_neg ha]
      simp
    refine ⟨al.openSlots a key, by simp [hadd, h.mem ha, hslot], h.openSlots (AccessList.slotSet_neg ha) key, ?_⟩
    simpa [reported, h.mem ha, hslot] using rollback_singleton.mpr (undoes_openSlots h ha)
  · have hslot : (a, key) ∉ S.slots := by
      rw [← h.slots, AccessList.slotSet_index ha hsm]
      exact hkey
    refine ⟨_, by rw [hadd]; simp [h.mem ha, hslot], h.setSlots ha hsm key, ?_⟩
    simpa [reported, h.mem ha, hslot] using rollback_singleton.mpr (undoes_setSlots h ha hsm hne hkey)
  · obtain ⟨haddress, hslot⟩ := h.mem_of_addSlot hadd
    rw [AccessSets.addSlot_of_mem haddress hslot]
    exact ⟨al, by simp [hadd, haddress, hslot], by simpa [reported, haddress, hslot] using Adds.refl h⟩

/-- An addition to both sides of a session. -/
theorem SessionTracks.add {s : AccessSession} {t : SetSession} (h : SessionTracks s t) {al' : AccessList}
    {S' : AccessSets} {changes : List AccessChange} (hadd : Adds s.list t.sets al' S' changes) :
    SessionTracks ⟨al', s.log ++ changes⟩ ⟨S', t.log ++ changes⟩ where
  log := congrArg (· ++ changes) h.log
  represents := hadd.represents
  history := hadd.history.extend h.history

/-- The newest change is undone on both sides. -/
theorem SessionTracks.undo {s : AccessSession} {t : SetSession} (h : SessionTracks s t) {change : AccessChange}
    (hlast : s.log.getLast? = some change) : ∃ al', change.revert s.list = .ok al' ∧
      SessionTracks ⟨al', s.log.dropLast⟩ ⟨t.sets.erase change, t.log.dropLast⟩ ∧
      ∀ a key, change = .slot a key → s.list.DeletesOnly a key := by
  obtain ⟨older, hlog⟩ := List.getLast?_eq_some_iff.mp hlast
  have hhistory := h.history
  rw [hlog] at hhistory
  obtain ⟨⟨al', S'⟩, hundo, holder⟩ := rollback_concat.mp hhistory
  obtain rfl : t.sets.erase change = S' := hundo.sets
  refine ⟨al', hundo.list, ⟨congrArg List.dropLast h.log, hundo.represents, ?_⟩, hundo.safe⟩
  simpa [hlog] using holder

/-- **One call.** It does not panic, reports growth, and keeps the invariant. -/
theorem SessionTracks.call {s : AccessSession} {t : SetSession} (h : SessionTracks s t) (c : AccessCall) :
    ∃ s', s.call c = .ok ((t.call c).1, s') ∧ SessionTracks s' (t.call c).2 := by
  cases c with
  | addAddress a =>
      obtain ⟨hreport, hadd⟩ := h.represents.addAddress a
      have hfirst : (s.list.addAddress a).1 = (t.sets.grown (t.sets.addAddress a)).1 := congrArg Prod.fst hreport
      refine ⟨_, by simp only [AccessSession.call, SetSession.call, hreport]; rfl, ?_⟩
      rw [hfirst] at hadd ⊢
      exact h.add hadd
  | addSlot a key =>
      obtain ⟨al', hok, hadd⟩ := h.represents.addSlot a key
      exact ⟨_, by simp only [AccessSession.call, hok]; rfl, h.add hadd⟩
  | undo =>
      cases hlast : s.log.getLast? with
      | none =>
          have hlast' : t.log.getLast? = none := h.log ▸ hlast
          exact ⟨s, by simp only [AccessSession.call, SetSession.call, hlast, hlast'],
            by simpa only [SetSession.call, hlast'] using h⟩
      | some change =>
          have hlast' : t.log.getLast? = some change := h.log ▸ hlast
          obtain ⟨al', hrevert, htracks, -⟩ := h.undo hlast
          refine ⟨_, ?_, by simpa only [SetSession.call, hlast'] using htracks⟩
          simp only [AccessSession.call, SetSession.call, hlast, hlast', hrevert]
          rfl

/-- **A whole session.** -/
theorem SessionTracks.run {s : AccessSession} {t : SetSession} (h : SessionTracks s t) (calls : List AccessCall) :
    ∃ s', s.run calls = .ok ((t.run calls).1, s') ∧ SessionTracks s' (t.run calls).2 := by
  induction calls generalizing s t with
  | nil => exact ⟨s, rfl, h⟩
  | cons c calls ih =>
      obtain ⟨s₁, hcall, h₁⟩ := h.call c
      obtain ⟨s₂, hrun, h₂⟩ := ih h₁
      refine ⟨s₂, ?_, h₂⟩
      simp only [AccessSession.run, SetSession.run, hcall, bind, Except.bind, hrun]

/-- The empty session tracks the empty sets. -/
theorem SessionTracks.new : SessionTracks .new .new := ⟨rfl, .new, rfl⟩

/-- A session that tracks sets can be undone. -/
theorem SessionTracks.undoSafe {s : AccessSession} {t : SetSession} (h : SessionTracks s t) : s.UndoSafe := by
  intro a key hlast
  obtain ⟨-, -, -, hsafe⟩ := h.undo hlast
  exact hsafe a key rfl

/-! ## `PrepareAccessList` -/

section prepare

variable [Keccak] {σ : Type}

/-- The sets after a call of the state database that fills the access list. -/
def AccessSets.apply (S : AccessSets) : Op → AccessSets
  | .addAddressToAccessList a => S.addAddress a
  | .addSlotToAccessList a key => S.addSlot a key
  | _ => S

/-- The call only fills the access list. -/
def Op.FillsAccessList : Op → Prop
  | .addAddressToAccessList _ => True
  | .addSlotToAccessList _ _ => True
  | _ => False

/-- One call of the state database is one insertion. -/
theorem Op.run_represents {s : StateDB σ} {S : AccessSets} (h : Represents s.accessList S) {op : Op}
    (hop : op.FillsAccessList) : ∃ s', op.run s = .ok s' ∧ Represents s'.accessList (S.apply op) := by
  cases op with
  | addAddressToAccessList a =>
      refine ⟨_, rfl, ?_⟩
      have hlist : (s.addAddressToAccessList a).accessList = (s.accessList.addAddress a).2 := by
        unfold StateDB.addAddressToAccessList
        dsimp only
        split <;> rfl
      rw [hlist]
      exact (h.addAddress a).2.represents
  | addSlotToAccessList a key =>
      obtain ⟨al', hok, hadd⟩ := h.addSlot a key
      refine ⟨_, by simp only [Op.run, StateDB.addSlotToAccessList, hok]; rfl, ?_⟩
      have hsets : S.apply (.addSlotToAccessList a key) = S.addSlot a key := rfl
      rw [hsets]
      -- the journal entries leave the access list as it is
      convert hadd.represents using 1
      split <;> split <;> rfl
  | _ => exact absurd hop (by simp [Op.FillsAccessList])

/-- Operations that fill the access list fill the sets alike. -/
theorem runOps_represents {s : StateDB σ} {S : AccessSets} (h : Represents s.accessList S) {ops : List Op}
    (hops : ∀ op ∈ ops, op.FillsAccessList) :
    ∃ s', runOps s ops = .ok s' ∧ Represents s'.accessList (ops.foldl AccessSets.apply S) := by
  induction ops generalizing s S with
  | nil => exact ⟨s, rfl, h⟩
  | cons op ops ih =>
      obtain ⟨s₁, hop, h₁⟩ := Op.run_represents h (hops op List.mem_cons_self)
      obtain ⟨s₂, hrun, h₂⟩ := ih h₁ fun op' hop' => hops op' (List.mem_cons_of_mem op hop')
      exact ⟨s₂, by simp only [runOps, hop]; exact hrun, h₂⟩

/-- The addresses after one operation. -/
theorem mem_addresses_apply {S : AccessSets} {op : Op} {a : Address} : a ∈ (S.apply op).addresses ↔
    a ∈ S.addresses ∨ op = .addAddressToAccessList a ∨ ∃ key, op = .addSlotToAccessList a key := by
  cases op <;> simp [AccessSets.apply, AccessSets.addAddress, AccessSets.addSlot, or_comm, eq_comm]

/-- The slots after one operation. -/
theorem mem_slots_apply {S : AccessSets} {op : Op} {a : Address} {key : Hash} : (a, key) ∈ (S.apply op).slots ↔
    (a, key) ∈ S.slots ∨ op = .addSlotToAccessList a key := by
  cases op <;> simp [AccessSets.apply, AccessSets.addAddress, AccessSets.addSlot, or_comm, eq_comm]

/-- The addresses after some operations. -/
theorem mem_addresses_foldl {S : AccessSets} {ops : List Op} {a : Address} :
    a ∈ (ops.foldl AccessSets.apply S).addresses ↔ a ∈ S.addresses ∨ .addAddressToAccessList a ∈ ops ∨
      ∃ key, .addSlotToAccessList a key ∈ ops := by
  induction ops generalizing S with
  | nil => simp
  | cons op ops ih =>
      rw [List.foldl_cons, ih, mem_addresses_apply]
      simp only [List.mem_cons, exists_or, eq_comm]
      tauto

/-- The slots after some operations. -/
theorem mem_slots_foldl {S : AccessSets} {ops : List Op} {a : Address} {key : Hash} :
    (a, key) ∈ (ops.foldl AccessSets.apply S).slots ↔ (a, key) ∈ S.slots ∨ .addSlotToAccessList a key ∈ ops := by
  induction ops generalizing S with
  | nil => simp
  | cons op ops ih =>
      rw [List.foldl_cons, ih, mem_slots_apply, List.mem_cons, or_assoc, eq_comm]

/-- The sender, the destination, the precompiles and the tuples. -/
def preparedSets (sender : Address) (dst : Option Address) (precompiles : List Address)
    (list : List (Address × List Hash)) : AccessSets where
  addresses := insert sender (dst.toFinset ∪ precompiles.toFinset ∪ (list.map Prod.fst).toFinset)
  slots := (list.flatMap fun el => el.2.map fun key => (el.1, key)).toFinset

/-- `PrepareAccessList` consists of operations that fill the access list. -/
theorem accessListOps_fill {sender : Address} {dst : Option Address} {precompiles : List Address}
    {list : List (Address × List Hash)} {op : Op} (h : op ∈ accessListOps sender dst precompiles list) :
    op.FillsAccessList := by
  simp only [accessListOps, List.mem_append, List.mem_cons, List.mem_map, List.mem_flatMap] at h
  rcases h with (rfl | ⟨a, -, rfl⟩) | ⟨el, -, rfl | ⟨key, -, rfl⟩⟩ <;> trivial

/-- The sets that they fill. -/
theorem preparedSets_eq (sender : Address) (dst : Option Address) (precompiles : List Address)
    (list : List (Address × List Hash)) :
    (accessListOps sender dst precompiles list).foldl AccessSets.apply .empty =
      preparedSets sender dst precompiles list := by
  ext x
  · rw [mem_addresses_foldl]
    -- The address of a tuple with slots is added with each of them once more.
    have htuple : ∀ (key : Hash) (keys : List Hash), (x, keys) ∈ list → key ∈ keys →
        x = sender ∨ dst = some x ∨ x ∈ precompiles ∨ ∃ keys, (x, keys) ∈ list :=
      fun _ keys hmem _ => Or.inr (Or.inr (Or.inr ⟨keys, hmem⟩))
    simpa [accessListOps, preparedSets, AccessSets.empty] using htuple
  · obtain ⟨a, key⟩ := x
    rw [mem_slots_foldl]
    simp [accessListOps, preparedSets, AccessSets.empty]

/-- **`PrepareAccessList`** fills the empty access list with the sets it is meant to. -/
theorem prepareAccessList_agrees {s : StateDB σ} (h : s.accessList = .new) (sender : Address) (dst : Option Address)
    (precompiles : List Address) (list : List (Address × List Hash)) :
    ∃ s', s.prepareAccessList sender dst precompiles list = .ok s' ∧
      s'.accessList.Agrees (preparedSets sender dst precompiles list) := by
  have hempty : Represents s.accessList .empty := h ▸ .new
  obtain ⟨s', hrun, hrepresents⟩ :=
    runOps_represents hempty fun op (hop : op ∈ accessListOps sender dst precompiles list) => accessListOps_fill hop
  rw [← prepareAccessList_run] at hrun
  rw [preparedSets_eq] at hrepresents
  exact ⟨s', hrun, hrepresents.agrees⟩

/-- **The indexed access list is a set of addresses and a set of slots.** After every session: no call panicked, the
flags were growth, the list answers as the sets do, no two addresses share an index, and the deletion of the newest
slot finds an index within the slice and cuts off at most the last slot set. A preparation of an empty list adds the
sender, the destination, the precompiles and the tuples, and nothing else. -/
theorem accessList_refines_sets (calls : List AccessCall) :
    (∃ s, AccessSession.new.run calls = .ok ((SetSession.new.run calls).1, s) ∧
      s.list.Agrees (SetSession.new.run calls).2.sets ∧ s.list.Distinct ∧ s.UndoSafe) ∧
    ∀ (s : StateDB σ) (sender : Address) (dst : Option Address) (precompiles : List Address)
      (list : List (Address × List Hash)),
      ∃ s', { s with accessList := .new }.prepareAccessList sender dst precompiles list = .ok s' ∧
        s'.accessList.Agrees (preparedSets sender dst precompiles list) := by
  constructor
  · obtain ⟨s, hrun, htracks⟩ := SessionTracks.new.run calls
    exact ⟨s, hrun, htracks.represents.agrees, htracks.represents.distinct, htracks.undoSafe⟩
  · intro s sender dst precompiles list
    exact prepareAccessList_agrees rfl sender dst precompiles list

end prepare

end Smartdoge.Statedb
