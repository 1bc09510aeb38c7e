import Smartdoge.Evm.Keeper
import Smartdoge.Statedb.Commit

/-!
# The byte store of the module

What the byte store of the EVM module can hold, and what a commit does to it.

* `Store.WellFormed`: the keys are those that `SetCode` and `SetState` write, and every code is stored
  under its hash.
* `mem_storageEntries_iff`, `storageEntries_congr`: the iteration over the storage of an account
  visits its entries, each once, and depends on nothing else.
* **`commitAll_slots`**: the entries after a commit. A dirty slot that changed gets an entry with its
  new value, whatever that is; a suicided account loses all its entries.
-/

set_option linter.unusedSectionVars false

namespace Smartdoge.Evm

open Smartdoge.Lib
open Smartdoge.Lib.Writes
open Smartdoge.Statedb (StateObject StateDB CodeStored codeView)

namespace Store

/-! ## What the store can hold -/

/-- Every key is one that `SetCode` or `SetState` writes. -/
def Keyed (st : Store) : Prop :=
  ∀ key, (st.kv.get key).isSome →
    (∃ codeHash, key = codeKey codeHash) ∨ ∃ (a : Address) (slot : Hash), key = stateKey a slot.bytes

/-- The keys under the prefix of an address are those of its slots. -/
theorem Keyed.exists_slot {st : Store} (h : st.Keyed) {a : Address} {key : Bytes}
    (hkey : (st.kv.get key).isSome) (hstarts : (addressStoragePrefix a).isPrefixOf key = true) :
    ∃ slot : Hash, key = stateKey a slot.bytes := by
  rw [List.isPrefixOf_iff_prefix] at hstarts
  rcases h key hkey with ⟨codeHash, rfl⟩ | ⟨b, slot, rfl⟩
  · simp [addressStoragePrefix, keyPrefixStorage, codeKey, keyPrefixCode] at hstarts
  · have hlength : (addressStoragePrefix a).length = (addressStoragePrefix b).length := by
      simp [addressStoragePrefix, a.length_eq, b.length_eq]
    have hsame : addressStoragePrefix a = addressStoragePrefix b :=
      (List.prefix_of_prefix_length_le hstarts (List.prefix_append _ _) hlength.le).eq_of_length hlength
    exact ⟨slot, by rw [stateKey, stateKey, hsame]⟩

/-- Setting a slot keeps the store keyed. -/
theorem Keyed.setState {st : Store} (h : st.Keyed) (a : Address) (key : Hash) (value : Bytes) :
    (st.setState a key value).Keyed := by
  intro key' hkey'
  by_cases heq : key' = stateKey a key.bytes
  · exact Or.inr ⟨a, key, heq⟩
  · apply h key'
    unfold Store.setState at hkey'
    split_ifs at hkey'
    · rwa [GoMap.get_delete_of_ne _ heq] at hkey'
    · rwa [GoMap.get_set_of_ne _ heq] at hkey'

/-- Storing a code does too. -/
theorem Keyed.setCode {st : Store} (h : st.Keyed) (codeHash : Hash) (code : Bytes) :
    (st.setCode codeHash code).Keyed := by
  intro key' hkey'
  by_cases heq : key' = codeKey codeHash
  · exact Or.inl ⟨codeHash, heq⟩
  · apply h key'
    unfold Store.setCode at hkey'
    split_ifs at hkey'
    · rwa [GoMap.get_delete_of_ne _ heq] at hkey'
    · rwa [GoMap.get_set_of_ne _ heq] at hkey'

/-! ## Enumerating the storage of an account -/

/-- **The iteration visits the entries of the account**, with the values that `GetState` reads. -/
theorem mem_storageEntries_iff {st : Store} (h : st.Keyed) {a : Address} {key value : Hash} :
    (key, value) ∈ st.storageEntries a ↔ (st.slot a key).isSome ∧ st.getState a key = value := by
  have hread : ∀ slot : Hash, bytesToHash (stateKey a slot.bytes) = slot :=
    fun slot => FixedBytes.ofBytes_append _ slot
  unfold storageEntries
  rw [List.mem_map]
  constructor
  · rintro ⟨k, hk, heq⟩
    rw [List.mem_filter, GoMap.mem_sortedKeys] at hk
    obtain ⟨slot, rfl⟩ := h.exists_slot hk.1 hk.2
    rw [Prod.mk.injEq, hread] at heq
    obtain ⟨rfl, hvalue⟩ := heq
    refine ⟨hk.1, ?_⟩
    rw [getState_eq_slot]
    exact hvalue
  · rintro ⟨hsome, hvalue⟩
    refine ⟨stateKey a key.bytes, ?_, ?_⟩
    · rw [List.mem_filter, GoMap.mem_sortedKeys, List.isPrefixOf_iff_prefix]
      exact ⟨hsome, List.prefix_append _ _⟩
    · rw [hread, ← hvalue, getState_eq_slot]
      rfl

/-- No slot is visited twice. -/
theorem nodup_storageEntries {st : Store} (h : st.Keyed) (a : Address) :
    ((st.storageEntries a).map Prod.fst).Nodup := by
  unfold storageEntries
  rw [List.map_map]
  refine ((GoMap.nodup_sortedKeys _ st.kv).filter _).map_on ?_
  intro k hk k' hk' heq
  rw [List.mem_filter, GoMap.mem_sortedKeys] at hk hk'
  obtain ⟨slot, rfl⟩ := h.exists_slot hk.1 hk.2
  obtain ⟨slot', rfl⟩ := h.exists_slot hk'.1 hk'.2
  have hslots : slot = slot' :=
    (FixedBytes.ofBytes_append _ slot).symm.trans (heq.trans (FixedBytes.ofBytes_append _ slot'))
  rw [hslots]

/-- A read depends on the entry only up to the width of its value. -/
theorem getState_congr {st st' : Store} {a : Address} {key : Hash}
    (hslot : (st'.slot a key).map bytesToHash = (st.slot a key).map bytesToHash) :
    st'.getState a key = st.getState a key := by
  have hread : ∀ v : Option Bytes, bytesToHash (v.getD []) = (v.map bytesToHash).getD (.zero 32) := by
    rintro (_ | v)
    · rfl
    · rfl
  rw [getState_eq_slot, getState_eq_slot, hread, hread, hslot]

/-- The iteration depends on the entries of the account only, up to the width of the values. -/
theorem storageEntries_congr {st st' : Store} (h : st.Keyed) (h' : st'.Keyed) {a : Address}
    (hslots : ∀ key, (st'.slot a key).map bytesToHash = (st.slot a key).map bytesToHash) :
    st'.storageEntries a = st.storageEntries a := by
  have hsome : ∀ key, (st'.slot a key).isSome ↔ (st.slot a key).isSome := by
    intro key
    have hmap := congrArg Option.isSome (hslots key)
    rw [Option.isSome_map, Option.isSome_map] at hmap
    rw [hmap]
  have hkeys : ∀ k, (addressStoragePrefix a).isPrefixOf k = true →
      ((st'.kv.get k).isSome ↔ (st.kv.get k).isSome) := by
    intro k hstarts
    constructor
    · intro hk
      obtain ⟨slot, rfl⟩ := h'.exists_slot hk hstarts
      exact (hsome slot).mp hk
    · intro hk
      obtain ⟨slot, rfl⟩ := h.exists_slot hk hstarts
      exact (hsome slot).mpr hk
  unfold storageEntries
  rw [GoMap.filter_sortedKeys_congr (· ≤ ·) hkeys]
  refine List.map_congr_left ?_
  intro k hk
  rw [List.mem_filter, GoMap.mem_sortedKeys] at hk
  obtain ⟨slot, rfl⟩ := h.exists_slot hk.1 hk.2
  have hvalue := getState_congr (hslots slot)
  rw [getState_eq_slot, getState_eq_slot] at hvalue
  exact congrArg (Prod.mk _) hvalue

variable [Keccak]

/-- Codes are stored under their hash, and no empty one is. -/
def CodesHashed (st : Store) : Prop :=
  ∀ codeHash code, st.getCode codeHash = some code → code ≠ [] ∧ keccak256 code = codeHash

/-- What the writes of the module leave in its byte store. -/
structure WellFormed (st : Store) : Prop where
  keyed : st.Keyed
  codesHashed : st.CodesHashed

/-- Writing a slot keeps the store well-formed. -/
theorem WellFormed.setState {st : Store} (h : st.WellFormed) (a : Address) (key : Hash)
    (value : Bytes) : (st.setState a key value).WellFormed := by
  refine ⟨h.keyed.setState a key value, ?_⟩
  intro codeHash code hcode
  rw [getCode_setState] at hcode
  exact h.codesHashed codeHash code hcode

/-- So does writing a code under its hash, or deleting one. -/
theorem WellFormed.setCode {st : Store} (h : st.WellFormed) {codeHash : Hash} {code : Bytes}
    (hhash : code ≠ [] → keccak256 code = codeHash) : (st.setCode codeHash code).WellFormed := by
  refine ⟨h.keyed.setCode codeHash code, ?_⟩
  intro h' code' hcode'
  rw [getCode_setCode] at hcode'
  split_ifs at hcode' with hsame hempty
  · obtain rfl := Option.some.inj hcode'
    rw [hsame]
    exact ⟨hempty, hhash hempty⟩
  · exact h.codesHashed h' code' hcode'

end Store

/-! ## What a commit does to the store -/

section commits

variable [Keccak] (env : Env)

/-- A property of the byte store that its writes keep. -/
structure KeptByWrites (P : Store → Prop) : Prop where
  ledger : ∀ {c c'}, c'.kv = c.kv → P c → P c'
  setState : ∀ {c} a key value, P c → P (c.setState a key value)
  removed : ∀ {c} codeHash, P c → P (c.setCode codeHash [])

/-- Being keyed is kept by all writes of a commit. -/
theorem keyed_kept : KeptByWrites Store.Keyed where
  ledger := by
    intro c c' hkv h key hkey
    rw [hkv] at hkey
    exact h key hkey
  setState := fun a key value h => h.setState a key value
  removed := fun codeHash h => h.setCode codeHash []

/-- What single writes keep, the writes of a list of slots keep. -/
theorem KeptByWrites.foldl_setState {P : Store → Prop} (hP : KeptByWrites P) (a : Address)
    (values : Hash → Bytes) (keys : List Hash) {c : Store} (hc : P c) :
    P (keys.foldl (fun c key => c.setState a key (values key)) c) := by
  induction keys generalizing c with
  | nil => exact hc
  | cons key keys ih => exact ih (hP.setState a key (values key) hc)

variable {env} in
/-- **What the writes keep, the commit of an object keeps**, if the code it stores does. -/
theorem KeptByWrites.commit {P : Store → Prop} (hP : KeptByWrites P) {o : StateObject}
    (hcode : ∀ code st, o.code = some code → P st → P (st.setCode o.account.codeHash code))
    {st st' : Store} (h : o.commit (evmKeeper env) st = .ok () st') (hst : P st) : P st' := by
  rw [StateObject.commit_ok] at h
  split_ifs at h with hsu
  · rcases deleteAccount_ok env h with ⟨-, rfl⟩ | ⟨sequence, codeHash, st₁, -, hmoves, rfl⟩
    · exact hst
    · have hremoved : P (removeCode codeHash st₁) := by
        unfold removeCode
        split_ifs
        · exact hP.ledger hmoves.kv hst
        · exact hP.removed codeHash (hP.ledger hmoves.kv hst)
      have hcleared : P (clearStorage o.address (removeCode codeHash st₁)) := by
        rw [clearStorage_eq]
        exact hP.foldl_setState o.address (fun _ => []) _ hremoved
      exact hP.ledger (c := clearStorage o.address (removeCode codeHash st₁)) rfl hcleared
  · obtain ⟨st₁, hset, rfl⟩ := h
    obtain ⟨acct, -, hmoves⟩ := setAccount_ok env hset
    have hcoded : P (o.commitCode (evmKeeper env) st) := by
      unfold StateObject.commitCode
      cases ho : o.code with
      | none => exact hst
      | some code =>
          simp only
          split_ifs
          · exact hcode code st ho hst
          · exact hst
    have hslots : ∀ (keys : List Hash) (c : Store), P c →
        P (keys.foldl (o.commitSlot (evmKeeper env)) c) := by
      intro keys
      induction keys with
      | nil => exact fun c hc => hc
      | cons key keys ih =>
          intro c hc
          rw [List.foldl_cons]
          apply ih
          simp only [StateObject.commitSlot]
          split_ifs
          · exact hc
          · exact hP.setState _ _ _ hc
    exact hslots _ _ (hP.ledger (c := o.commitCode (evmKeeper env) st) hmoves.kv hcoded)

/-- What single writes keep, a commit keeps. -/
theorem KeptByWrites.commitAll {P : Store → Prop} (hP : KeptByWrites P) {s : StateDB Store}
    (hk : s.keeper = evmKeeper env)
    (hcode : ∀ a o, s.stateObjects.get a = some o → ∀ code st, o.code = some code → P st →
      P (st.setCode o.account.codeHash code))
    {addrs : List Address} {st st' : Store} (h : s.commitAll addrs st = .ok () st') (hst : P st) :
    P st' := by
  induction addrs generalizing st with
  | nil =>
      obtain rfl := forM_nil_ok.mp h
      exact hst
  | cons a addrs ih =>
      obtain ⟨o, st₁, ho, hobject, hrest⟩ := StateDB.commitAll_cons_ok.mp h
      rw [hk] at hobject
      exact ih hrest (hP.commit (hcode a o ho) hobject hst)

/-- The entries of an account after the object at its address was committed: none or the old ones
if it was suicided, else an entry for every slot that changed. -/
def SlotsAfter (o : Statedb.ObjectView) (before : Hash → Hash) (old new : Hash → Option Bytes) : Prop :=
  if o.suicided then (∀ key, new key = none) ∨ new = old
  else ∀ key, new key = if o.storage key = before key then old key else some (o.storage key).bytes

/-- The entry a commit writes for a slot of an object, if it writes one. -/
def writtenEntry (o : StateObject) (key : Hash) : Option Bytes :=
  let value := (o.dirtyStorage.get key).getD (FixedBytes.zero 32)
  if value = (o.originStorage.get key).getD (FixedBytes.zero 32) then none else some value.bytes

/-- The stored slots after one slot of an object was committed. -/
theorem commitSlot_slot (o : StateObject) (st : Store) (key j : Hash) (b : Address) :
    (o.commitSlot (evmKeeper env) st key).slot b j =
      if b = o.address ∧ j = key then (writtenEntry o j).or (st.slot b j) else st.slot b j := by
  simp only [StateObject.commitSlot, writtenEntry]
  split_ifs with heq hkey hsame hkey hsame
  · rfl
  · rw [hkey.2] at hsame
    exact absurd heq hsame
  · rfl
  · rw [hkey.2] at hsame
    exact absurd hsame heq
  · refine (Store.slot_setState _ _ _ _ _ _).trans ?_
    rw [if_pos hkey, hkey.2, if_neg (hash_bytes_ne_nil _)]
    rfl
  · exact (Store.slot_setState _ _ _ _ _ _).trans (if_neg hkey)

/-- The stored slots after some slots of an object were committed. -/
theorem commitSlots_slot (o : StateObject) (keys : List Hash) (st : Store) (b : Address) (j : Hash) :
    (keys.foldl (o.commitSlot (evmKeeper env)) st).slot b j =
      if b = o.address ∧ j ∈ keys then (writtenEntry o j).or (st.slot b j) else st.slot b j := by
  induction keys generalizing st with
  | nil => simp
  | cons key keys ih =>
      rw [List.foldl_cons, ih, commitSlot_slot]
      by_cases hb : b = o.address
      · by_cases hj : j = key
        · by_cases hmem : j ∈ keys
          · -- Written again, with the same value.
            simp [hb, hj, ← Option.or_assoc]
          · rw [hj] at hmem
            simp [hb, hj, hmem]
        · simp [hb, hj]
      · simp [hb]

/-- Committing a code leaves the slots alone. -/
theorem commitCode_slot (o : StateObject) (st : Store) :
    (o.commitCode (evmKeeper env) st).slot = st.slot := by
  unfold StateObject.commitCode
  cases o.code with
  | none => rfl
  | some code =>
      simp only
      split_ifs
      · exact Store.slot_setCode st _ code
      · rfl

/-- **Writing the storage of an object**: an entry for every slot whose value is another one than in
the store the object was loaded from. -/
theorem commitStorage_slot {o : StateObject} {a : Address} {ctx : Store}
    (ho : o.Coherent (evmKeeper env) ctx a) (st : Store) :
    (∀ b, b ≠ a → (o.commitStorage (evmKeeper env) st).slot b = st.slot b) ∧
      ∀ key, (o.commitStorage (evmKeeper env) st).slot a key =
        if (o.view (evmKeeper env) ctx).storage key = ctx.getState a key then st.slot a key
        else some ((o.view (evmKeeper env) ctx).storage key).bytes := by
  have hslot : ∀ b key, (o.commitStorage (evmKeeper env) st).slot b key =
      if b = o.address ∧ key ∈ o.dirtyStorage.sortedKeys then
        (writtenEntry o key).or (st.slot b key) else st.slot b key :=
    fun b key => commitSlots_slot env o _ st b key
  refine ⟨?_, ?_⟩
  · intro b hb
    funext key
    rw [hslot, if_neg]
    rintro ⟨hba, -⟩
    exact hb (hba.trans ho.address)
  · intro key
    have hread : (o.view (evmKeeper env) ctx).storage key = (o.dirtyStorage.get key).getD
        ((o.originStorage.get key).getD (ctx.getState a key)) := by
      rw [← ho.address]
      exact StateObject.getState_fst o key
    have hkeys : key ∈ o.dirtyStorage.sortedKeys ↔ (o.dirtyStorage.get key).isSome :=
      GoMap.mem_sortedKeys FixedBytes.le
    rw [hslot, hread]
    cases hdirty : o.dirtyStorage.get key with
    | none =>
        have hclean : key ∉ o.dirtyStorage.sortedKeys := by
          rw [hkeys, hdirty]
          exact Bool.false_ne_true
        rw [if_neg fun h => hclean h.2, if_pos]
        cases horigin : o.originStorage.get key with
        | none => rfl
        | some value => exact ho.origin key value horigin
    | some value =>
        have hmem : key ∈ o.dirtyStorage.sortedKeys := by
          rw [hkeys, hdirty]
          rfl
        -- A dirty slot has its origin value cached, and that is the value in the store.
        obtain ⟨origin, horigin⟩ := Option.isSome_iff_exists.mp
          (GoMap.mem_keys.mp (ho.dirty key (GoMap.mem_keys_of_get hdirty)))
        have hsame : origin = ctx.getState a key := ho.origin key origin horigin
        rw [if_pos ⟨ho.address.symm, hmem⟩, writtenEntry, hdirty, horigin, hsame]
        simp only [Option.getD_some]
        split_ifs
        · rfl
        · rfl

/-- Deleting an account leaves it without entries, or does nothing at all. -/
theorem deleteAccount_slot {a : Address} {st st' : Store} (h : deleteAccount env a st = .ok () st') :
    (∀ b, b ≠ a → st'.slot b = st.slot b) ∧ ((∀ key, st'.slot a key = none) ∨ st'.slot a = st.slot a) := by
  rcases deleteAccount_ok env h with ⟨-, rfl⟩ | ⟨sequence, codeHash, st₁, -, hmoves, rfl⟩
  · exact ⟨fun _ _ => rfl, Or.inr rfl⟩
  · have hslot : ∀ b key, (removeAccount a (clearStorage a (removeCode codeHash st₁))).slot b key =
        if b = a then none else st.slot b key := by
      intro b key
      refine (slot_clearStorage (removeCode codeHash st₁) a b key).trans ?_
      rw [slot_removeCode, Store.slot, Store.slot, hmoves.kv]
    refine ⟨?_, Or.inl ?_⟩
    · intro b hb
      funext key
      rw [hslot, if_neg hb]
    · intro key
      rw [hslot, if_pos rfl]

/-- **The entries after the commit of one object.** -/
theorem commit_slots {o : StateObject} {a : Address} {ctx st st' : Store}
    (ho : o.Coherent (evmKeeper env) ctx a) (h : o.commit (evmKeeper env) st = .ok () st') :
    (∀ b, b ≠ a → st'.slot b = st.slot b) ∧
      SlotsAfter (o.view (evmKeeper env) ctx) (ctx.getState a) (st.slot a) (st'.slot a) := by
  have hview : (o.view (evmKeeper env) ctx).suicided = o.suicided := rfl
  rw [StateObject.commit_ok, ho.address] at h
  rw [SlotsAfter, hview]
  split_ifs at h ⊢ with hsu
  · exact deleteAccount_slot env h
  · obtain ⟨st₁, hset, rfl⟩ := h
    obtain ⟨acct, -, hmoves⟩ := setAccount_ok env hset
    -- Neither the code nor the account is a slot.
    have hbefore : st₁.slot = st.slot := by
      rw [← commitCode_slot env o st]
      funext b key
      rw [Store.slot, Store.slot, hmoves.kv]
      rfl
    rw [← hbefore]
    exact commitStorage_slot env ho st₁

/-- **The entries after a commit.** -/
theorem commitAll_slots {s : StateDB Store} (hk : s.keeper = evmKeeper env) (hs : s.Coherent)
    {addrs : List Address} (hnodup : addrs.Nodup) {st st' : Store}
    (h : s.commitAll addrs st = .ok () st') :
    (∀ a, a ∉ addrs → st'.slot a = st.slot a) ∧
      ∀ a ∈ addrs, ∃ o, s.stateObjects.get a = some o ∧
        SlotsAfter (o.view s.keeper s.ctx) (s.ctx.getState a) (st.slot a) (st'.slot a) := by
  induction addrs generalizing st with
  | nil =>
      obtain rfl := forM_nil_ok.mp h
      exact ⟨fun _ _ => rfl, by simp⟩
  | cons a addrs ih =>
      obtain ⟨ha, hnodup'⟩ := List.nodup_cons.mp hnodup
      obtain ⟨o, st₁, ho, hobject, hrest⟩ := StateDB.commitAll_cons_ok.mp h
      have hco := hs a o ho
      rw [hk] at hobject hco
      obtain ⟨hother, hslots⟩ := commit_slots env hco hobject
      obtain ⟨hsame, hall⟩ := ih hnodup' hrest
      refine ⟨?_, ?_⟩
      · intro b hb
        rw [List.mem_cons, not_or] at hb
        rw [hsame b hb.2, hother b hb.1]
      · intro b hb
        rcases List.mem_cons.mp hb with rfl | hmem
        · rw [hk, hsame b ha]
          exact ⟨o, ho, hslots⟩
        · have hne : b ≠ a := by
            rintro rfl
            exact ha hmem
          rw [← hother b hne]
          exact hall b hmem

end commits

end Smartdoge.Evm
