import Smartdoge.Evm.Genesis

/-!
# Genesis states that are accepted

`GenesisState.Validate` looks for duplicates among the texts of addresses and keys. `InitGenesis` decodes them, and
different texts may be read as the same address or the same key: in upper or lower case, with or without `0x`, with
leading zeros, and with digits that are cut off.

* `validateStorage_ok_iff`, `validate_ok_iff`: what is accepted.
* `initGenesis_lastWrite`: after the import every slot that was written holds the value of one of its entries.
* **`genesis_loaded_iff`**: every entry of an accepted genesis state is read back, if and only if entries for the same
  slot have the same value, which they need not have.
* `twin_keys_accepted`: two keys that differ by a zero, one of which is lost.
-/

set_option linter.unusedSectionVars false

namespace Smartdoge.Evm

open Smartdoge.Lib
open Smartdoge.Lib.Writes

/-! ## Validation -/

/-- What is wrong with an account. -/
inductive GenesisAccountError where
  /-- "address '%s' is not a valid ethereum hex address". -/
  | invalidAddress (address : String)
  /-- "duplicate state key %d: %s". -/
  | duplicateKey (i : ℕ) (key : String)
  /-- "state key hash cannot be blank". -/
  | blankKey
deriving DecidableEq

/-- What is wrong with a genesis state. -/
inductive GenesisError where
  /-- "duplicated genesis account %s". -/
  | duplicatedAccount (address : String)
  /-- "invalid genesis account %s: %w". -/
  | invalidAccount (address : String) (err : GenesisAccountError)
  /-- The error of `Params.Validate`. -/
  | params (text : String)
deriving DecidableEq

/-- Source: `types/storage.go` `State.Validate` -/
def State.validate (s : State) : Except GenesisAccountError Unit :=
  if trimSpace s.key.toList = [] then .error .blankKey else .ok ()

/-- The loop from an index on, with the keys that were seen.
Source: `types/storage.go` `Storage.Validate` -/
def validateStorageFrom : ℕ → List String → List State → Except GenesisAccountError Unit
  | _, _, [] => .ok ()
  | i, seenStorage, state :: rest =>
    if state.key ∈ seenStorage then .error (.duplicateKey i state.key)
    else do
      state.validate
      validateStorageFrom (i + 1) (state.key :: seenStorage) rest

/-- Source: `types/storage.go` `Storage.Validate` -/
def validateStorage (s : List State) : Except GenesisAccountError Unit := validateStorageFrom 0 [] s

/-- Source: `types/genesis.go` `GenesisAccount.Validate`, `types/validation.go` `ValidateAddress` -/
def GenesisAccount.validate (ga : GenesisAccount) : Except GenesisAccountError Unit :=
  if !isHexAddress ga.address then .error (.invalidAddress ga.address) else validateStorage ga.storage

/-- The loop, with the addresses that were seen.
Source: `types/genesis.go` `GenesisState.Validate` -/
def validateAccounts : List String → List GenesisAccount → Except GenesisError Unit
  | _, [] => .ok ()
  | seenAccounts, acc :: rest =>
    if acc.address ∈ seenAccounts then .error (.duplicatedAccount acc.address)
    else do
      acc.validate.mapError (.invalidAccount acc.address)
      validateAccounts (acc.address :: seenAccounts) rest

/-- `validateParams` is `Params.Validate`.
Source: `types/genesis.go` `GenesisState.Validate` -/
def GenesisState.validate {π : Type} (validateParams : π → Except String Unit) (gs : GenesisState π) :
    Except GenesisError Unit := do
  validateAccounts [] gs.accounts
  (validateParams gs.params).mapError .params

/-! ## What is accepted -/

/-- An entry is valid if its key is not blank. -/
theorem State.validate_ok_iff {s : State} : s.validate = .ok () ↔ trimSpace s.key.toList ≠ [] := by
  unfold validate
  split_ifs with h
  · simp [h]
  · simp [h]

/-- The loop over a storage accepts the keys that are not blank, not repeated and not seen before. -/
theorem validateStorageFrom_ok_iff {i : ℕ} {seen : List String} {s : List State} :
    validateStorageFrom i seen s = .ok () ↔
      (s.map State.key).Nodup ∧ (∀ e ∈ s, e.key ∉ seen) ∧ ∀ e ∈ s, trimSpace e.key.toList ≠ [] := by
  induction s generalizing i seen with
  | nil => simp [validateStorageFrom]
  | cons e s ih =>
      rw [validateStorageFrom, List.map_cons, List.nodup_cons, List.forall_mem_cons, List.forall_mem_cons]
      by_cases hseen : e.key ∈ seen
      · simp [hseen]
      · rw [if_neg hseen, except_bind_ok]
        constructor
        · rintro ⟨_, hvalid, hrest⟩
          obtain ⟨hnodup, hfresh, hkeys⟩ := ih.mp hrest
          refine ⟨⟨?_, hnodup⟩, ⟨hseen, ?_⟩, State.validate_ok_iff.mp hvalid, hkeys⟩
          · intro hmem
            obtain ⟨e', he', hkey⟩ := List.mem_map.mp hmem
            exact hfresh e' he' (hkey ▸ List.mem_cons_self)
          · exact fun e' he' hmem => hfresh e' he' (List.mem_cons_of_mem _ hmem)
        · rintro ⟨⟨hhere, hnodup⟩, ⟨-, hfresh⟩, hvalid, hkeys⟩
          refine ⟨(), State.validate_ok_iff.mpr hvalid, ih.mpr ⟨hnodup, ?_, hkeys⟩⟩
          intro e' he' hmem
          rcases List.mem_cons.mp hmem with hkey | hmem
          · exact hhere (hkey ▸ List.mem_map_of_mem he')
          · exact hfresh e' he' hmem

/-- **Storage is accepted**, if its keys are different texts that are not blank. -/
theorem validateStorage_ok_iff {s : List State} : validateStorage s = .ok () ↔
    (s.map State.key).Nodup ∧ ∀ e ∈ s, trimSpace e.key.toList ≠ [] := by
  unfold validateStorage
  rw [validateStorageFrom_ok_iff]
  simp

/-- **A valid account** has a hex address, and keys that are not blank and not repeated. -/
theorem GenesisAccount.validate_ok_iff {ga : GenesisAccount} : ga.validate = .ok () ↔
    isHexAddress ga.address = true ∧ (ga.storage.map State.key).Nodup ∧
      ∀ e ∈ ga.storage, trimSpace e.key.toList ≠ [] := by
  unfold validate
  cases haddress : isHexAddress ga.address with
  | false => simp
  | true =>
      rw [← validateStorage_ok_iff]
      simp

/-- The loop over the accounts accepts valid ones whose addresses are not repeated and not seen before. -/
theorem validateAccounts_ok_iff {seen : List String} {accounts : List GenesisAccount} :
    validateAccounts seen accounts = .ok () ↔ (accounts.map GenesisAccount.address).Nodup ∧
      (∀ acc ∈ accounts, acc.address ∉ seen) ∧ ∀ acc ∈ accounts, acc.validate = .ok () := by
  induction accounts generalizing seen with
  | nil => simp [validateAccounts]
  | cons acc accounts ih =>
      rw [validateAccounts, List.map_cons, List.nodup_cons, List.forall_mem_cons, List.forall_mem_cons]
      by_cases hseen : acc.address ∈ seen
      · simp [hseen]
      · rw [if_neg hseen, except_bind_ok]
        constructor
        · rintro ⟨_, hvalid, hrest⟩
          obtain ⟨hnodup, hfresh, hothers⟩ := ih.mp hrest
          refine ⟨⟨?_, hnodup⟩, ⟨hseen, ?_⟩, mapError_ok.mp hvalid, hothers⟩
          · intro hmem
            obtain ⟨acc', hacc', haddress⟩ := List.mem_map.mp hmem
            exact hfresh acc' hacc' (haddress ▸ List.mem_cons_self)
          · exact fun acc' hacc' hmem => hfresh acc' hacc' (List.mem_cons_of_mem _ hmem)
        · rintro ⟨⟨hhere, hnodup⟩, ⟨-, hfresh⟩, hvalid, hothers⟩
          refine ⟨(), mapError_ok.mpr hvalid, ih.mpr ⟨hnodup, ?_, hothers⟩⟩
          intro acc' hacc' hmem
          rcases List.mem_cons.mp hmem with haddress | hmem
          · exact hhere (haddress ▸ List.mem_map_of_mem hacc')
          · exact hfresh acc' hacc' hmem

/-- **A genesis state is accepted**, if its addresses are different texts and every account and the parameters are
accepted. -/
theorem GenesisState.validate_ok_iff {π : Type} {validateParams : π → Except String Unit} {gs : GenesisState π} :
    gs.validate validateParams = .ok () ↔ (gs.accounts.map GenesisAccount.address).Nodup ∧
      (∀ acc ∈ gs.accounts, acc.validate = .ok ()) ∧ validateParams gs.params = .ok () := by
  unfold validate
  rw [except_bind_ok]
  constructor
  · rintro ⟨_, haccounts, hparams⟩
    obtain ⟨hnodup, -, hvalid⟩ := validateAccounts_ok_iff.mp haccounts
    exact ⟨hnodup, hvalid, mapError_ok.mp hparams⟩
  · rintro ⟨hnodup, hvalid, hparams⟩
    exact ⟨(), validateAccounts_ok_iff.mpr ⟨hnodup, by simp, hvalid⟩, mapError_ok.mpr hparams⟩

/-! ## What is written -/

/-- An entry as it is decoded. -/
structure SlotWrite where
  address : Address
  key : Hash
  value : Hash

/-- The entries of an account. -/
def GenesisAccount.writes (ga : GenesisAccount) : List SlotWrite :=
  ga.storage.map fun e => ⟨hexToAddress ga.address, hexToHash e.key, hexToHash e.value⟩

/-- The entries of a genesis state. -/
def GenesisState.writes {π : Type} (gs : GenesisState π) : List SlotWrite := gs.accounts.flatMap GenesisAccount.writes

/-- Every slot that was written holds the value of one of its entries. -/
def LastWrite (writes : List SlotWrite) (st : Store) : Prop :=
  ∀ w ∈ writes, ∃ w' ∈ writes, w'.address = w.address ∧ w'.key = w.key ∧ st.getState w.address w.key = w'.value

section importing

variable [Keccak]

/-- The slots after one of them was set to a hash. -/
theorem getState_setState_hash (st : Store) (a b : Address) (key j value : Hash) :
    (st.setState a key value.bytes).getState b j = if b = a ∧ j = key then value else st.getState b j := by
  rw [Store.getState_eq_slot, Store.slot_setState]
  split_ifs with hsame hempty
  · exact absurd hempty (hash_bytes_ne_nil value)
  · exact FixedBytes.ofBytes_bytes value
  · rw [Store.getState_eq_slot]

/-- **One more write.** -/
theorem LastWrite.step {writes : List SlotWrite} {st : Store} (h : LastWrite writes st) (w : SlotWrite) :
    LastWrite (writes ++ [w]) (st.setState w.address w.key w.value.bytes) := by
  intro u hu
  rw [getState_setState_hash]
  split_ifs with hsame
  · exact ⟨w, by simp, hsame.1.symm, hsame.2.symm, rfl⟩
  · rcases List.mem_append.mp hu with hu | hu
    · obtain ⟨w', hw', haddress, hkey, hvalue⟩ := h u hu
      exact ⟨w', List.mem_append_left _ hw', haddress, hkey, hvalue⟩
    · rw [List.mem_singleton] at hu
      exact absurd ⟨congrArg SlotWrite.address hu, congrArg SlotWrite.key hu⟩ hsame

/-- The writes of a list of entries come after those that were made before it. -/
theorem LastWrite.foldl {writes : List SlotWrite} {st : Store} (h : LastWrite writes st) (more : List SlotWrite) :
    LastWrite (writes ++ more) (more.foldl (fun st w => st.setState w.address w.key w.value.bytes) st) := by
  induction more generalizing writes st with
  | nil => rwa [List.append_nil]
  | cons w more ih =>
      have hrest := ih (h.step w)
      rw [List.append_assoc, List.singleton_append] at hrest
      exact hrest

/-- **The import of one account.** -/
theorem LastWrite.initAccount {writes : List SlotWrite} {st st' : Store} (h : LastWrite writes st)
    {acc : GenesisAccount} (hinit : initAccount st acc = .ok st') : LastWrite (writes ++ acc.writes) st' := by
  have hcode : ∀ codeHash code, LastWrite writes (st.setCode codeHash code) := by
    intro codeHash code
    unfold LastWrite
    rw [Store.getState_setCode]
    exact h
  unfold Evm.initAccount at hinit
  dsimp only at hinit
  split at hinit
  · cases hinit
  · split_ifs at hinit
    cases hinit
    have hall := (hcode (keccak256 (hex2Bytes acc.code)) (hex2Bytes acc.code)).foldl acc.writes
    rw [GenesisAccount.writes, List.foldl_map] at hall
    exact hall
  · cases hinit

/-- The writes of a list of accounts do too. -/
theorem LastWrite.foldlM {writes : List SlotWrite} {accounts : List GenesisAccount} {st st' : Store}
    (h : LastWrite writes st) (hloop : accounts.foldlM Evm.initAccount st = .ok st') :
    LastWrite (writes ++ accounts.flatMap GenesisAccount.writes) st' := by
  induction accounts generalizing writes st with
  | nil =>
      cases hloop
      rwa [List.flatMap_nil, List.append_nil]
  | cons acc accounts ih =>
      rw [List.foldlM_cons] at hloop
      obtain ⟨st₁, hfirst, hrest⟩ := except_bind_ok.mp hloop
      have hall := ih (h.initAccount hfirst) hrest
      rwa [List.append_assoc, ← List.flatMap_cons] at hall

variable {π : Type} {valid : π → Bool}

/-- **After the import** every slot that was written holds the value of one of its entries. -/
theorem initGenesis_lastWrite {m m' : EvmModule π valid} {chainID : Option ℕ} {gs : GenesisState π}
    (h : m.initGenesis chainID gs = .ok m') : LastWrite gs.writes m'.store := by
  unfold EvmModule.initGenesis at h
  obtain ⟨m₁, -, h⟩ := except_bind_ok.mp h
  obtain ⟨m₂, -, h⟩ := except_bind_ok.mp h
  obtain ⟨store, hloop, h⟩ := except_bind_ok.mp h
  cases h
  have hnone : LastWrite [] m₂.store := by
    intro w hw
    cases hw
  exact hnone.foldlM hloop

/-! ## What is read back -/

/-- Every entry is read back. -/
def Readable (gs : GenesisState π) (st : Store) : Prop :=
  ∀ acc ∈ gs.accounts, ∀ e ∈ acc.storage,
    st.getState (hexToAddress acc.address) (hexToHash e.key) = hexToHash e.value

/-- Entries for the same slot have the same value. -/
def SlotsAgree (gs : GenesisState π) : Prop :=
  ∀ acc ∈ gs.accounts, ∀ acc' ∈ gs.accounts, hexToAddress acc.address = hexToAddress acc'.address →
    ∀ e ∈ acc.storage, ∀ e' ∈ acc'.storage, hexToHash e.key = hexToHash e'.key →
      hexToHash e.value = hexToHash e'.value

/-- No two accounts denote the same address, and no two entries of an account the same key. -/
def NoTwins (gs : GenesisState π) : Prop :=
  gs.accounts.Pairwise (fun acc acc' => hexToAddress acc.address ≠ hexToAddress acc'.address) ∧
    ∀ acc ∈ gs.accounts, acc.storage.Pairwise fun e e' => hexToHash e.key ≠ hexToHash e'.key

/-- **The genesis state is loaded as it is written**: every entry is read back if it was accepted, and it is not
accepted if an entry denotes what another one does. -/
structure LoadedAsWritten (validateParams : π → Except String Unit) (gs : GenesisState π) (st : Store) : Prop where
  readable : gs.validate validateParams = .ok () → Readable gs st
  rejectsTwins : ¬NoTwins gs → ∃ err, gs.validate validateParams = .error err

/-- A write of a genesis state is that of an entry of one of its accounts. -/
theorem mem_writes {gs : GenesisState π} {w : SlotWrite} : w ∈ gs.writes ↔ ∃ acc ∈ gs.accounts, ∃ e ∈ acc.storage,
    w = ⟨hexToAddress acc.address, hexToHash e.key, hexToHash e.value⟩ := by
  unfold GenesisState.writes GenesisAccount.writes
  simp only [List.mem_flatMap, List.mem_map, @eq_comm _ w]

/-- An element of a list whose elements have different images is known by its image. -/
theorem eq_of_pairwise_ne {α β : Type} {f : α → β} {xs : List α} (h : xs.Pairwise fun x y => f x ≠ f y) {x y : α}
    (hx : x ∈ xs) (hy : y ∈ xs) (heq : f x = f y) : x = y := by
  have hnodup : (xs.map f).Nodup := List.pairwise_map.mpr h
  exact List.inj_on_of_nodup_map hnodup hx hy heq

/-- Where no two entries are about one slot, they agree. -/
theorem NoTwins.slotsAgree {gs : GenesisState π} (h : NoTwins gs) : SlotsAgree gs := by
  intro acc hacc acc' hacc' haddress e he e' he' hkey
  obtain rfl := eq_of_pairwise_ne h.1 hacc hacc' haddress
  obtain rfl := eq_of_pairwise_ne (h.2 acc hacc) he he' hkey
  rfl

/-- All entries can be read back, if and only if those about one slot agree. -/
theorem readable_iff {gs : GenesisState π} {st : Store} (h : LastWrite gs.writes st) :
    Readable gs st ↔ SlotsAgree gs := by
  constructor
  · intro hreadable acc hacc acc' hacc' haddress e he e' he' hkey
    rw [← hreadable acc hacc e he, ← hreadable acc' hacc' e' he', haddress, hkey]
  · intro hagree acc hacc e he
    obtain ⟨w', hw', haddress, hkey, hvalue⟩ := h _ (mem_writes.mpr ⟨acc, hacc, e, he, rfl⟩)
    obtain ⟨acc', hacc', e', he', rfl⟩ := mem_writes.mp hw'
    rw [hvalue]
    exact hagree acc' hacc' acc hacc haddress e' he' e he hkey

/-- **A genesis state that is imported**: if it was accepted its entries are all read back, if and only if entries
for the same slot have the same value. It is loaded as it is written, if and only if it was not accepted with two
entries that denote the same address or the same key. `Validate` compares the texts only. -/
theorem genesis_loaded_iff (validateParams : π → Except String Unit) (gs : GenesisState π) (m m' : EvmModule π valid)
    (chainID : Option ℕ) (hinit : m.initGenesis chainID gs = .ok m') :
    (gs.validate validateParams = .ok () → (Readable gs m'.store ↔ SlotsAgree gs)) ∧
      (LoadedAsWritten validateParams gs m'.store ↔ (gs.validate validateParams = .ok () → NoTwins gs)) := by
  have hreadable := readable_iff (initGenesis_lastWrite hinit)
  refine ⟨fun _ => hreadable, ?_, ?_⟩
  · intro h haccepted
    by_contra htwins
    obtain ⟨err, herr⟩ := h.rejectsTwins htwins
    rw [haccepted] at herr
    cases herr
  · intro h
    refine ⟨fun haccepted => hreadable.mpr (h haccepted).slotsAgree, ?_⟩
    intro htwins
    cases hvalid : gs.validate validateParams with
    | error err => exact ⟨err, rfl⟩
    | ok _ => exact absurd (h hvalid) htwins

end importing

/-- One account with two entries, for a module that has it as an Ethereum account without code. -/
def twinGenesis (key key' : String) : GenesisState Unit :=
  ⟨[⟨"0x0000000000000000000000000000000000000001", "", [⟨key, "0x1"⟩, ⟨key', "0x2"⟩]⟩], ()⟩

/-- A module before the import. -/
def twinModule [Keccak] : EvmModule Unit fun _ => true :=
  ⟨none, none, { emptyStore with accounts := GoMap.empty.set (.ofNat 20 1) (.eth 0 (keccak256 [])) }⟩

/-- The keys `0x1` and `0x01` are different texts of the same key: the state is accepted and imported, and the slot
holds the value of the second entry. -/
theorem twin_keys_accepted :
    letI := sampleKeccak
    let gs := twinGenesis "0x1" "0x01"
    gs.validate (fun _ => .ok ()) = .ok () ∧ ∃ m', twinModule.initGenesis (some 1) gs = .ok m' ∧
      m'.store.getState (.ofNat 20 1) (.ofNat 32 1) = .ofNat 32 2 ∧ ¬Readable gs m'.store ∧
      ¬LoadedAsWritten (fun _ => .ok ()) gs m'.store := by
  let _ := sampleKeccak
  intro gs
  have hvalid : gs.validate (fun _ => .ok ()) = .ok () := by decide +kernel
  obtain ⟨m', hinit, hstate⟩ : ∃ m', twinModule.initGenesis (some 1) gs = .ok m' ∧
      m'.store.getState (.ofNat 20 1) (.ofNat 32 1) = .ofNat 32 2 := ⟨_, rfl, by decide +kernel⟩
  have hlost : ¬Readable gs m'.store := by
    intro h
    have hfirst := h _ List.mem_cons_self _ List.mem_cons_self
    have haddress : hexToAddress "0x0000000000000000000000000000000000000001" = .ofNat 20 1 := by decide +kernel
    have hkey : hexToHash "0x1" = .ofNat 32 1 := by decide +kernel
    rw [haddress, hkey, hstate] at hfirst
    exact absurd hfirst (by decide +kernel)
  exact ⟨hvalid, m', hinit, hstate, hlost, fun h => hlost (h.readable hvalid)⟩

/-- Two different keys. -/
theorem genesis_loaded_two_keys :
    letI := sampleKeccak
    let gs := twinGenesis "0x1" "0x2"
    ∃ m', twinModule.initGenesis (some 1) gs = .ok m' ∧ LoadedAsWritten (fun _ => .ok ()) gs m'.store := by
  let _ := sampleKeccak
  intro gs
  obtain ⟨m', hinit⟩ : ∃ m', twinModule.initGenesis (some 1) gs = .ok m' := ⟨_, rfl⟩
  refine ⟨m', hinit, (genesis_loaded_iff (fun _ => .ok ()) gs twinModule m' (some 1) hinit).2.mpr fun _ => ?_⟩
  refine ⟨List.pairwise_singleton _ _, ?_⟩
  intro acc hacc
  obtain rfl := List.mem_singleton.mp hacc
  decide +kernel

end Smartdoge.Evm
