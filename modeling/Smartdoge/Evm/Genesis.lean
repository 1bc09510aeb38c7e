import Smartdoge.Evm.Context
import Smartdoge.Evm.Slots
import Smartdoge.Types.Text

/-!
# Genesis

`x/evm/genesis.go`: the state of the module as text, and back. `ExportGenesis` walks the accounts of
`x/auth`, keeps the Ethereum accounts and writes the code and the storage of each; `InitGenesis` reads
them into the byte store, after it has checked each code against the code hash of its account.

The parameters are carried whole and never looked into, so their type is general. What can go wrong
with them is that a validator of `ParamSetPairs` rejects one: `SetParamSet` panics then, so the ones in
the parameter store have all passed (`EvmModule.params`).

* `initAccount_exportAccount`: the import of one exported account, as writes to the byte store.
* `Imported`: what the byte store holds after the import of some of the accounts; `foldlM_imported` is
  the loop.
* **`genesis_round_trip_iff`**: importing an export gives the exported state back if and only if every Ethereum
  account at an address longer or shorter than an Ethereum address has its like at the cropped address.
-/

set_option linter.unusedSectionVars false

namespace Smartdoge.Evm

open Smartdoge.Lib

/-! ## Genesis states -/

/-- A slot as text.
Source: `evm.proto` `State` -/
structure State where
  key : String
  value : String
deriving DecidableEq

/-- Source: `types/storage.go` `NewState` -/
def newState (key value : Hash) : State := ⟨hashHex key, hashHex value⟩

/-- Source: `keeper.go` `GetAccountStorage` -/
def Store.getAccountStorage (st : Store) (address : Address) : List State :=
  (st.storageEntries address).map fun entry => newState entry.1 entry.2

/-- Source: `genesis.proto` `GenesisAccount` -/
structure GenesisAccount where
  address : String
  code : String
  storage : List State
deriving DecidableEq

/-- Source: `genesis.proto` `GenesisState` -/
structure GenesisState (π : Type) where
  accounts : List GenesisAccount
  params : π
deriving DecidableEq

/-- The panics of `InitGenesis` and `ExportGenesis`. -/
inductive GenesisPanic where
  /-- The error of `ParseChainID`. -/
  | invalidChainID
  /-- "chain id already set". -/
  | chainIDAlreadySet
  /-- `SetParamSet`: "value from ParamSetPair is invalid: %s". -/
  | invalidParams
  /-- `GetParamSet` of parameters that were never set. -/
  | paramsNotSet
  /-- "account not found for address %s". -/
  | accountNotFound (address : String)
  /-- "account %s must be an EthAccount interface, got %T". -/
  | notEthAccount (address : String)
  /-- "code don't match codeHash". -/
  | codeMismatch
deriving DecidableEq

/-- `common.Bytes2Hex(b)`. -/
def bytes2Hex (b : Bytes) : String := String.ofList (encodeHex b)

/-- `common.Hex2Bytes(s)`, which ignores the error of the decoder. -/
def hex2Bytes (s : String) : Bytes := decodeHex s.toList

/-- Bytes are read back from their hex digits. -/
theorem hex2Bytes_bytes2Hex (b : Bytes) : hex2Bytes (bytes2Hex b) = b := by
  rw [hex2Bytes, bytes2Hex, String.toList_ofList, decodeHex_encodeHex]

/-- The module as genesis sees it: the chain id of its keeper, its parameters, where they are set,
and the stores. -/
structure EvmModule (π : Type) (valid : π → Bool) where
  eip155ChainID : Option ℕ
  params : Option { p : π // valid p = true }
  store : Store

section genesis

variable [Keccak]

/-! ## Export -/

/-- The keys of a store, as an iterator visits them. -/
def iterateKeys {n : ℕ} {V : Type} (m : GoMap (FixedBytes n) V) : List (FixedBytes n) :=
  m.sortedKeys FixedBytes.le

/-- All accounts with their addresses, which are the keys of the store.
Source: `x/auth` `IterateAccounts` -/
def Store.iterateAccounts (st : Store) : List (Bytes × AuthAccount) :=
  let accounts := (iterateKeys st.accounts).filterMap fun a => (st.accounts.get a).map fun acct => (a.bytes, acct)
  let others := (st.otherAccounts.sortedKeys OtherAddress.le).filterMap fun a =>
    (st.otherAccounts.get a).map fun acct => (a.1, acct)
  (accounts ++ others).insertionSort fun x y => x.1 ≤ y.1

/-- `common.BytesToAddress(acc.GetAddress().Bytes())`: the last 20 bytes.
Source: `types/account.go` `EthAddress` -/
def ethAddress (address : Bytes) : Address := FixedBytes.ofBytes 20 address

/-- The Ethereum accounts with their code hashes, in the order of `IterateAccounts`.
Source: `genesis.go` `ExportGenesis`, `// ignore non EthAccounts` -/
def Store.ethAccounts (st : Store) : List (Address × Hash) :=
  st.iterateAccounts.filterMap fun account =>
    match account.2 with
    | .eth _ codeHash => some (ethAddress account.1, codeHash)
    | _ => none

/-- Source: `genesis.go` `ExportGenesis`, `genAccount` -/
def exportAccount (st : Store) (account : Address × Hash) : GenesisAccount where
  address := addressHex account.1
  code := bytes2Hex ((st.getCode account.2).getD [])
  storage := st.getAccountStorage account.1

variable {π : Type} {valid : π → Bool}

/-- Source: `genesis.go` `ExportGenesis` -/
def EvmModule.exportGenesis (m : EvmModule π valid) : Except GenesisPanic (GenesisState π) :=
  let accounts := m.store.ethAccounts.map (exportAccount m.store)
  match m.params with
  | some params => .ok ⟨accounts, params.1⟩
  | none => .error .paramsNotSet

/-! ## Import -/

/-- `chainID` is what `ParseChainID(ctx.ChainID())` returns, `none` for an error.
Source: `keeper.go` `WithChainID` -/
def EvmModule.withChainID (m : EvmModule π valid) (chainID : Option ℕ) :
    Except GenesisPanic (EvmModule π valid) :=
  match chainID with
  | none => .error .invalidChainID
  | some id =>
    if m.eip155ChainID ≠ none ∧ m.eip155ChainID ≠ some id then .error .chainIDAlreadySet
    else .ok { m with eip155ChainID := some id }

/-- Source: `keeper/params.go` `SetParams` -/
def EvmModule.setParams (m : EvmModule π valid) (params : π) : Except GenesisPanic (EvmModule π valid) :=
  if h : valid params = true then .ok { m with params := some ⟨params, h⟩ } else .error .invalidParams

/-- Source: `genesis.go` `InitGenesis`, the body of the loop -/
def initAccount (st : Store) (account : GenesisAccount) : Except GenesisPanic Store :=
  let address := hexToAddress account.address
  match st.accounts.get address with
  | none => .error (.accountNotFound account.address)
  | some (.eth _ accountCodeHash) =>
    let code := hex2Bytes account.code
    let codeHash := keccak256 code
    if accountCodeHash ≠ codeHash then .error .codeMismatch
    else
      .ok (account.storage.foldl
        (fun st storage => st.setState address (hexToHash storage.key) (hexToHash storage.value).bytes)
        (st.setCode codeHash code))
  | some _ => .error (.notEthAccount account.address)

/-- The EVM module account is set, since `maccPerms` has it (`GetModuleAddress`).
Source: `genesis.go` `InitGenesis` -/
def EvmModule.initGenesis (m : EvmModule π valid) (chainID : Option ℕ) (data : GenesisState π) :
    Except GenesisPanic (EvmModule π valid) := do
  let m ← m.withChainID chainID
  let m ← m.setParams data.params
  let store ← data.accounts.foldlM initAccount m.store
  return { m with store := store }

/-! ## One account -/

/-- The account at an address is an Ethereum account. -/
def Store.IsEth (st : Store) (a : Address) : Prop :=
  ∃ sequence codeHash, st.accounts.get a = some (.eth sequence codeHash)

/-- The accounts that are iterated over. -/
theorem Store.mem_iterateAccounts {st : Store} {b : Bytes} {acct : AuthAccount} :
    (b, acct) ∈ st.iterateAccounts ↔
      (∃ a : Address, a.bytes = b ∧ st.accounts.get a = some acct) ∨
        ∃ a : OtherAddress, a.1 = b ∧ st.otherAccounts.get a = some acct := by
  unfold iterateAccounts
  rw [List.mem_insertionSort, List.mem_append, List.mem_filterMap, List.mem_filterMap]
  refine or_congr ?_ ?_
  · constructor
    · rintro ⟨a, -, ha⟩
      obtain ⟨acct', hacct, heq⟩ := Option.map_eq_some_iff.mp ha
      obtain ⟨rfl, rfl⟩ := Prod.mk.inj heq
      exact ⟨a, rfl, hacct⟩
    · rintro ⟨a, rfl, hacct⟩
      refine ⟨a, ?_, by rw [hacct]; rfl⟩
      rw [iterateKeys, GoMap.mem_sortedKeys, hacct]
      rfl
  · constructor
    · rintro ⟨a, -, ha⟩
      obtain ⟨acct', hacct, heq⟩ := Option.map_eq_some_iff.mp ha
      obtain ⟨rfl, rfl⟩ := Prod.mk.inj heq
      exact ⟨a, rfl, hacct⟩
    · rintro ⟨a, rfl, hacct⟩
      refine ⟨a, ?_, by rw [hacct]; rfl⟩
      rw [GoMap.mem_sortedKeys, hacct]
      rfl

/-- An Ethereum account is exported under the last 20 bytes of its address. -/
theorem Store.mem_ethAccounts {st : Store} {a : Address} {codeHash : Hash} :
    (a, codeHash) ∈ st.ethAccounts ↔
      ∃ b sequence, (b, AuthAccount.eth sequence codeHash) ∈ st.iterateAccounts ∧ ethAddress b = a := by
  unfold ethAccounts
  rw [List.mem_filterMap]
  constructor
  · rintro ⟨⟨b, acct⟩, hmem, hb⟩
    cases acct with
    | eth sequence h =>
        obtain ⟨rfl, rfl⟩ := Prod.mk.inj (Option.some.inj hb)
        exact ⟨b, sequence, hmem, rfl⟩
    | module sequence | other sequence locked => exact absurd hb (by simp)
  · rintro ⟨b, sequence, hmem, rfl⟩
    exact ⟨(b, .eth sequence codeHash), hmem, rfl⟩

/-- Every Ethereum account at an address of another length has an Ethereum account with the same code hash at the
last 20 bytes of its address. -/
def Store.AddressesFit (st : Store) : Prop :=
  ∀ (a : OtherAddress) sequence codeHash, st.otherAccounts.get a = some (.eth sequence codeHash) →
    ∃ sequence', st.accounts.get (ethAddress a.1) = some (.eth sequence' codeHash)

/-- Where the addresses fit, what is exported are the accounts at Ethereum addresses. -/
theorem Store.mem_ethAccounts_of_fit {st : Store} (hfit : st.AddressesFit) {a : Address} {codeHash : Hash} :
    (a, codeHash) ∈ st.ethAccounts ↔ ∃ sequence, st.accounts.get a = some (.eth sequence codeHash) := by
  rw [mem_ethAccounts]
  constructor
  · rintro ⟨b, sequence, hmem, rfl⟩
    rcases mem_iterateAccounts.mp hmem with ⟨a, rfl, hacct⟩ | ⟨a, rfl, hacct⟩
    · rw [ethAddress, FixedBytes.ofBytes_bytes]
      exact ⟨sequence, hacct⟩
    · exact hfit a sequence codeHash hacct
  · rintro ⟨sequence, hacct⟩
    exact ⟨a.bytes, sequence, mem_iterateAccounts.mpr (Or.inl ⟨a, rfl, hacct⟩), FixedBytes.ofBytes_bytes a⟩

/-- The storage of `a` in `st` is written into `c` slot by slot. -/
def copyStorage (st : Store) (a : Address) (c : Store) : Store :=
  ((st.storageEntries a).map Prod.fst).foldl (fun c key => c.setState a key (st.getState a key).bytes) c

/-- **The import of an exported account** stores its code and its storage. -/
theorem initAccount_exportAccount {st c : Store} (hkeyed : st.Keyed) {a : Address} {codeHash : Hash}
    {sequence : UInt64} (hacct : c.accounts.get a = some (.eth sequence codeHash))
    (hhash : keccak256 ((st.getCode codeHash).getD []) = codeHash) :
    initAccount c (exportAccount st (a, codeHash)) =
      .ok (copyStorage st a (c.setCode codeHash ((st.getCode codeHash).getD []))) := by
  have hstorage : ∀ c : Store, (st.getAccountStorage a).foldl
      (fun st storage => st.setState a (hexToHash storage.key) (hexToHash storage.value).bytes) c =
        copyStorage st a c := by
    intro c
    rw [Store.getAccountStorage, copyStorage, List.foldl_map, List.foldl_map]
    refine List.foldl_ext _ _ _ ?_
    intro c' entry hentry
    simp only [newState, hexToHash_hashHex, (Store.mem_storageEntries_iff hkeyed).mp hentry]
  simp only [initAccount, exportAccount, hexToAddress_addressHex, hex2Bytes_bytes2Hex, hacct, hhash,
    ne_eq, not_true_eq_false, if_false, hstorage]

/-! ## All accounts -/

/-- What the store `c` holds after the import of some of the accounts of `st`. -/
structure Imported (st : Store) (done : List (Address × Hash)) (c : Store) : Prop where
  accounts : c.accounts = st.accounts
  keyed : c.Keyed
  code : ∀ p ∈ done, c.getCode p.2 = st.getCode p.2
  noCode : ∀ codeHash, (∀ p ∈ done, p.2 ≠ codeHash) → c.getCode codeHash = none
  slots : ∀ p ∈ done, ∀ key, (c.slot p.1 key).map bytesToHash = (st.slot p.1 key).map bytesToHash
  noSlots : ∀ a, (∀ p ∈ done, p.1 ≠ a) → ∀ key, c.slot a key = none

/-- An empty store is one into which nothing was imported yet. -/
theorem imported_empty {st c : Store} (haccounts : c.accounts = st.accounts)
    (hempty : c.kv = GoMap.empty) : Imported st [] c where
  accounts := haccounts
  keyed := by
    intro key hkey
    rw [hempty, GoMap.get_empty] at hkey
    exact absurd hkey (by simp)
  code := by simp
  noCode := by
    intro codeHash _
    rw [Store.getCode, hempty, GoMap.get_empty]
  slots := by simp
  noSlots := by
    intro a _ key
    rw [Store.slot, hempty, GoMap.get_empty]

/-- What copying the storage of an account does. -/
theorem copyStorage_spec (st : Store) (hkeyed : st.Keyed) (a : Address) (c : Store) :
    (copyStorage st a c).accounts = c.accounts ∧ (copyStorage st a c).getCode = c.getCode ∧
      (∀ b, b ≠ a → (copyStorage st a c).slot b = c.slot b) ∧
      ∀ key, (copyStorage st a c).slot a key =
        if (st.slot a key).isSome then some (st.getState a key).bytes else c.slot a key := by
  obtain ⟨hledger, hcode, hslot⟩ := Store.foldl_setState (fun key => (st.getState a key).bytes)
    ((st.storageEntries a).map Prod.fst) c a
  have hmem : ∀ key, key ∈ (st.storageEntries a).map Prod.fst ↔ (st.slot a key).isSome := by
    intro key
    rw [List.mem_map]
    constructor
    · rintro ⟨⟨key', value⟩, hentry, rfl⟩
      exact ((Store.mem_storageEntries_iff hkeyed).mp hentry).1
    · intro hsome
      exact ⟨_, (Store.mem_storageEntries_iff hkeyed).mpr ⟨hsome, rfl⟩, rfl⟩
  refine ⟨hledger.accounts, hcode, ?_, ?_⟩
  · intro b hb
    funext key
    refine (hslot b key).trans (if_neg ?_)
    rintro ⟨hba, -⟩
    exact hb hba
  · intro key
    refine (hslot a key).trans ?_
    rw [if_neg (hash_bytes_ne_nil _)]
    simp only [true_and, hmem]

/-- **The import of one more account.** -/
theorem Imported.step {st : Store} (hwf : st.WellFormed) {done : List (Address × Hash)} {c : Store}
    (h : Imported st done c) (a : Address) (codeHash : Hash) :
    Imported st (done ++ [(a, codeHash)])
      (copyStorage st a (c.setCode codeHash ((st.getCode codeHash).getD []))) := by
  obtain ⟨haccounts, hcode, hother, hslot⟩ :=
    copyStorage_spec st hwf.keyed a (c.setCode codeHash ((st.getCode codeHash).getD []))
  have hcodes : ∀ h', (copyStorage st a (c.setCode codeHash ((st.getCode codeHash).getD []))).getCode h' =
      if h' = codeHash then st.getCode codeHash else c.getCode h' := by
    intro h'
    rw [hcode, Store.getCode_setCode]
    cases hstored : st.getCode codeHash with
    | none => rfl
    | some code => simp [(hwf.codesHashed codeHash code hstored).1]
  have hsplit : ∀ p, p ∈ done ++ [(a, codeHash)] ↔ p ∈ done ∨ p = (a, codeHash) := by simp
  refine ⟨?_, ?_, ?_, ?_, ?_, ?_⟩
  · rw [haccounts, (Store.setCode_sameLedger c codeHash _).accounts]
    exact h.accounts
  · exact keyed_kept.foldl_setState a _ _ (h.keyed.setCode codeHash _)
  · intro p hp
    rw [hcodes]
    split_ifs with hsame
    · rw [hsame]
    · rcases (hsplit p).mp hp with hp | rfl
      · exact h.code p hp
      · exact absurd rfl hsame
  · intro h' hnone
    rw [hcodes, if_neg]
    · exact h.noCode h' fun p hp => hnone p ((hsplit p).mpr (Or.inl hp))
    · exact fun hsame => hnone (a, codeHash) ((hsplit _).mpr (Or.inr rfl)) hsame.symm
  · intro p hp key
    by_cases hpa : p.1 = a
    · rw [hpa, hslot, Store.slot_setCode]
      split_ifs with hsome
      · obtain ⟨value, hvalue⟩ := Option.isSome_iff_exists.mp hsome
        rw [Store.getState_eq_slot, hvalue, Option.map_some, Option.map_some]
        exact congrArg some (FixedBytes.ofBytes_bytes _)
      · rw [Option.not_isSome_iff_eq_none] at hsome
        rw [hsome]
        -- An account imported twice had no entry there the first time.
        by_cases hdone : ∃ q ∈ done, q.1 = a
        · obtain ⟨q, hq, hqa⟩ := hdone
          have hslots := h.slots q hq key
          rw [hqa, hsome] at hslots
          exact hslots
        · rw [h.noSlots a (fun q hq hqa => hdone ⟨q, hq, hqa⟩)]
    · rw [hother p.1 hpa, Store.slot_setCode]
      rcases (hsplit p).mp hp with hp | rfl
      · exact h.slots p hp key
      · exact absurd rfl hpa
  · intro b hnone key
    have hba : b ≠ a := fun hba => hnone (a, codeHash) ((hsplit _).mpr (Or.inr rfl)) hba.symm
    rw [hother b hba, Store.slot_setCode]
    exact h.noSlots b (fun p hp => hnone p ((hsplit p).mpr (Or.inl hp))) key

/-- **The loop of `InitGenesis`** over exported accounts. -/
theorem foldlM_imported {st : Store} (hwf : st.WellFormed) {rest done : List (Address × Hash)}
    (heth : ∀ p ∈ rest, ∃ sequence, st.accounts.get p.1 = some (.eth sequence p.2))
    (hhash : ∀ p ∈ rest, keccak256 ((st.getCode p.2).getD []) = p.2) {c : Store}
    (h : Imported st done c) :
    ∃ c', (rest.map (exportAccount st)).foldlM initAccount c = .ok c' ∧
      Imported st (done ++ rest) c' := by
  induction rest generalizing done c with
  | nil => exact ⟨c, rfl, by rwa [List.append_nil]⟩
  | cons p rest ih =>
      obtain ⟨sequence, hacct⟩ := heth p List.mem_cons_self
      rw [← h.accounts] at hacct
      obtain ⟨c', hrun, himported⟩ := ih (fun q hq => heth q (List.mem_cons_of_mem p hq))
        (fun q hq => hhash q (List.mem_cons_of_mem p hq)) (h.step hwf p.1 p.2)
      refine ⟨c', ?_, by rwa [List.append_assoc] at himported⟩
      rw [List.map_cons, List.foldlM_cons,
        initAccount_exportAccount hwf.keyed hacct (hhash p List.mem_cons_self)]
      exact hrun

/-! ## The round trip -/

/-- The import of one account writes to the byte store alone, and has found an Ethereum account with the hash of the
code. -/
theorem initAccount_ok {c c' : Store} {account : GenesisAccount} (h : initAccount c account = .ok c') :
    Store.SameLedger c c' ∧ ∃ sequence, c.accounts.get (hexToAddress account.address) =
      some (.eth sequence (keccak256 (hex2Bytes account.code))) := by
  have hstorage : ∀ (storage : List State) (a : Address) (c : Store), Store.SameLedger c (storage.foldl
      (fun st state => st.setState a (hexToHash state.key) (hexToHash state.value).bytes) c) := by
    intro storage a
    induction storage with
    | nil => exact fun c => ⟨rfl, rfl, rfl, rfl, rfl⟩
    | cons state storage ih => exact fun c => (Store.setState_sameLedger c a _ _).trans (ih _)
  unfold initAccount at h
  simp only at h
  split at h
  · cases h
  · rename_i sequence codeHash hacct
    split_ifs at h with hhash
    obtain rfl := Except.ok.inj h
    exact ⟨(Store.setCode_sameLedger c _ _).trans (hstorage _ _ _), sequence, by rw [hacct, not_not.mp hhash]⟩
  · cases h

/-- **A genesis that was imported** has only Ethereum accounts with the hash of their code, and the import wrote to
the byte store alone. -/
theorem foldlM_initAccount_ok {accounts : List GenesisAccount} {c c' : Store}
    (h : accounts.foldlM initAccount c = .ok c') :
    Store.SameLedger c c' ∧ ∀ account ∈ accounts, ∃ sequence, c.accounts.get (hexToAddress account.address) =
      some (.eth sequence (keccak256 (hex2Bytes account.code))) := by
  induction accounts generalizing c with
  | nil =>
      obtain rfl := Except.ok.inj h
      exact ⟨⟨rfl, rfl, rfl, rfl, rfl⟩, by simp⟩
  | cons account accounts ih =>
      obtain ⟨c₁, hone, hrest⟩ := Smartdoge.Lib.Writes.except_bind_ok.mp h
      obtain ⟨hledger, hacct⟩ := initAccount_ok hone
      obtain ⟨hledger', haccts⟩ := ih hrest
      refine ⟨hledger.trans hledger', ?_⟩
      intro account' hmem
      rcases List.mem_cons.mp hmem with rfl | hmem
      · exact hacct
      · rw [← hledger.accounts]
        exact haccts account' hmem

/-- A store after the import of all its Ethereum accounts, where every address with an entry is one. -/
theorem Imported.slots_eq {st c : Store} (hfit : st.AddressesFit) (h : Imported st st.ethAccounts c)
    (hstorage : ∀ a key, (st.slot a key).isSome → st.IsEth a) (a : Address) (key : Hash) :
    (c.slot a key).map bytesToHash = (st.slot a key).map bytesToHash := by
  by_cases heth : st.IsEth a
  · obtain ⟨sequence, codeHash, hacct⟩ := heth
    exact h.slots (a, codeHash) ((Store.mem_ethAccounts_of_fit hfit).mpr ⟨sequence, hacct⟩) key
  · have hnone : st.slot a key = none := by
      rw [← Option.not_isSome_iff_eq_none]
      exact fun hsome => heth (hstorage a key hsome)
    rw [hnone, h.noSlots a]
    rintro ⟨b, codeHash⟩ hp rfl
    obtain ⟨sequence, hacct⟩ := (Store.mem_ethAccounts_of_fit hfit).mp hp
    exact heth ⟨sequence, codeHash, hacct⟩

/-- The code of every account, also of those that are not imported. -/
theorem Imported.code_eq {st c : Store} (h : Imported st st.ethAccounts c)
    (hcode : ∀ account ∈ st.iterateAccounts, (st.getCode (Store.authCodeHash account.2)).isSome →
      ∃ sequence codeHash, account.2 = .eth sequence codeHash) {account : Bytes × AuthAccount}
    (haccount : account ∈ st.iterateAccounts) :
    c.getCode (Store.authCodeHash account.2) = st.getCode (Store.authCodeHash account.2) := by
  obtain ⟨b, acct⟩ := account
  by_cases himported : ∃ p ∈ st.ethAccounts, p.2 = Store.authCodeHash acct
  · obtain ⟨p, hp, hsame⟩ := himported
    rw [← hsame]
    exact h.code p hp
  · have hnone : st.getCode (Store.authCodeHash acct) = none := by
      rw [← Option.not_isSome_iff_eq_none]
      intro hsome
      obtain ⟨sequence, codeHash, heth⟩ := hcode _ haccount hsome
      obtain rfl : acct = .eth sequence codeHash := heth
      exact himported ⟨(ethAddress b, codeHash), Store.mem_ethAccounts.mpr ⟨b, sequence, haccount, rfl⟩, rfl⟩
    rw [hnone]
    exact h.noCode _ fun p hp hsame => himported ⟨p, hp, hsame⟩

/-- What a store has to be for its state to be taken over: every address with storage and every account with code is
an Ethereum account, and every code hash of an Ethereum account but the empty one is the hash of the code stored
under it. -/
structure Store.Exportable (st : Store) : Prop where
  wellFormed : st.WellFormed
  storage : ∀ a key, (st.slot a key).isSome → st.IsEth a
  code : ∀ account ∈ st.iterateAccounts, (st.getCode (authCodeHash account.2)).isSome →
    ∃ sequence codeHash, account.2 = .eth sequence codeHash
  hash : ∀ b sequence codeHash, (b, AuthAccount.eth sequence codeHash) ∈ st.iterateAccounts →
    codeHash ≠ emptyCodeHash → keccak256 ((st.getCode codeHash).getD []) = codeHash

/-- The hash check passes: a code that is stored is stored under its hash. -/
theorem Store.Exportable.checked {st : Store} (h : st.Exportable) :
    ∀ p ∈ st.ethAccounts, keccak256 ((st.getCode p.2).getD []) = p.2 := by
  rintro ⟨a, codeHash⟩ hp
  obtain ⟨b, sequence, hmem, -⟩ := mem_ethAccounts.mp hp
  by_cases hne : codeHash = emptyCodeHash
  · cases hstored : st.getCode codeHash with
    | none => exact hne.symm
    | some code => exact (h.wellFormed.codesHashed codeHash code hstored).2
  · exact h.hash b sequence codeHash hmem hne

/-- The genesis state was imported, and the import yields the codes of all accounts, every slot and every enumeration
of slots, and exports the same genesis state again. -/
def RoundTrip (m fresh : EvmModule π valid) (id : ℕ) (data : GenesisState π) : Prop :=
  ∃ m', fresh.initGenesis (some id) data = .ok m' ∧
    (∀ account ∈ m.store.iterateAccounts, m'.store.getCode (Store.authCodeHash account.2) =
      m.store.getCode (Store.authCodeHash account.2)) ∧
    (∀ a key, m'.store.getState a key = m.store.getState a key) ∧
    (∀ a, m'.store.getAccountStorage a = m.store.getAccountStorage a) ∧
    m'.exportGenesis = .ok data

/-- What is exported. -/
theorem EvmModule.exportGenesis_ok {m : EvmModule π valid} {data : GenesisState π} (h : m.exportGenesis = .ok data) :
    ∃ params, m.params = some params ∧ data = ⟨m.store.ethAccounts.map (exportAccount m.store), params.1⟩ := by
  unfold EvmModule.exportGenesis at h
  cases hp : m.params with
  | none =>
      rw [hp] at h
      exact absurd h (by simp)
  | some params =>
      rw [hp] at h
      exact ⟨params, rfl, (Except.ok.inj h).symm⟩

/-- The import of valid parameters on the right chain is the loop over the accounts. -/
theorem EvmModule.initGenesis_eq {m : EvmModule π valid} {id : ℕ}
    (hid : m.eip155ChainID = none ∨ m.eip155ChainID = some id) (params : { p : π // valid p = true })
    (accounts : List GenesisAccount) :
    m.initGenesis (some id) ⟨accounts, params.1⟩ =
      (accounts.foldlM initAccount m.store).map fun store => ⟨some id, some params, store⟩ := by
  have hchain : ¬(m.eip155ChainID ≠ none ∧ m.eip155ChainID ≠ some id) := by tauto
  simp only [EvmModule.initGenesis, EvmModule.withChainID, if_neg hchain, EvmModule.setParams, dif_pos params.2,
    bind, Except.bind]
  cases accounts.foldlM initAccount m.store <;> rfl

/-- **When importing an export gives the state back.** Take any byte store of the module that can be exported, and
let a module with an empty byte store over the same accounts import the export, on a chain with the same id or none
yet. The import does not panic and gives the state back if and only if the addresses fit: `EthAddress` crops an
address to its last 20 bytes, and an Ethereum account may be at a longer one. -/
theorem genesis_round_trip_iff {m fresh : EvmModule π valid} {data : GenesisState π} {id : ℕ}
    (hstore : m.store.Exportable) (hexport : m.exportGenesis = .ok data) (hempty : fresh.store.kv = GoMap.empty)
    (haccounts : fresh.store.accounts = m.store.accounts)
    (hothers : fresh.store.otherAccounts = m.store.otherAccounts)
    (hid : fresh.eip155ChainID = none ∨ fresh.eip155ChainID = some id) :
    RoundTrip m fresh id data ↔ m.store.AddressesFit := by
  obtain ⟨params, hparams, rfl⟩ := EvmModule.exportGenesis_ok hexport
  have hinit := EvmModule.initGenesis_eq hid params (m.store.ethAccounts.map (exportAccount m.store))
  constructor
  · -- The import has found an account at the last 20 bytes of every address.
    rintro ⟨m', hrun, -⟩ a sequence codeHash hacct
    rw [hinit] at hrun
    cases hloop : (m.store.ethAccounts.map (exportAccount m.store)).foldlM initAccount fresh.store with
    | error err =>
        rw [hloop] at hrun
        cases hrun
    | ok c =>
        have hexported : (ethAddress a.1, codeHash) ∈ m.store.ethAccounts := Store.mem_ethAccounts.mpr
          ⟨a.1, sequence, Store.mem_iterateAccounts.mpr (Or.inr ⟨a, rfl, hacct⟩), rfl⟩
        obtain ⟨sequence', hget⟩ := (foldlM_initAccount_ok hloop).2 _ (List.mem_map_of_mem hexported)
        simp only [exportAccount, hexToAddress_addressHex, hex2Bytes_bytes2Hex, hstore.checked _ hexported,
          haccounts] at hget
        exact ⟨sequence', hget⟩
  · intro hfit
    obtain ⟨c, hrun, himported⟩ := foldlM_imported hstore.wellFormed
      (fun p (hp : p ∈ m.store.ethAccounts) => (Store.mem_ethAccounts_of_fit hfit).mp hp) hstore.checked
      (imported_empty haccounts hempty)
    rw [List.nil_append] at himported
    have hslots := himported.slots_eq hfit hstore.storage
    have henumerated : ∀ a, c.storageEntries a = m.store.storageEntries a :=
      fun a => Store.storageEntries_congr hstore.wellFormed.keyed himported.keyed (hslots a)
    refine ⟨⟨some id, some params, c⟩, by rw [hinit, hrun]; rfl, ?_, ?_, ?_, ?_⟩
    · intro account haccount
      exact himported.code_eq hstore.code haccount
    · intro a key
      exact Store.getState_congr (hslots a key)
    · intro a
      rw [Store.getAccountStorage, henumerated]
      rfl
    · have hsame : c.ethAccounts.map (exportAccount c) = m.store.ethAccounts.map (exportAccount m.store) := by
        have haccounts' : c.ethAccounts = m.store.ethAccounts := by
          unfold Store.ethAccounts Store.iterateAccounts
          rw [himported.accounts, (foldlM_initAccount_ok hrun).1.otherAccounts, hothers]
        rw [haccounts']
        refine List.map_congr_left ?_
        intro p hp
        simp only [exportAccount, himported.code p hp, Store.getAccountStorage, henumerated]
      rw [EvmModule.exportGenesis, hsame]

end genesis

/-- Two contracts that share their code, one of them with a slot and with a cleared slot, next to a
module account, and an account at a longer address that ends in the address of one of them. -/
theorem genesis_round_trip_contracts :
    letI := sampleKeccak
    let a : Address := .ofNat 20 1
    let b : Address := .ofNat 20 2
    let long : OtherAddress := ⟨FixedBytes.bytes (.ofNat 32 1), by decide⟩
    let key : Hash := .ofNat 32 1
    let accounts : GoMap Address AuthAccount := ((GoMap.empty.set a (.eth 1 (keccak256 [0]))).set b
      (.eth 1 (keccak256 [0]))).set (.ofNat 20 107) (.module 0)
    let others : GoMap OtherAddress AuthAccount := GoMap.empty.set long (.eth 0 (keccak256 [0]))
    let empty : Store := { emptyStore with accounts := accounts, otherAccounts := others }
    let st := ((empty.setCode (keccak256 [0]) [0]).setState a key (FixedBytes.ofNat 32 7).bytes).setState
      a (.ofNat 32 2) (FixedBytes.zero 32).bytes
    let m : EvmModule Params fun _ => true := ⟨some 4221, some ⟨sampleContext.params, rfl⟩, st⟩
    let fresh : EvmModule Params fun _ => true := ⟨none, none, empty⟩
    ∃ data, m.exportGenesis = .ok data ∧ data.accounts.length = 3 ∧ RoundTrip m fresh 4221 data := by
  let _ := sampleKeccak
  intro a b long key accounts others empty st m fresh
  have hslot : ∀ x j, (st.slot x j).isSome → x = a := by
    intro x j hsome
    by_contra hne
    simp only [st, Store.slot_setState, hne, false_and, if_false, Store.slot_setCode] at hsome
    exact absurd hsome (by simp [Store.slot, empty, emptyStore])
  have hcodes : ∀ h, st.getCode h = if h = keccak256 [0] then some [0] else none := by
    intro h
    simp only [st, Store.getCode_setState, Store.getCode_setCode]
    rfl
  have hget : ∀ x, st.accounts.get x = if x = .ofNat 20 107 then some (.module 0) else
      if x = b then some (.eth 1 (keccak256 [0])) else
      if x = a then some (.eth 1 (keccak256 [0])) else none := by
    intro x
    have hacct : st.accounts = accounts := rfl
    rw [hacct]
    simp only [accounts, GoMap.get_set, GoMap.get_empty]
  have hother : ∀ x, st.otherAccounts.get x = if x = long then some (.eth 0 (keccak256 [0])) else none := by
    intro x
    have hacct : st.otherAccounts = others := rfl
    rw [hacct]
    simp only [others, GoMap.get_set, GoMap.get_empty]
  have hmem : ∀ x acct, (x, acct) ∈ st.iterateAccounts →
      acct = .module 0 ∨ ∃ sequence, acct = .eth sequence (keccak256 [0]) := by
    intro x acct hx
    rcases Store.mem_iterateAccounts.mp hx with ⟨y, -, hy⟩ | ⟨y, -, hy⟩
    · rw [hget] at hy
      split_ifs at hy <;> obtain rfl := Option.some.inj hy
      · exact Or.inl rfl
      · exact Or.inr ⟨1, rfl⟩
      · exact Or.inr ⟨1, rfl⟩
    · rw [hother] at hy
      split_ifs at hy
      obtain rfl := Option.some.inj hy
      exact Or.inr ⟨0, rfl⟩
  have hempty : empty.WellFormed := by
    refine ⟨?_, ?_⟩
    · intro k hk
      exact absurd hk (by simp [empty, emptyStore])
    · intro h code hcode
      exact absurd hcode (by simp [empty, emptyStore, Store.getCode])
  have hstore : st.Exportable := by
    refine ⟨((hempty.setCode fun _ => rfl).setState _ _ _).setState _ _ _, ?_, ?_, ?_⟩
    · intro x j hsome
      rw [hslot x j hsome]
      exact ⟨1, keccak256 [0], hget a⟩
    · rintro ⟨x, acct⟩ hx hsome
      rcases hmem x acct hx with rfl | ⟨sequence, rfl⟩
      · have hnone : st.getCode emptyCodeHash = none := by decide +kernel
        rw [Option.isSome_iff_ne_none] at hsome
        exact absurd hnone hsome
      · exact ⟨sequence, _, rfl⟩
    · intro x sequence codeHash hx _
      rcases hmem x _ hx with hmodule | ⟨sequence', heth⟩
      · exact absurd hmodule (by simp)
      · rw [(AuthAccount.eth.inj heth).2, hcodes]
        rfl
  have hfit : st.AddressesFit := by
    intro x sequence codeHash hx
    rw [hother] at hx
    split_ifs at hx with hlong
    obtain ⟨-, rfl⟩ := AuthAccount.eth.inj (Option.some.inj hx)
    rw [hlong]
    exact ⟨1, hget a⟩
  exact ⟨_, rfl, by decide +kernel,
    (@genesis_round_trip_iff _ Params (fun _ => true) m fresh _ 4221 hstore rfl rfl rfl rfl (Or.inl rfl)).mpr hfit⟩

/-- An Ethereum account without code at an address of 32 bytes, as the bank module makes for a recipient of coins:
all conditions on the store hold, the account is exported under the last 20 bytes of its address, and the import
panics, as there is no account at these. -/
theorem genesis_longAddress_panics :
    letI := sampleKeccak
    let long : OtherAddress := ⟨FixedBytes.bytes (.ofNat 32 1), by decide⟩
    let st : Store := { emptyStore with otherAccounts := GoMap.empty.set long (.eth 0 (keccak256 [])) }
    let m : EvmModule Params fun _ => true := ⟨some 4221, some ⟨sampleContext.params, rfl⟩, st⟩
    let fresh : EvmModule Params fun _ => true := ⟨none, none, st⟩
    st.Exportable ∧ ∃ data, m.exportGenesis = .ok data ∧
      fresh.initGenesis (some 4221) data = .error (.accountNotFound "0x0000000000000000000000000000000000000001") := by
  let _ := sampleKeccak
  intro long st m fresh
  have hmem : ∀ x acct, (x, acct) ∈ st.iterateAccounts → acct = .eth 0 emptyCodeHash := by
    intro x acct hx
    rcases Store.mem_iterateAccounts.mp hx with ⟨y, -, hy⟩ | ⟨y, -, hy⟩
    · exact absurd hy (by simp [st, emptyStore])
    · simp only [st, GoMap.get_set, GoMap.get_empty] at hy
      split_ifs at hy
      exact (Option.some.inj hy).symm
  have hloop : (st.ethAccounts.map (exportAccount st)).foldlM initAccount st =
      .error (.accountNotFound "0x0000000000000000000000000000000000000001") := by decide +kernel
  refine ⟨⟨⟨?_, ?_⟩, ?_, ?_, ?_⟩, _, rfl, ?_⟩
  · intro k hk
    exact absurd hk (by simp [st, emptyStore])
  · intro h code hcode
    exact absurd hcode (by simp [st, emptyStore, Store.getCode])
  · intro x j hsome
    exact absurd hsome (by simp [Store.slot, st, emptyStore])
  · rintro ⟨x, acct⟩ hx -
    exact ⟨0, emptyCodeHash, hmem x acct hx⟩
  · intro x sequence codeHash hx hne
    exact absurd (AuthAccount.eth.inj (hmem x _ hx)).2 hne
  · refine (EvmModule.initGenesis_eq (Or.inl rfl) ⟨sampleContext.params, rfl⟩ _).trans ?_
    rw [hloop]
    rfl

end Smartdoge.Evm
