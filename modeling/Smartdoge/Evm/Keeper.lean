import Smartdoge.Evm.Bank
import Smartdoge.Statedb.StateDB

/-!
# The keeper of the EVM module

`x/evm/keeper/statedb.go`: the storage that a `StateDB` works on in production. An account is put
together from three places: its nonce and code hash from `x/auth`, its balance from `x/bank`, its
code and storage from the byte store of the module. `evmKeeper` is this keeper as an instance of the
interface `Statedb.Keeper`.

The byte store is modelled at the level of its keys (`types/key.go`): one prefix for codes, one
for storage, with the address and the slot behind it. The small lemmas at the end say which keys
are distinct and what each write does to each read.
-/

set_option linter.unusedSectionVars false

namespace Smartdoge.Evm

open Smartdoge.Lib
open Smartdoge.Lib.Writes
open Smartdoge.Statedb (KeeperError Account amountAt amountAt_apply)

/-! ## Keys of the byte store -/

/-- Source: `types/key.go` `KeyPrefixCode` -/
def keyPrefixCode : Bytes := [1]

/-- Source: `types/key.go` `KeyPrefixStorage` -/
def keyPrefixStorage : Bytes := [2]

/-- Source: `types/key.go` `AddressStoragePrefix` -/
def addressStoragePrefix (address : Address) : Bytes := keyPrefixStorage ++ address.bytes

/-- Source: `types/key.go` `StateKey` -/
def stateKey (address : Address) (key : Bytes) : Bytes := addressStoragePrefix address ++ key

/-- The key of a code in the prefix store of codes. -/
def codeKey (codeHash : Hash) : Bytes := keyPrefixCode ++ codeHash.bytes

namespace Store

/-! ## Reads -/

/-- Source: `statedb.go` `GetState` -/
def getState (st : Store) (addr : Address) (key : Hash) : Hash :=
  let value := (st.kv.get (stateKey addr key.bytes)).getD []
  if value = [] then FixedBytes.zero 32 else bytesToHash value

/-- Source: `statedb.go` `GetCode` -/
def getCode (st : Store) (codeHash : Hash) : Option Bytes := st.kv.get (codeKey codeHash)

/-- The entries the iteration visits: every key with the prefix of the address, in order. The
slot is read off the last bytes of the key.
Source: `statedb.go` `ForEachStorage` -/
def storageEntries (st : Store) (addr : Address) : List (Hash × Hash) :=
  ((GoMap.sortedKeys (· ≤ ·) st.kv).filter (addressStoragePrefix addr).isPrefixOf).map fun key =>
    (bytesToHash key, bytesToHash ((st.kv.get key).getD []))

/-- Source: `keeper.go` `GetNonce` -/
def getNonce (st : Store) (addr : Address) : UInt64 :=
  match st.accounts.get addr with
  | some acct => acct.sequence
  | none => 0

variable [Keccak]

/-- The code hash of an account, empty for accounts that are no Ethereum accounts.
Source: `keeper.go` `GetAccountWithoutBalance` -/
def authCodeHash : AuthAccount → Hash
  | .eth _ codeHash => codeHash
  | _ => emptyCodeHash

/-- Source: `statedb.go` `GetAccount` -/
def getAccount (st : Store) (addr : Address) : Option Account :=
  (st.accounts.get addr).map fun acct => ⟨acct.sequence, st.balance addr, authCodeHash acct⟩

/-- The code hash of the account at an address, the empty one if there is no account. -/
def codeHash (st : Store) (a : Address) : Hash :=
  ((st.accounts.get a).map authCodeHash).getD emptyCodeHash

/-! ## Writes -/

/-- Set a slot, or delete it if the value is empty.
Source: `statedb.go` `SetState` -/
def setState (addr : Address) (key : Hash) (value : Bytes) (st : Store) : Store :=
  if value = [] then { st with kv := st.kv.delete (stateKey addr key.bytes) }
  else { st with kv := st.kv.set (stateKey addr key.bytes) value }

/-- Set a code, or delete it if it is empty.
Source: `statedb.go` `SetCode` -/
def setCode (codeHash : Hash) (code : Bytes) (st : Store) : Store :=
  if code = [] then { st with kv := st.kv.delete (codeKey codeHash) }
  else { st with kv := st.kv.set (codeKey codeHash) code }

end Store

/-- `acct.SetSequence(nonce)`, and `ethAcct.SetCodeHash(codeHash)` where the account is an
`EthAccountI`. -/
def AuthAccount.update (env : Env) (nonce : UInt64) (codeHash : Hash) :
    AuthAccount → Except KeeperError AuthAccount
  | .eth _ _ => .ok (.eth nonce codeHash)
  | .module _ => if env.moduleSequence then .ok (.module nonce) else .error .sequenceNotSupported
  | .other _ locked => .ok (.other nonce locked)

/-- `acct.SetSequence(nonce)` alone. -/
def AuthAccount.setSequence (env : Env) (nonce : UInt64) : AuthAccount → Except KeeperError AuthAccount
  | .eth _ codeHash => .ok (.eth nonce codeHash)
  | .module _ => if env.moduleSequence then .ok (.module nonce) else .error .sequenceNotSupported
  | .other _ locked => .ok (.other nonce locked)

section keeper

variable [Keccak] (env : Env)

/-- Compare with the current balance, then mint or burn the difference.
Source: `statedb.go` `SetBalance` -/
def setBalance (addr : Address) (amount : ℤ) : Write := fun st =>
  let delta := amount - st.balance addr
  if 0 < delta then
    (do
      mintCoins env .evm delta.toNat
      sendCoinsFromModuleToAccount env .evm addr delta.toNat : Write) st
  else if delta < 0 then
    (do
      sendCoinsFromAccountToModule env addr .evm (-delta).toNat
      burnCoins env .evm (-delta).toNat : Write) st
  else .ok () st

/-- Source: `statedb.go` `SetAccount` -/
def setAccount (addr : Address) (account : Account) : Write := fun st =>
  let acct := (st.accounts.get addr).getD newAccount
  match acct.update env account.nonce account.codeHash with
  | .error err => .error err st
  | .ok acct => setBalance env addr account.balance (st.setAuth addr acct)

/-- Source: `statedb.go` `DeleteAccount`, `// remove code` -/
def removeCode (codeHash : Hash) (st : Store) : Store :=
  if codeHash = emptyCodeHash then st else st.setCode codeHash []

/-- The entries are those there when the iteration starts.
Source: `statedb.go` `DeleteAccount`, `// clear storage` -/
def clearStorage (addr : Address) (st : Store) : Store :=
  (st.storageEntries addr).foldl (fun st entry => st.setState addr entry.1 []) st

/-- Source: `statedb.go` `DeleteAccount`, `// remove auth account` -/
def removeAccount (addr : Address) (st : Store) : Store :=
  { st with accounts := st.accounts.delete addr }

/-- Source: `statedb.go` `DeleteAccount` -/
def deleteAccount (addr : Address) : Write := fun st =>
  match st.accounts.get addr with
  | none => .ok () st
  -- Only Ethereum accounts (contracts) can be selfdestructed.
  | some (.eth _ codeHash) =>
    (do
      setBalance env addr 0
      modify fun st => removeAccount addr (clearStorage addr (removeCode codeHash st)) : Write) st
  | some _ => .error .invalidAccount st

/-- The keeper of the EVM module, as the storage of a `StateDB`.
Source: `statedb.go` `var _ statedb.Keeper = &Keeper{}` -/
def evmKeeper : Statedb.Keeper Store where
  getAccount := Store.getAccount
  getState := Store.getState
  getCode := Store.getCode
  storageEntries := Store.storageEntries
  setAccount := setAccount env
  setState := Store.setState
  setCode := Store.setCode
  deleteAccount := deleteAccount env

/-! ## Distinct keys -/

omit [Keccak] in
/-- Codes and slots are stored under different prefixes. -/
theorem codeKey_ne_stateKey (codeHash : Hash) (a : Address) (key : Bytes) :
    codeKey codeHash ≠ stateKey a key := by
  simp [codeKey, stateKey, addressStoragePrefix, keyPrefixCode, keyPrefixStorage]

omit [Keccak] in
/-- Different codes have different keys. -/
theorem codeKey_inj {h h' : Hash} : codeKey h = codeKey h' ↔ h = h' := by
  constructor
  · intro heq
    apply FixedBytes.ext
    simpa [codeKey] using heq
  · rintro rfl
    rfl

omit [Keccak] in
/-- Different slots have different keys. -/
theorem stateKey_inj {a b : Address} {key key' : Hash} :
    stateKey a key.bytes = stateKey b key'.bytes ↔ a = b ∧ key = key' := by
  constructor
  · intro heq
    simp only [stateKey, addressStoragePrefix, keyPrefixStorage, List.cons_append,
      List.nil_append, List.cons.injEq, true_and] at heq
    obtain ⟨ha, hkey⟩ := List.append_inj heq (by rw [a.length_eq, b.length_eq])
    exact ⟨FixedBytes.ext ha, FixedBytes.ext hkey⟩
  · rintro ⟨rfl, rfl⟩
    rfl

/-! ## What the writes do to the reads -/

namespace Store

/-- The entry of the byte store for a slot. -/
def slot (st : Store) (a : Address) (key : Hash) : Option Bytes := st.kv.get (stateKey a key.bytes)

omit [Keccak] in
/-- A slot without an entry reads as zero, and so does one with an empty entry. -/
theorem getState_eq_slot (st : Store) (a : Address) (key : Hash) :
    st.getState a key = bytesToHash ((st.slot a key).getD []) := by
  simp only [getState, slot]
  split_ifs with hempty
  · rw [hempty]
    rfl
  · rfl

omit [Keccak] in
/-- The stored slots after one of them was set: an empty value deletes it. -/
theorem slot_setState (st : Store) (a b : Address) (key j : Hash) (value : Bytes) :
    (st.setState a key value).slot b j =
      if b = a ∧ j = key then (if value = [] then none else some value) else st.slot b j := by
  unfold setState slot
  by_cases hkey : b = a ∧ j = key
  · rw [if_pos hkey, hkey.1, hkey.2]
    split_ifs
    · exact GoMap.get_delete_self _ _
    · exact GoMap.get_set_self _ _ _
  · have hne : stateKey b j.bytes ≠ stateKey a key.bytes := fun h => hkey (stateKey_inj.mp h)
    rw [if_neg hkey]
    split_ifs
    · exact GoMap.get_delete_of_ne _ hne
    · exact GoMap.get_set_of_ne _ hne _

omit [Keccak] in
/-- Storing a code leaves the slots alone. -/
theorem slot_setCode (st : Store) (codeHash : Hash) (code : Bytes) :
    (st.setCode codeHash code).slot = st.slot := by
  funext a key
  have hne := Ne.symm (codeKey_ne_stateKey codeHash a key.bytes)
  unfold setCode slot
  split_ifs
  · exact GoMap.get_delete_of_ne _ hne
  · exact GoMap.get_set_of_ne _ hne _

omit [Keccak] in
/-- Setting a slot leaves the codes alone. -/
theorem getCode_setState (st : Store) (a : Address) (key : Hash) (value : Bytes) :
    (st.setState a key value).getCode = st.getCode := by
  funext h
  have hne := codeKey_ne_stateKey h a key.bytes
  unfold setState getCode
  split_ifs
  · exact GoMap.get_delete_of_ne _ hne
  · exact GoMap.get_set_of_ne _ hne _

omit [Keccak] in
/-- The codes after one of them was stored: an empty one is deleted. -/
theorem getCode_setCode (st : Store) (codeHash h : Hash) (code : Bytes) :
    (st.setCode codeHash code).getCode h =
      if h = codeHash then (if code = [] then none else some code) else st.getCode h := by
  unfold setCode getCode
  by_cases hh : h = codeHash
  · subst hh
    rw [if_pos rfl]
    split_ifs <;> simp
  · have hne : codeKey h ≠ codeKey codeHash := fun heq => hh (codeKey_inj.mp heq)
    rw [if_neg hh]
    split_ifs
    · exact GoMap.get_delete_of_ne _ hne
    · exact GoMap.get_set_of_ne _ hne _

/-- Storing a code leaves the values of the slots alone. -/
theorem getState_setCode (st : Store) (codeHash : Hash) (code : Bytes) :
    (st.setCode codeHash code).getState = st.getState := by
  funext a key
  rw [getState_eq_slot, getState_eq_slot, slot_setCode]

/-- A write to the byte store alone. -/
structure SameLedger (st st' : Store) : Prop where
  accounts : st'.accounts = st.accounts
  balances : st'.balances = st.balances
  supply : st'.supply = st.supply
  transient : st'.transient = st.transient
  otherAccounts : st'.otherAccounts = st.otherAccounts

/-- Setting a slot leaves accounts and coins alone. -/
theorem setState_sameLedger (st : Store) (a : Address) (key : Hash) (value : Bytes) :
    SameLedger st (st.setState a key value) := by
  unfold setState
  split_ifs <;> exact ⟨rfl, rfl, rfl, rfl, rfl⟩

/-- So does storing a code. -/
theorem setCode_sameLedger (st : Store) (codeHash : Hash) (code : Bytes) :
    SameLedger st (st.setCode codeHash code) := by
  unfold setCode
  split_ifs <;> exact ⟨rfl, rfl, rfl, rfl, rfl⟩

/-- Two writes that leave accounts and coins alone do so together. -/
theorem SameLedger.trans {st₁ st₂ st₃ : Store} (h : SameLedger st₁ st₂) (h' : SameLedger st₂ st₃) :
    SameLedger st₁ st₃ :=
  ⟨h'.accounts.trans h.accounts, h'.balances.trans h.balances, h'.supply.trans h.supply,
    h'.transient.trans h.transient, h'.otherAccounts.trans h.otherAccounts⟩

/-- The balances are the same. -/
theorem SameLedger.balance {st st' : Store} (h : SameLedger st st') (a : Address) :
    st'.balance a = st.balance a := by
  unfold Store.balance
  rw [h.balances]

/-! ### The storage of one address -/

/-- Every slot in use is among the entries the iteration visits. -/
theorem mem_storageEntries {st : Store} {a : Address} {key : Hash}
    (h : (st.slot a key).isSome) :
    ∃ value, (key, value) ∈ st.storageEntries a := by
  refine ⟨bytesToHash ((st.kv.get (stateKey a key.bytes)).getD []), ?_⟩
  unfold storageEntries
  rw [List.mem_map]
  refine ⟨stateKey a key.bytes, ?_, ?_⟩
  · rw [List.mem_filter]
    refine ⟨(GoMap.mem_sortedKeys _).mpr h, ?_⟩
    rw [List.isPrefixOf_iff_prefix]
    exact List.prefix_append _ _
  · have hkey : bytesToHash (stateKey a key.bytes) = key := FixedBytes.ofBytes_append _ key
    rw [hkey]

/-- Writing slots of one address one by one, each with its own value. -/
theorem foldl_setState (values : Hash → Bytes) (keys : List Hash) (st : Store) (a : Address) :
    let st' := keys.foldl (fun st key => st.setState a key (values key)) st
    SameLedger st st' ∧ st'.getCode = st.getCode ∧
      ∀ b key, st'.slot b key =
        if b = a ∧ key ∈ keys then (if values key = [] then none else some (values key))
        else st.slot b key := by
  induction keys generalizing st with
  | nil => exact ⟨⟨rfl, rfl, rfl, rfl, rfl⟩, rfl, by simp⟩
  | cons key keys ih =>
      obtain ⟨h₁, h₂, h₃⟩ := ih (st.setState a key (values key))
      refine ⟨(setState_sameLedger st a key (values key)).trans h₁,
        h₂.trans (getCode_setState st a key (values key)), ?_⟩
      intro b j
      rw [List.foldl_cons, h₃ b j, slot_setState]
      by_cases hj : j = key
      · subst hj
        by_cases hba : b = a <;> simp [hba]
      · simp only [List.mem_cons, hj, false_or, and_false, if_false]

end Store

/-- The slots of an account are deleted one by one. -/
theorem clearStorage_eq (st : Store) (a : Address) :
    clearStorage a st =
      ((st.storageEntries a).map Prod.fst).foldl (fun st key => st.setState a key []) st := by
  rw [clearStorage, List.foldl_map]

/-- Clearing the storage of an address leaves it without an entry, and all else as it was. -/
theorem slot_clearStorage (st : Store) (a b : Address) (key : Hash) :
    (clearStorage a st).slot b key = if b = a then none else st.slot b key := by
  rw [clearStorage_eq, (Store.foldl_setState (fun _ => []) _ st a).2.2 b key]
  by_cases hba : b = a
  · subst hba
    by_cases hmem : key ∈ (st.storageEntries b).map Prod.fst
    · simp [hmem]
    · rw [if_neg fun h => hmem h.2, if_pos (rfl : b = b)]
      by_contra hsome
      obtain ⟨value, hvalue⟩ := Store.mem_storageEntries (Option.isSome_iff_ne_none.mpr hsome)
      exact hmem (List.mem_map.mpr ⟨_, hvalue, rfl⟩)
  · simp [hba]

/-- All slots of the account are zero after it, and those of others as before. -/
theorem getState_clearStorage (st : Store) (a b : Address) (key : Hash) :
    (clearStorage a st).getState b key =
      if b = a then FixedBytes.zero 32 else st.getState b key := by
  rw [Store.getState_eq_slot, Store.getState_eq_slot, slot_clearStorage]
  split_ifs
  · rfl
  · rfl

/-- Clearing a storage leaves the codes alone. -/
theorem getCode_clearStorage (st : Store) (a : Address) :
    (clearStorage a st).getCode = st.getCode := by
  rw [clearStorage_eq]
  exact (Store.foldl_setState (fun _ => []) _ st a).2.1

/-- It leaves accounts and coins alone. -/
theorem clearStorage_sameLedger (st : Store) (a : Address) :
    Store.SameLedger st (clearStorage a st) := by
  rw [clearStorage_eq]
  exact (Store.foldl_setState (fun _ => []) _ st a).1

/-- The code with the hash is removed, unless it is the hash of no code. -/
theorem getCode_removeCode (st : Store) (codeHash h : Hash) :
    (removeCode codeHash st).getCode h =
      if h = codeHash ∧ codeHash ≠ emptyCodeHash then none else st.getCode h := by
  unfold removeCode
  by_cases hempty : codeHash = emptyCodeHash
  · simp [hempty]
  · simp [hempty, Store.getCode_setCode]

/-- Removing a code leaves the slots alone. -/
theorem slot_removeCode (st : Store) (codeHash : Hash) :
    (removeCode codeHash st).slot = st.slot := by
  unfold removeCode
  split_ifs
  · rfl
  · exact Store.slot_setCode st codeHash []

/-- It leaves their values alone. -/
theorem getState_removeCode (st : Store) (codeHash : Hash) :
    (removeCode codeHash st).getState = st.getState := by
  funext a key
  rw [Store.getState_eq_slot, Store.getState_eq_slot, slot_removeCode]

/-- It leaves accounts and coins alone. -/
theorem removeCode_sameLedger (st : Store) (codeHash : Hash) :
    Store.SameLedger st (removeCode codeHash st) := by
  unfold removeCode
  split_ifs
  · exact ⟨rfl, rfl, rfl, rfl, rfl⟩
  · exact Store.setCode_sameLedger st codeHash []

/-! ## What the fallible writes do -/

/-- **Setting a balance** mints or burns the difference, at the address. -/
theorem setBalance_ok {a : Address} {amount : ℤ} {st st' : Store}
    (h : setBalance env a amount st = .ok () st') :
    Moves [env.moduleAddress .evm, a] (amountAt a (amount - st.balance a)) (amount - st.balance a)
      st st' := by
  simp only [setBalance] at h
  split_ifs at h with hpos hneg
  · obtain ⟨⟨⟩, st₁, h₁, h₂⟩ := bind_ok.mp h
    have hmint := mintCoins_ok env h₁
    obtain ⟨-, -, hsend⟩ := sendCoinsFromModuleToAccount_ok env h₂
    have hdelta : ((amount - st.balance a).toNat : ℤ) = amount - st.balance a := by omega
    refine (hmint.trans hsend).congr (by simp) ?_ (by omega)
    intro b
    simp only [amountAt_apply, hdelta]
    split_ifs <;> omega
  · obtain ⟨⟨⟩, st₁, h₁, h₂⟩ := bind_ok.mp h
    obtain ⟨-, -, hsend⟩ := sendCoinsFromAccountToModule_ok env h₁
    have hburn := burnCoins_ok env h₂
    have hdelta : ((-(amount - st.balance a)).toNat : ℤ) = -(amount - st.balance a) := by omega
    refine (hsend.trans hburn).congr (by simp) ?_ (by omega)
    intro b
    simp only [amountAt_apply, hdelta]
    split_ifs <;> omega
  · obtain rfl : st = st' := by simpa using h
    refine (Moves.refl st).congr (by simp) ?_ (by omega)
    intro b
    simp only [amountAt_apply]
    split_ifs <;> omega

/-- Moving coins changes no nonce: an account the bank makes has nonce 0, as a missing one. -/
theorem Moves.getNonce {new : List Address} {delta : Address → ℤ} {minted : ℤ} {st st' : Store}
    (h : Moves new delta minted st st') (a : Address) : st'.getNonce a = st.getNonce a := by
  unfold Store.getNonce
  cases hacct : st.accounts.get a with
  | some acct => rw [h.kept a acct hacct]
  | none =>
      cases hacct' : st'.accounts.get a with
      | none => rfl
      | some acct =>
          rcases h.fresh a acct hacct hacct' with rfl | rfl
          · rfl
          · rfl

/-- Moving coins changes no code hash: an account the bank makes has the empty one, as a missing one. -/
theorem Moves.codeHash {new : List Address} {delta : Address → ℤ} {minted : ℤ} {st st' : Store}
    (h : Moves new delta minted st st') (a : Address) : st'.codeHash a = st.codeHash a := by
  unfold Store.codeHash
  cases hacct : st.accounts.get a with
  | some acct => rw [h.kept a acct hacct]
  | none =>
      cases hacct' : st'.accounts.get a with
      | none => rfl
      | some acct =>
          rcases h.fresh a acct hacct hacct' with rfl | rfl
          · rfl
          · rfl

/-- An address that may not receive coins is not credited. -/
theorem setBalance_blocked {a : Address} (hblocked : env.blocked a = true) {amount : ℤ} {st st' : Store}
    (h : setBalance env a amount st = .ok () st') : amount ≤ st.balance a := by
  simp only [setBalance] at h
  split_ifs at h with hpos hneg
  · obtain ⟨⟨⟩, st₁, -, h₂⟩ := bind_ok.mp h
    obtain ⟨hfree, -, -⟩ := sendCoinsFromModuleToAccount_ok env h₂
    rw [hblocked] at hfree
    exact absurd hfree (by simp)
  · omega
  · omega

/-- A `SetAccount` that returned: the account is written, then its balance is set. -/
theorem setAccount_run {a : Address} {account : Account} {st st' : Store}
    (h : setAccount env a account st = .ok () st') :
    ∃ acct, ((st.accounts.get a).getD newAccount).update env account.nonce account.codeHash = .ok acct ∧
      setBalance env a account.balance (st.setAuth a acct) = .ok () st' := by
  simp only [setAccount] at h
  split at h
  · exact absurd h (by simp)
  · rename_i acct hacct
    exact ⟨acct, hacct, h⟩

/-- The same, with what it does to the ledger. -/
theorem setAccount_ok {a : Address} {account : Account} {st st' : Store}
    (h : setAccount env a account st = .ok () st') :
    ∃ acct, ((st.accounts.get a).getD newAccount).update env account.nonce account.codeHash = .ok acct ∧
      Moves [env.moduleAddress .evm, a] (amountAt a (account.balance - st.balance a))
        (account.balance - st.balance a) (st.setAuth a acct) st' := by
  obtain ⟨acct, hacct, hbalance⟩ := setAccount_run env h
  exact ⟨acct, hacct, setBalance_ok env hbalance⟩

/-- `SetAccount` does not credit an address that may not receive coins. -/
theorem setAccount_blocked {a : Address} (hblocked : env.blocked a = true) {account : Account}
    {st st' : Store} (h : setAccount env a account st = .ok () st') :
    account.balance ≤ st.balance a := by
  obtain ⟨acct, -, hbalance⟩ := setAccount_run env h
  exact (setBalance_blocked env hblocked hbalance : account.balance ≤ ((st.setAuth a acct).balance a : ℤ))

/-- A `DeleteAccount` that returned: there was no account, or an Ethereum account whose balance was cleared before
the account was taken away. -/
theorem deleteAccount_run {a : Address} {st st' : Store} (h : deleteAccount env a st = .ok () st') :
    (st.accounts.get a = none ∧ st' = st) ∨
    ∃ sequence codeHash st₁, st.accounts.get a = some (.eth sequence codeHash) ∧
      setBalance env a 0 st = .ok () st₁ ∧ st' = removeAccount a (clearStorage a (removeCode codeHash st₁)) := by
  unfold deleteAccount at h
  split at h
  · rename_i hnone
    obtain rfl : st = st' := by simpa using h
    exact Or.inl ⟨hnone, rfl⟩
  · rename_i sequence codeHash hacct
    obtain ⟨⟨⟩, st₁, h₁, h₂⟩ := bind_ok.mp h
    obtain rfl := modify_ok.mp h₂
    exact Or.inr ⟨sequence, codeHash, st₁, hacct, h₁, rfl⟩
  · exact absurd h (by simp)

/-- The same, with what it does to the ledger. -/
theorem deleteAccount_ok {a : Address} {st st' : Store} (h : deleteAccount env a st = .ok () st') :
    (st.accounts.get a = none ∧ st' = st) ∨
    ∃ sequence codeHash st₁, st.accounts.get a = some (.eth sequence codeHash) ∧
      Moves [env.moduleAddress .evm, a] (amountAt a (-st.balance a)) (-st.balance a) st st₁ ∧
      st' = removeAccount a (clearStorage a (removeCode codeHash st₁)) := by
  rcases deleteAccount_run env h with hnone | ⟨sequence, codeHash, st₁, hacct, hbalance, hst'⟩
  · exact Or.inl hnone
  · have hmoves := setBalance_ok env hbalance
    rw [zero_sub] at hmoves
    exact Or.inr ⟨sequence, codeHash, st₁, hacct, hmoves, hst'⟩

end keeper

end Smartdoge.Evm
