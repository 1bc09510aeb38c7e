import Mathlib.Algebra.Group.Pi.Basic
import Mathlib.Algebra.Ring.Int.Defs
import Smartdoge.Lib.GoMap
import Smartdoge.Types.Bytes

/-!
# Accounts, the keeper interface and state objects

`statedb/interfaces.go` and `statedb/state_object.go`.

* `Keeper σ` is the storage interface under a `StateDB`, over a store `σ` (what the keeper reaches
  through `sdk.Context`). Reads are functions of the store. Writes are `EStateM`: a write that
  returns an error keeps whatever it had written before the error.
* `StateObject` is one account of the working state with its caches. The read methods (`getCode`,
  `getCommittedState`, `getState`) fill the caches, so each returns the object it leaves behind.
  The raw setters (`setBalance`, `setNonce`, `setCode`, `setState`) do not touch the journal; the
  exported setters of the source, which do, are in `StateDB.lean`.
-/

set_option linter.unusedSectionVars false

namespace Smartdoge.Statedb

open Smartdoge.Lib

/-- An account as `x/evm` sees it. `Balance` and `CodeHash` are a pointer and a slice in Go;
`newObject` replaces a `nil` by zero and by `emptyCodeHash`, so neither is ever `nil` here.
Source: `state_object.go` `Account` -/
structure Account where
  nonce : UInt64
  balance : ℤ
  codeHash : Hash
deriving DecidableEq

/-- Money in or out at one address. -/
def amountAt (a : Address) (amount : ℤ) : Address → ℤ := Pi.single a amount

/-- An amount at one address. -/
theorem amountAt_apply (a b : Address) (amount : ℤ) :
    amountAt a amount b = if b = a then amount else 0 :=
  Pi.single_apply a amount b

/-- It is that at the address. -/
@[simp] theorem amountAt_self (a : Address) (amount : ℤ) : amountAt a amount a = amount := by
  rw [amountAt_apply, if_pos rfl]

/-- It is zero elsewhere. -/
theorem amountAt_of_ne {a b : Address} (h : b ≠ a) (amount : ℤ) : amountAt a amount b = 0 := by
  rw [amountAt_apply, if_neg h]

/-- Zero at one address is zero everywhere. -/
theorem amountAt_zero (a : Address) : amountAt a 0 = 0 := Pi.single_zero a

/-- An error returned by a write of a keeper, or a panic of the modules under it. -/
inductive KeeperError where
  /-- The bank refused a transfer to a blocked address. -/
  | blockedAddress
  /-- The bank refused a debit for lack of unlocked funds. -/
  | insufficientFunds
  /-- The bank panicked: the supply would become negative. -/
  | negativeSupply
  /-- The bank panicked: the module has no permission to mint or burn. -/
  | noPermission
  /-- The auth module panicked: the account at a module's address is no module account. -/
  | notModuleAccount
  /-- The account type does not let its sequence be set. -/
  | sequenceNotSupported
  /-- `types.ErrInvalidAccount`: the account is not an Ethereum account. -/
  | invalidAccount
deriving DecidableEq

/-- The storage under a `StateDB`.
Source: `interfaces.go` `Keeper` -/
structure Keeper (σ : Type) where
  getAccount : σ → Address → Option Account
  getState : σ → Address → Hash → Hash
  /-- `none` is a `nil` slice. -/
  getCode : σ → Hash → Option Bytes
  /-- The entries a storage iteration visits, in its order. -/
  storageEntries : σ → Address → List (Hash × Hash)
  setAccount : Address → Account → EStateM KeeperError σ Unit
  setState : Address → Hash → Bytes → σ → σ
  setCode : Hash → Bytes → σ → σ
  deleteAccount : Address → EStateM KeeperError σ Unit

variable [Keccak]

/-- Source: `state_object.go` `NewEmptyAccount`; also what `newObject` makes of `Account{}` -/
def Account.newEmpty : Account := ⟨0, 0, emptyCodeHash⟩

/-- Source: `state_object.go` `Account.IsContract` -/
def Account.isContract (acct : Account) : Bool := acct.codeHash ≠ emptyCodeHash

/-- In-memory cache of contract storage.
Source: `state_object.go` `Storage` -/
abbrev Storage := GoMap Hash Hash

/-- Source: `state_object.go` `Storage.SortedKeys` -/
def Storage.sortedKeys (s : Storage) : List Hash := GoMap.sortedKeys FixedBytes.le s

/-- One account of the working state.
Source: `state_object.go` `stateObject` -/
structure StateObject where
  account : Account
  /-- The code, once it was read or set; `none` is `nil`. -/
  code : Option Bytes
  originStorage : Storage
  dirtyStorage : Storage
  address : Address
  dirtyCode : Bool
  suicided : Bool
deriving DecidableEq

/-- Source: `state_object.go` `newObject` -/
def newObject (address : Address) (account : Account) : StateObject where
  account := account
  code := none
  originStorage := GoMap.empty
  dirtyStorage := GoMap.empty
  address := address
  dirtyCode := false
  suicided := false

namespace StateObject

/-- Source: `state_object.go` `stateObject.empty` -/
def empty (o : StateObject) : Bool :=
  o.account.nonce = 0 ∧ o.account.balance = 0 ∧ o.account.codeHash = emptyCodeHash

/-- Source: `state_object.go` `stateObject.markSuicided` -/
def markSuicided (o : StateObject) : StateObject := { o with suicided := true }

/-- Source: `state_object.go` `stateObject.setBalance` -/
def setBalance (o : StateObject) (amount : ℤ) : StateObject :=
  { o with account := { o.account with balance := amount } }

/-- Source: `state_object.go` `stateObject.setNonce` -/
def setNonce (o : StateObject) (nonce : UInt64) : StateObject :=
  { o with account := { o.account with nonce := nonce } }

/-- Source: `state_object.go` `stateObject.setCode` -/
def setCode (o : StateObject) (codeHash : Hash) (code : Option Bytes) : StateObject :=
  { o with code := code, account := { o.account with codeHash := codeHash }, dirtyCode := true }

/-- Source: `state_object.go` `stateObject.setState` -/
def setState (o : StateObject) (key value : Hash) : StateObject :=
  { o with dirtyStorage := o.dirtyStorage.set key value }

variable {σ : Type} (k : Keeper σ) (ctx : σ)

/-- Source: `state_object.go` `stateObject.Code` -/
def getCode (o : StateObject) : Option Bytes × StateObject :=
  match o.code with
  | some code => (some code, o)
  | none =>
    if o.account.codeHash = emptyCodeHash then (none, o)
    else
      let code := k.getCode ctx o.account.codeHash
      (code, { o with code := code })

/-- Source: `state_object.go` `stateObject.GetCommittedState` -/
def getCommittedState (o : StateObject) (key : Hash) : Hash × StateObject :=
  match o.originStorage.get key with
  | some value => (value, o)
  | none =>
    let value := k.getState ctx o.address key
    (value, { o with originStorage := o.originStorage.set key value })

/-- Source: `state_object.go` `stateObject.GetState` -/
def getState (o : StateObject) (key : Hash) : Hash × StateObject :=
  match o.dirtyStorage.get key with
  | some value => (value, o)
  | none => o.getCommittedState k ctx key

end StateObject

/-! ## Code reads -/

section code

variable {σ : Type} (k : Keeper σ) (ctx : σ)

/-- The code an object with these fields returns. -/
def codeView (code : Option Bytes) (codeHash : Hash) : Option Bytes :=
  match code with
  | some code => some code
  | none => if codeHash = emptyCodeHash then none else k.getCode ctx codeHash

namespace StateObject

variable {k ctx}

/-- What `Code` returns, cached or not. -/
theorem getCode_fst (o : StateObject) :
    (o.getCode k ctx).1 = codeView k ctx o.code o.account.codeHash := by
  unfold getCode codeView
  cases o.code with
  | some code => rfl
  | none =>
      simp only
      split_ifs <;> rfl

/-- Reading code twice gives the same code. -/
theorem codeView_getCode (o : StateObject) :
    codeView k ctx (o.getCode k ctx).1 o.account.codeHash = (o.getCode k ctx).1 := by
  rw [getCode_fst]
  cases h : codeView k ctx o.code o.account.codeHash with
  | some code => rfl
  | none =>
      cases hc : o.code with
      | some code => simp [codeView, hc] at h
      | none => rwa [hc] at h

/-- Reading code changes the code cache at most. -/
theorem getCode_snd (o : StateObject) :
    (o.getCode k ctx).2 = { o with code := (o.getCode k ctx).1 } := by
  unfold getCode
  cases ho : o.code with
  | some code =>
      simp only
      rw [← ho]
  | none =>
      simp only
      split_ifs with he
      · simp only
        rw [← ho]
      · rfl

end StateObject

end code

/-! ## Coherence with the keeper -/

section coherence

variable {σ : Type} (k : Keeper σ) (ctx : σ)

/-- A store with every code under its hash, and with the code of every account. -/
structure CodeStored : Prop where
  hash : ∀ codeHash code, k.getCode ctx codeHash = some code → keccak256 code = codeHash
  present : ∀ a account, k.getAccount ctx a = some account →
    account.codeHash = emptyCodeHash ∨ ∃ code, k.getCode ctx account.codeHash = some code

/-- A code field and a code hash belong together, over a store that has its codes. -/
def CodeMatches (code : Option Bytes) (codeHash : Hash) : Prop :=
  CodeStored k ctx → keccak256 ((codeView k ctx code codeHash).getD []) = codeHash

/-- A code matches its hash. -/
theorem codeMatches_of_keccak (code : Option Bytes) :
    CodeMatches k ctx code (keccak256 (code.getD [])) := by
  intro _
  cases code with
  | some code => rfl
  | none =>
      have hnone : codeView k ctx none (keccak256 []) = none := if_pos rfl
      rw [Option.getD_none, hnone]
      rfl

/-- A code that is not cached matches the hash of the stored account. -/
theorem codeMatches_of_getAccount {a : Address} {account : Account}
    (h : k.getAccount ctx a = some account) : CodeMatches k ctx none account.codeHash := by
  intro hstored
  unfold codeView
  split_ifs with hempty
  · exact hempty.symm
  · rcases hstored.present a account h with he | ⟨code, hcode⟩
    · exact absurd he hempty
    · rw [hcode]
      exact hstored.hash _ code hcode

/-- The caches of an object agree with the keeper it was loaded from: it sits at its own address,
a cached origin value is the keeper's value, every dirty slot has its origin value cached, its code
belongs to its code hash, and a code it has not set is the keeper's. -/
structure StateObject.Coherent (a : Address) (o : StateObject) : Prop where
  address : o.address = a
  origin : ∀ key value, o.originStorage.get key = some value → value = k.getState ctx a key
  dirty : ∀ key, key ∈ o.dirtyStorage.keys → key ∈ o.originStorage.keys
  code : CodeMatches k ctx o.code o.account.codeHash
  clean : o.dirtyCode = false → ∀ code, o.code = some code →
    k.getCode ctx o.account.codeHash = some code

namespace StateObject

/-- An object without caches is coherent. -/
theorem newObject_coherent {a : Address} {account : Account}
    (h : CodeMatches k ctx none account.codeHash) : Coherent k ctx a (newObject a account) where
  address := rfl
  origin := by simp [newObject]
  dirty := by simp [newObject, GoMap.mem_keys]
  code := h
  clean := by simp [newObject]

variable {k ctx}

section changes

variable {a : Address} {o : StateObject} (h : Coherent k ctx a o)

include h

/-- Setting the balance keeps it coherent. -/
theorem Coherent.setBalance (amount : ℤ) : Coherent k ctx a (o.setBalance amount) :=
  ⟨h.address, h.origin, h.dirty, h.code, h.clean⟩

/-- So does setting the nonce. -/
theorem Coherent.setNonce (nonce : UInt64) : Coherent k ctx a (o.setNonce nonce) :=
  ⟨h.address, h.origin, h.dirty, h.code, h.clean⟩

/-- So does setting the suicide flag. -/
theorem Coherent.setSuicided (b : Bool) : Coherent k ctx a { o with suicided := b } :=
  ⟨h.address, h.origin, h.dirty, h.code, h.clean⟩

/-- So does setting a code that matches its hash. -/
theorem Coherent.setCode {codeHash : Hash} {code : Option Bytes}
    (hcode : CodeMatches k ctx code codeHash) : Coherent k ctx a (o.setCode codeHash code) :=
  ⟨h.address, h.origin, h.dirty, hcode, by simp [StateObject.setCode]⟩

/-- Writing a slot whose origin value is cached keeps coherence. -/
theorem Coherent.setState {key : Hash} (hkey : key ∈ o.originStorage.keys) (value : Hash) :
    Coherent k ctx a (o.setState key value) where
  address := h.address
  origin := h.origin
  dirty := by
    intro j hj
    simp only [StateObject.setState, GoMap.keys_set, Finset.mem_insert] at hj
    rcases hj with rfl | hj
    · exact hkey
    · exact h.dirty j hj
  code := h.code
  clean := h.clean

end changes

/-- The committed value of a slot is the keeper's. -/
theorem Coherent.getCommittedState_fst {a : Address} {o : StateObject} (h : Coherent k ctx a o)
    (key : Hash) : (o.getCommittedState k ctx key).1 = k.getState ctx a key := by
  unfold getCommittedState
  cases hg : o.originStorage.get key with
  | some value => exact h.origin key value hg
  | none => simp only [h.address]

/-- Caching a committed value keeps coherence, and leaves the slot cached. -/
theorem Coherent.getCommittedState_snd {a : Address} {o : StateObject} (h : Coherent k ctx a o)
    (key : Hash) :
    Coherent k ctx a (o.getCommittedState k ctx key).2 ∧
      key ∈ (o.getCommittedState k ctx key).2.originStorage.keys := by
  unfold getCommittedState
  cases hg : o.originStorage.get key with
  | some value => exact ⟨h, GoMap.mem_keys_of_get hg⟩
  | none =>
      refine ⟨⟨h.address, ?_, ?_, h.code, h.clean⟩, ?_⟩
      · intro j value hj
        simp only [GoMap.get_set] at hj
        split_ifs at hj with hjk
        · subst hjk
          rw [← Option.some.inj hj, h.address]
        · exact h.origin j value hj
      · intro j hj
        simp only [GoMap.keys_set]
        exact Finset.mem_insert_of_mem (h.dirty j hj)
      · simp [GoMap.keys_set]

/-- A slot that was read has its origin value cached. -/
theorem Coherent.getState_snd {a : Address} {o : StateObject} (h : Coherent k ctx a o)
    (key : Hash) :
    Coherent k ctx a (o.getState k ctx key).2 ∧
      key ∈ (o.getState k ctx key).2.originStorage.keys := by
  unfold getState
  cases hg : o.dirtyStorage.get key with
  | some value => exact ⟨h, h.dirty key (GoMap.mem_keys_of_get hg)⟩
  | none => exact h.getCommittedState_snd key

/-- The code an object returns, cached, still belongs to its hash. -/
theorem Coherent.getCode_fst_matches {a : Address} {o : StateObject} (h : Coherent k ctx a o) :
    CodeMatches k ctx (o.getCode k ctx).1 o.account.codeHash := by
  intro hstored
  rw [codeView_getCode, getCode_fst]
  exact h.code hstored

/-- So does caching the code. -/
theorem Coherent.getCode_snd {a : Address} {o : StateObject} (h : Coherent k ctx a o) :
    Coherent k ctx a (o.getCode k ctx).2 := by
  rw [StateObject.getCode_snd]
  refine ⟨h.address, h.origin, h.dirty, h.getCode_fst_matches, ?_⟩
  intro hclean code hcode
  cases ho : o.code with
  | some c =>
      have hc : c = code := by simpa [getCode, ho] using hcode
      rw [← hc]
      exact h.clean hclean c ho
  | none =>
      simp only [getCode_fst, codeView, ho] at hcode
      split_ifs at hcode
      exact hcode

end StateObject

end coherence

end Smartdoge.Statedb
