import Smartdoge.Evm.Keeper
import Smartdoge.Statedb.Snapshot

/-!
# The keeper as an account store

`Keeper.SetAccount` is documented to update nonce, balance and code hash together, and
`Keeper.DeleteAccount` to remove one account. Both are looked at for every state of the stores.

* `getAccount_setAccount_iff`: what `SetAccount` wrote reads back exactly where the address has no
  account or an Ethereum account, or the code hash written is the empty one. Over an account of
  another type the code hash is dropped, and a contract created there has no code for any later
  `StateDB`.
* **`deleteAccount_clean_iff`**: `DeleteAccount` removes the account and disturbs no other exactly
  where no other account has the code hash of the deleted one (codes are stored once per hash and
  deleted with the first account that goes), and where an address without account has neither
  coins nor storage (which `DeleteAccount` does not look at).
-/

set_option linter.unusedSectionVars false

namespace Smartdoge.Evm

open Smartdoge.Lib
open Smartdoge.Lib.Writes
open Smartdoge.Statedb (KeeperError Account StateDB TxConfig amountAt_self amountAt_of_ne)

section accounts

variable [Keccak] (env : Env)

/-! ## `SetAccount` -/

/-- The account types over which `SetAccount` keeps a code hash. -/
def holdsCodeHash (st : Store) (a : Address) : Prop :=
  st.accounts.get a = none ∨ ∃ sequence codeHash, st.accounts.get a = some (.eth sequence codeHash)

/-- What `SetAccount` leaves in the stores at its own address. -/
theorem getAccount_of_setAccount {a : Address} {account : Account} {st st' : Store}
    (h : setAccount env a account st = .ok () st') :
    (holdsCodeHash st a ∧ st'.getAccount a = some account) ∨
    (¬ holdsCodeHash st a ∧ st'.getAccount a = some { account with codeHash := emptyCodeHash }) := by
  obtain ⟨acct, hupd, hmoves⟩ := setAccount_ok env h
  have hacct : st'.accounts.get a = some acct := hmoves.kept a acct (GoMap.get_set_self _ _ _)
  have hbal : (st'.balance a : ℤ) = account.balance := by
    have := hmoves.balance a
    rw [amountAt_self, show (st.setAuth a acct).balance a = st.balance a from rfl] at this
    omega
  have hget : st'.getAccount a = some ⟨acct.sequence, account.balance, Store.authCodeHash acct⟩ := by
    unfold Store.getAccount
    rw [hacct, Option.map_some, hbal]
  rw [hget]
  cases hst : st.accounts.get a with
  | none =>
      left
      rw [hst] at hupd
      obtain rfl := Except.ok.inj hupd
      exact ⟨Or.inl hst, rfl⟩
  | some old =>
      rw [hst, Option.getD_some] at hupd
      cases old with
      | eth sequence codeHash =>
          left
          obtain rfl := Except.ok.inj hupd
          exact ⟨Or.inr ⟨sequence, codeHash, hst⟩, rfl⟩
      | module sequence =>
          right
          simp only [AuthAccount.update] at hupd
          split_ifs at hupd
          obtain rfl := Except.ok.inj hupd
          exact ⟨by simp [holdsCodeHash, hst], rfl⟩
      | other sequence locked =>
          right
          obtain rfl := Except.ok.inj hupd
          exact ⟨by simp [holdsCodeHash, hst], rfl⟩

/-- `SetAccount` writes no code. -/
theorem getCode_of_setAccount {a : Address} {account : Account} {st st' : Store}
    (h : setAccount env a account st = .ok () st') : st'.getCode = st.getCode := by
  obtain ⟨acct, -, hmoves⟩ := setAccount_ok env h
  funext codeHash
  unfold Store.getCode
  rw [hmoves.kv]
  rfl

/-- The code a fresh `StateDB` reports is the one stored under the code hash the keeper reports. -/
theorem getCode_new (st : Store) (txConfig : TxConfig) (a : Address) :
    ((StateDB.new st (evmKeeper env) txConfig).getCode a).1 =
      (st.getAccount a).bind fun account => Statedb.codeView (evmKeeper env) st none account.codeHash := by
  have hco := (Statedb.wf_new st (evmKeeper env) txConfig).ready.coherent
  rw [StateDB.getCode_fst hco, StateDB.view_objects_of_get_none (GoMap.get_empty a)]
  show Option.getD (Option.map _ ((st.getAccount a).map _)) none = _
  cases st.getAccount a with
  | none => rfl
  | some account => exact Statedb.StateObject.getCode_fst _

/-- **When `SetAccount` is faithful.** After a `SetAccount` that returned, `GetAccount` returns the account that was
written, exactly if the address had no account or an Ethereum account, or the code hash is empty. -/
theorem getAccount_setAccount_iff {a : Address} {account : Account} {st st' : Store}
    (h : setAccount env a account st = .ok () st') :
    st'.getAccount a = some account ↔ holdsCodeHash st a ∨ account.codeHash = emptyCodeHash := by
  rcases getAccount_of_setAccount env h with ⟨hholds, hget⟩ | ⟨hnot, hget⟩
  · exact ⟨fun _ => Or.inl hholds, fun _ => hget⟩
  · rw [hget]
    constructor
    · intro heq
      right
      exact (congrArg Account.codeHash (Option.some.inj heq)).symm
    · rintro (hholds | hempty)
      · exact absurd hholds hnot
      · rw [← hempty]

/-! ## `DeleteAccount` -/

/-- A deletion that removed the account at an address and disturbed no other: the address has no
account, no coins and no storage, and every other address but the one of the module, through which
coins are burnt, has its account, the code of that account and its storage. -/
structure DeletedCleanly (st st' : Store) (a : Address) : Prop where
  account : st'.accounts.get a = none
  balance : st'.balance a = 0
  storage : ∀ key, st'.getState a key = FixedBytes.zero 32
  others : ∀ b, b ≠ a → b ≠ env.moduleAddress .evm →
    st'.getAccount b = st.getAccount b ∧
    (∀ account, st.getAccount b = some account →
      st'.getCode account.codeHash = st.getCode account.codeHash) ∧
    ∀ key, st'.getState b key = st.getState b key

/-- Where a deletion is clean: a missing account has left nothing behind, and the code of a
contract is stored for it alone. -/
def CleanToDelete (st : Store) (a : Address) : Prop :=
  match st.accounts.get a with
  | none => st.balance a = 0 ∧ ∀ key, st.getState a key = FixedBytes.zero 32
  | some acct => Store.authCodeHash acct = emptyCodeHash ∨ st.getCode (Store.authCodeHash acct) = none ∨
      ∀ b, b ≠ a → b ≠ env.moduleAddress .evm → ∀ account, st.getAccount b = some account →
        account.codeHash ≠ Store.authCodeHash acct

/-- What a deletion of an Ethereum account leaves behind. -/
theorem removed_reads {a : Address} {codeHash : Hash} {st₁ st' : Store}
    (h : st' = removeAccount a (clearStorage a (removeCode codeHash st₁))) :
    st'.accounts = st₁.accounts.delete a ∧ (∀ b, st'.balance b = st₁.balance b) ∧
      st'.supply = st₁.supply ∧
      (∀ b key, st'.getState b key = if b = a then FixedBytes.zero 32 else st₁.getState b key) ∧
      ∀ hash, st'.getCode hash =
        if hash = codeHash ∧ codeHash ≠ emptyCodeHash then none else st₁.getCode hash := by
  subst h
  have hledger := (removeCode_sameLedger st₁ codeHash).trans
    (clearStorage_sameLedger (removeCode codeHash st₁) a)
  refine ⟨congrArg (GoMap.delete · a) hledger.accounts, hledger.balance, hledger.supply, ?_, ?_⟩
  · intro b key
    show (clearStorage a (removeCode codeHash st₁)).getState b key = _
    rw [getState_clearStorage, getState_removeCode]
  · intro hash
    show (clearStorage a (removeCode codeHash st₁)).getCode hash = _
    rw [getCode_clearStorage, getCode_removeCode]

/-- **When `DeleteAccount` is clean.** -/
theorem deleteAccount_clean_iff {a : Address} {st st' : Store}
    (h : deleteAccount env a st = .ok () st') :
    DeletedCleanly env st st' a ↔ CleanToDelete env st a := by
  unfold CleanToDelete
  rcases deleteAccount_ok env h with ⟨hnone, rfl⟩ | ⟨sequence, codeHash, st₁, hacct, hmoves, hst'⟩
  · rw [hnone]
    constructor
    · intro hclean
      exact ⟨hclean.balance, hclean.storage⟩
    · rintro ⟨hbal, hstorage⟩
      exact ⟨hnone, hbal, hstorage, fun b _ _ => ⟨rfl, fun _ _ => rfl, fun _ => rfl⟩⟩
  · obtain ⟨haccounts, hbalance, -, hstate, hcode⟩ := removed_reads hst'
    have hcode₁ : st₁.getCode = st.getCode := by
      funext hash
      unfold Store.getCode
      rw [hmoves.kv]
    have hstate₁ : st₁.getState = st.getState := by
      funext b key
      unfold Store.getState
      rw [hmoves.kv]
    rw [hacct]
    simp only [Store.authCodeHash]
    constructor
    · intro hclean
      by_cases hempty : codeHash = emptyCodeHash
      · exact Or.inl hempty
      · right
        by_cases hstored : st.getCode codeHash = none
        · exact Or.inl hstored
        · right
          intro b hba hbm account hb heq
          -- The code of `b` would be gone.
          have hkept := (hclean.others b hba hbm).2.1 account hb
          rw [heq, hcode, if_pos ⟨rfl, hempty⟩] at hkept
          exact hstored hkept.symm
    · intro hcond
      refine ⟨?_, ?_, ?_, ?_⟩
      · rw [haccounts, GoMap.get_delete_self]
      · have hzero := hmoves.balance a
        rw [amountAt_self] at hzero
        rw [hbalance]
        omega
      · intro key
        rw [hstate, if_pos rfl]
      · intro b hba hbm
        have hbal : st'.balance b = st.balance b := by
          have hmove := hmoves.balance b
          rw [amountAt_of_ne hba] at hmove
          rw [hbalance]
          omega
        have hget : st'.getAccount b = st.getAccount b := by
          unfold Store.getAccount
          rw [haccounts, GoMap.get_delete_of_ne _ hba, hmoves.made b (by simp [hba, hbm]), hbal]
        refine ⟨hget, ?_, ?_⟩
        · intro account hb
          rw [hcode, hcode₁]
          split_ifs with hsame
          · rcases hcond with hempty | hmissing | hother
            · exact absurd hempty hsame.2
            · rw [hsame.1, hmissing]
            · exact absurd hsame.1 (hother b hba hbm account hb)
          · rfl
        · intro key
          rw [hstate, if_neg hba, hstate₁]

end accounts

/-! ## Concrete stores -/

/-- A contract with coins, code and storage of its own. -/
theorem deleteAccount_clean_alone :
    letI := sampleKeccak
    let a : Address := .ofNat 20 1
    let st : Store :=
      { accounts := GoMap.empty.set a (.eth 1 (keccak256 [0])), balances := GoMap.empty.set a 7,
        supply := 7, transient := ⟨0, 0, 0, 0⟩,
        kv := (GoMap.empty.set (codeKey (keccak256 [0])) [0]).set
          (stateKey a (FixedBytes.ofNat 32 1).bytes) (FixedBytes.ofNat 32 9).bytes }
    ∃ st', deleteAccount sampleEnv a st = .ok () st' ∧ DeletedCleanly sampleEnv st st' a ∧
      st.getState a (.ofNat 32 1) = .ofNat 32 9 := by
  let _ := sampleKeccak
  intro a st
  have hrun : deleteAccount sampleEnv a st = .ok () _ := rfl
  refine ⟨_, hrun, (deleteAccount_clean_iff sampleEnv hrun).mpr ?_, by decide⟩
  right
  right
  intro b hb _ account hget
  have hnone : st.accounts.get b = none := by
    show GoMap.get (GoMap.set _ _ _) b = none
    rw [GoMap.get_set_of_ne _ hb, GoMap.get_empty]
  simp [Store.getAccount, hnone] at hget

/-- Two contracts deployed with the same code: deleting the first takes the code of the second. -/
theorem deleteAccount_takes_shared_code :
    letI := sampleKeccak
    let a : Address := .ofNat 20 1
    let b : Address := .ofNat 20 2
    let st : Store :=
      { accounts := (GoMap.empty.set a (.eth 1 (keccak256 [0]))).set b (.eth 1 (keccak256 [0])),
        balances := GoMap.empty, supply := 0,
        kv := GoMap.empty.set (codeKey (keccak256 [0])) [0], transient := ⟨0, 0, 0, 0⟩ }
    ∃ st', deleteAccount sampleEnv a st = .ok () st' ∧ st.getCode (keccak256 [0]) = some [0] ∧
      st'.getCode (keccak256 [0]) = none ∧ ¬ DeletedCleanly sampleEnv st st' a := by
  let _ := sampleKeccak
  intro a b st
  have hrun : deleteAccount sampleEnv a st = .ok () _ := rfl
  refine ⟨_, hrun, by decide, by decide, ?_⟩
  intro hclean
  have hcode := (hclean.others b (by decide) (by decide)).2.1 ⟨1, 0, keccak256 [0]⟩ (by decide)
  exact absurd hcode (by decide)

end Smartdoge.Evm
