import Smartdoge.Lib.Writes
import Smartdoge.Statedb.StateObject

/-!
# Lawful keepers

`Keeper.Lawful` is what the storage under a `StateDB` is expected to be: a read after a write
returns what was written and nothing else changes, and the writes succeed. Deleting an account
may take along the code stored under that account's code hash, since codes are stored once per hash.

`mapKeeper` is a lawful keeper held in two maps. It is the `MockKeeper` of `mock_test.go` without
the address that always fails, and with the early return of `Keeper.DeleteAccount` for an address
that has no account.
-/

set_option linter.unusedSectionVars false

namespace Smartdoge.Statedb

open Smartdoge.Lib
open Smartdoge.Lib.Writes

/-- A store that reads back what was written, whose writes succeed. Codes are compared up to the
difference between `nil` and empty. -/
structure Keeper.Lawful {σ : Type} (k : Keeper σ) : Prop where
  setAccount_ok : ∀ a account c, ∃ c', k.setAccount a account c = .ok () c'
  getAccount_setAccount : ∀ {a account c c'}, k.setAccount a account c = .ok () c' →
    ∀ b, k.getAccount c' b = if b = a then some account else k.getAccount c b
  getState_setAccount : ∀ {a account c c'}, k.setAccount a account c = .ok () c' →
    k.getState c' = k.getState c
  getCode_setAccount : ∀ {a account c c'}, k.setAccount a account c = .ok () c' →
    k.getCode c' = k.getCode c
  getState_setState : ∀ {a c}, (k.getAccount c a).isSome → ∀ key value b j,
    k.getState (k.setState a key value c) b j =
      if b = a ∧ j = key then bytesToHash value else k.getState c b j
  getAccount_setState : ∀ a key value c, k.getAccount (k.setState a key value c) = k.getAccount c
  getCode_setState : ∀ a key value c, k.getCode (k.setState a key value c) = k.getCode c
  getCode_setCode : ∀ codeHash code c h, (k.getCode (k.setCode codeHash code c) h).getD [] =
    if h = codeHash then code else (k.getCode c h).getD []
  getAccount_setCode : ∀ codeHash code c, k.getAccount (k.setCode codeHash code c) = k.getAccount c
  getState_setCode : ∀ codeHash code c, k.getState (k.setCode codeHash code c) = k.getState c
  deleteAccount_ok : ∀ a c, ∃ c', k.deleteAccount a c = .ok () c'
  getAccount_deleteAccount : ∀ {a c c'}, k.deleteAccount a c = .ok () c' →
    ∀ b, k.getAccount c' b = if b = a then none else k.getAccount c b
  getState_deleteAccount : ∀ {a c c'}, k.deleteAccount a c = .ok () c' →
    ∀ b key, k.getState c' b key = if b = a then FixedBytes.zero 32 else k.getState c b key
  getCode_deleteAccount : ∀ {a c c'}, k.deleteAccount a c = .ok () c' →
    ∀ h, (∀ account, k.getAccount c a = some account → account.codeHash ≠ h) →
      k.getCode c' h = k.getCode c h

/-! ## A keeper in two maps -/

/-- Source: `mock_test.go` `MockKeeper`, `MockAcount` -/
structure MapStore where
  accounts : GoMap Address (Account × Storage)
  codes : GoMap Hash Bytes

/-- Source: `mock_test.go` `NewMockKeeper` -/
def MapStore.new : MapStore := ⟨GoMap.empty, GoMap.empty⟩

variable [Keccak]

/-- A keeper over a `MapStore`.
Source: `mock_test.go`, the methods of `MockKeeper` -/
def mapKeeper : Keeper MapStore where
  getAccount c a := (c.accounts.get a).map Prod.fst
  getState c a key := ((c.accounts.get a).bind fun acct => acct.2.get key).getD (FixedBytes.zero 32)
  getCode c codeHash := c.codes.get codeHash
  storageEntries c a :=
    match c.accounts.get a with
    | some acct => (Storage.sortedKeys acct.2).map fun key =>
        (key, (acct.2.get key).getD (FixedBytes.zero 32))
    | none => []
  setAccount a account := modify fun c =>
    { c with accounts := c.accounts.set a (account, ((c.accounts.get a).map Prod.snd).getD GoMap.empty) }
  setState a key value c :=
    match c.accounts.get a with
    | some (account, states) =>
      let states := if value = [] then states.delete key else states.set key (bytesToHash value)
      { c with accounts := c.accounts.set a (account, states) }
    | none => c
  setCode codeHash code c := { c with codes := c.codes.set codeHash code }
  deleteAccount a := modify fun c =>
    match c.accounts.get a with
    | some (account, _) =>
      { accounts := c.accounts.delete a
        codes := if account.codeHash = emptyCodeHash then c.codes else c.codes.delete account.codeHash }
    | none => c

/-- A keeper over maps is lawful. -/
theorem mapKeeper_lawful : mapKeeper.Lawful where
  setAccount_ok a account c := ⟨_, modify_ok.mpr rfl⟩
  getAccount_setAccount := by
    intro a account c c' h b
    obtain rfl := modify_ok.mp h
    simp only [mapKeeper, GoMap.get_set]
    split_ifs <;> rfl
  getState_setAccount := by
    intro a account c c' h
    obtain rfl := modify_ok.mp h
    funext b key
    simp only [mapKeeper, GoMap.get_set]
    split_ifs with hb
    · subst hb
      cases c.accounts.get b <;> simp
    · rfl
  getCode_setAccount := by
    intro a account c c' h
    obtain rfl := modify_ok.mp h
    rfl
  getState_setState := by
    intro a c ha key value b j
    have hzero : bytesToHash [] = FixedBytes.zero 32 := rfl
    cases hacct : c.accounts.get a with
    | none => simp [mapKeeper, hacct] at ha
    | some acct =>
        obtain ⟨account, states⟩ := acct
        simp only [mapKeeper, hacct, GoMap.get_set]
        by_cases hb : b = a
        · subst hb
          by_cases hj : j = key
          · subst hj
            by_cases hv : value = []
            · simp [hv, hzero]
            · simp [hv]
          · by_cases hv : value = []
            · simp [hv, hj, hacct, GoMap.get_delete_of_ne _ hj]
            · simp [hv, hj, hacct, GoMap.get_set_of_ne _ hj]
        · simp [hb]
  getAccount_setState := by
    intro a key value c
    funext b
    cases hacct : c.accounts.get a with
    | none => simp [mapKeeper, hacct]
    | some acct =>
        simp only [mapKeeper, hacct, GoMap.get_set]
        by_cases hb : b = a
        · simp [hb, hacct]
        · simp [hb]
  getCode_setState := by
    intro a key value c
    cases hacct : c.accounts.get a with
    | none => simp [mapKeeper, hacct]
    | some acct => simp [mapKeeper, hacct]
  getCode_setCode := by
    intro codeHash code c h
    simp only [mapKeeper, GoMap.get_set]
    split_ifs <;> rfl
  getAccount_setCode _ _ _ := rfl
  getState_setCode _ _ _ := rfl
  deleteAccount_ok a c := ⟨_, modify_ok.mpr rfl⟩
  getAccount_deleteAccount := by
    intro a c c' h b
    obtain rfl := modify_ok.mp h
    cases hacct : c.accounts.get a with
    | none =>
        simp only [mapKeeper]
        split_ifs with hb
        · simp [hb, hacct]
        · rfl
    | some acct =>
        simp only [mapKeeper, GoMap.get_delete]
        split_ifs <;> rfl
  getState_deleteAccount := by
    intro a c c' h b key
    obtain rfl := modify_ok.mp h
    cases hacct : c.accounts.get a with
    | none =>
        simp only [mapKeeper]
        split_ifs with hb
        · simp [hb, hacct]
        · rfl
    | some acct =>
        simp only [mapKeeper, GoMap.get_delete]
        split_ifs <;> rfl
  getCode_deleteAccount := by
    intro a c c' h codeHash hne
    obtain rfl := modify_ok.mp h
    cases hacct : c.accounts.get a with
    | none => rfl
    | some acct =>
        have hhash : acct.1.codeHash ≠ codeHash := hne acct.1 (by simp [mapKeeper, hacct])
        simp only [mapKeeper]
        split_ifs
        · rfl
        · exact GoMap.get_delete_of_ne _ (Ne.symm hhash)

end Smartdoge.Statedb
