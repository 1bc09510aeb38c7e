import Smartdoge.Evm.CommittedCode
import Smartdoge.Evm.Slots
import Smartdoge.Evm.Trace

/-!
# Transactions that fail while they are traced

`TraceTx` and `TraceBlock` go on after a transaction that returned an error, on the stores as the error left them.
`Commit` writes account by account and stops at the first error, so what it wrote before stays. On the chain the same
transaction is rolled back.

* `commit_local`: a commit of one account, also one that fails, changes no other account, but perhaps the balance of
  the module account.
* `diverged_stays`: what one account changed is not changed back by another.
* `setBalance_error`: where a balance could not be set, and what was written before.
* `commitAll_error_iff`: a commit that failed changed nothing, if and only if it came to accounts that are stored as
  they are to be written and then to one that was refused.
* **`failed_predecessor_iff`**: after a transaction that returned an error the stores are as before, if and only if it
  did not come to a commit, or its commit failed in that way.
* `predecessor_leaves_coins`: a transfer to a blocked address burns the coins of its sender.
-/

set_option linter.unusedSectionVars false

namespace Smartdoge.Evm

open Smartdoge.Lib
open Smartdoge.Lib.Writes
open Smartdoge.Statedb

section locality

variable [Keccak] (env : Env)

/-! ## What the commit of one account can change -/

/-- The account of the EVM module. -/
abbrev Env.evmAddress (env : Env) : Address := env.moduleAddress .evm

/-- Only the account at an address changed, and the balance of the module account. -/
structure ChangedAt (a : Address) (c c' : Store) : Prop where
  accounts : ∀ b, b ≠ a → c'.accounts.get b = c.accounts.get b
  balance : ∀ b, b ≠ a → b ≠ env.evmAddress → c'.balance b = c.balance b
  slot : ∀ b, b ≠ a → c'.slot b = c.slot b
  module : c'.IsModule env.evmAddress

/-- The same of a write to stores that have the module account. -/
def Local (a : Address) (c c' : Store) : Prop := c.IsModule env.evmAddress → ChangedAt env a c c'

variable {env} {a : Address}

/-- Doing nothing is local. -/
theorem Local.refl (c : Store) : Local env a c c := fun hmodule =>
  ⟨fun _ _ => rfl, fun _ _ _ => rfl, fun _ _ => rfl, hmodule⟩

/-- One local effect after the other is local. -/
theorem Local.trans {c₁ c₂ c₃ : Store} (h : Local env a c₁ c₂) (h' : Local env a c₂ c₃) : Local env a c₁ c₃ := by
  intro hmodule
  have hfirst := h hmodule
  have hsecond := h' hfirst.module
  exact ⟨fun b hb => (hsecond.accounts b hb).trans (hfirst.accounts b hb),
    fun b hb hm => (hsecond.balance b hb hm).trans (hfirst.balance b hb hm),
    fun b hb => (hsecond.slot b hb).trans (hfirst.slot b hb), hsecond.module⟩

/-! ### Coins -/

variable (env a) in
/-- A write that moves coins. -/
def CoinsOnly (c c' : Store) : Prop := Local env a c c' ∧ c'.kv = c.kv

/-- Doing nothing moves nothing. -/
theorem CoinsOnly.refl (c : Store) : CoinsOnly env a c c := ⟨.refl c, rfl⟩

/-- One effect on coins after the other. -/
theorem CoinsOnly.trans {c₁ c₂ c₃ : Store} (h : CoinsOnly env a c₁ c₂) (h' : CoinsOnly env a c₂ c₃) :
    CoinsOnly env a c₁ c₃ := ⟨h.1.trans h'.1, h'.2.trans h.2⟩

/-- A balance of the account or of the module is set. -/
theorem coinsOnly_setBalance {x : Address} (hx : x = a ∨ x = env.evmAddress) (c : Store) (amount : ℕ) :
    CoinsOnly env a c (c.setBalance x amount) := by
  refine ⟨fun hmodule => ⟨fun _ _ => rfl, ?_, fun _ _ => rfl, hmodule⟩, rfl⟩
  intro b hb hm
  apply Store.balance_setBalance_of_ne
  rintro rfl
  exact hx.elim hb hm

/-- The supply is set. -/
theorem coinsOnly_supply (c : Store) (supply : ℕ) : CoinsOnly env a c { c with supply := supply } :=
  ⟨fun hmodule => ⟨fun _ _ => rfl, fun _ _ _ => rfl, fun _ _ => rfl, hmodule⟩, rfl⟩

/-- Coins are taken, or it fails. -/
theorem coinsOnly_subUnlockedCoins {x : Address} (hx : x = a ∨ x = env.evmAddress) (amount : ℕ) (c : Store) :
    CoinsOnly env a c (finalState (subUnlockedCoins x amount c)) := by
  unfold subUnlockedCoins
  split_ifs
  · exact .refl c
  · exact coinsOnly_setBalance hx c _

/-- An account is made, if there is none. -/
theorem coinsOnly_ensureAccount {x : Address} (hx : x = a ∨ x = env.evmAddress) (c : Store) :
    CoinsOnly env a c (ensureAccount x c) := by
  unfold ensureAccount
  cases hacct : c.accounts.get x with
  | some acct => exact .refl c
  | none =>
      refine ⟨?_, rfl⟩
      rintro ⟨sequence, hseq⟩
      -- The module account is there, so that the account that is made is the other one.
      have hne : x ≠ env.evmAddress := by
        rintro rfl
        rw [hacct] at hseq
        cases hseq
      obtain rfl := hx.resolve_right hne
      exact ⟨fun b hb => GoMap.get_set_of_ne _ hb _, fun _ _ _ => rfl, fun _ _ => rfl, sequence,
        (GoMap.get_set_of_ne _ (Ne.symm hne) _).trans hseq⟩

/-- Coins go from one of the two accounts to the other, or it fails. -/
theorem coinsOnly_sendCoins {x y : Address} (hx : x = a ∨ x = env.evmAddress) (hy : y = a ∨ y = env.evmAddress)
    (amount : ℕ) (c : Store) : CoinsOnly env a c (finalState (sendCoins x y amount c)) := by
  unfold sendCoins
  refine finalState_bind_rel (R := CoinsOnly env a) .trans (coinsOnly_subUnlockedCoins hx amount c) fun _ c₁ => ?_
  refine finalState_bind_rel (R := CoinsOnly env a) .trans ?_ fun _ c₂ => ?_
  · exact coinsOnly_setBalance hy c₁ _
  · exact coinsOnly_ensureAccount hy c₂

/-- A module account that is there is returned. -/
theorem getModuleAccount_of_isModule {c : Store} (h : c.IsModule env.evmAddress) :
    getModuleAccount env .evm c = .ok () c := by
  obtain ⟨sequence, hseq⟩ := h
  simp [getModuleAccount, hseq]

/-- The module account is made, if there is none. -/
theorem coinsOnly_getModuleAccount (c : Store) :
    CoinsOnly env a c (finalState (getModuleAccount env .evm c)) := by
  refine ⟨fun hmodule => ?_, ?_⟩
  · rw [getModuleAccount_of_isModule hmodule]
    exact Local.refl c hmodule
  · unfold getModuleAccount
    split <;> rfl

/-- Coins are minted, or it fails. -/
theorem coinsOnly_mintCoins (amount : ℕ) (c : Store) :
    CoinsOnly env a c (finalState (mintCoins env .evm amount c)) := by
  unfold mintCoins
  refine finalState_bind_rel (R := CoinsOnly env a) .trans (coinsOnly_getModuleAccount c) fun _ c₁ => ?_
  rw [if_pos (by decide)]
  exact (coinsOnly_setBalance (Or.inr rfl) c₁ _).trans (coinsOnly_supply _ _)

/-- Coins are burned, or it fails. -/
theorem coinsOnly_burnCoins (amount : ℕ) (c : Store) :
    CoinsOnly env a c (finalState (burnCoins env .evm amount c)) := by
  unfold burnCoins
  refine finalState_bind_rel (R := CoinsOnly env a) .trans (coinsOnly_getModuleAccount c) fun _ c₁ => ?_
  refine finalState_bind_rel (R := CoinsOnly env a) .trans (coinsOnly_subUnlockedCoins (Or.inr rfl) amount c₁)
    fun _ c₂ => ?_
  unfold subSupply
  split_ifs
  · exact .refl c₂
  · exact coinsOnly_supply c₂ _

/-- **`SetBalance`** has an effect on coins, also where it fails. -/
theorem coinsOnly_setBalanceTo (amount : ℤ) (c : Store) :
    CoinsOnly env a c (finalState (setBalance env a amount c)) := by
  unfold setBalance
  dsimp only
  split_ifs
  · refine finalState_bind_rel (R := CoinsOnly env a) .trans (coinsOnly_mintCoins _ c) fun _ c₁ => ?_
    unfold sendCoinsFromModuleToAccount
    split_ifs
    · exact .refl c₁
    · exact coinsOnly_sendCoins (Or.inr rfl) (Or.inl rfl) _ c₁
  · refine finalState_bind_rel (R := CoinsOnly env a) .trans ?_ fun _ c₁ => coinsOnly_burnCoins _ c₁
    unfold sendCoinsFromAccountToModule
    refine finalState_bind_rel (R := CoinsOnly env a) .trans (coinsOnly_getModuleAccount c) fun _ c₁ => ?_
    exact coinsOnly_sendCoins (Or.inl rfl) (Or.inr rfl) _ c₁
  · exact .refl c

/-! ### Coins that could not be moved -/

/-- A payment of the module that fails has done nothing. -/
theorem sendCoinsFromModuleToAccount_error {amount : ℕ} {c c' : Store} {err : KeeperError}
    (h : sendCoinsFromModuleToAccount env .evm a amount c = .error err c') : c' = c := by
  unfold sendCoinsFromModuleToAccount at h
  split_ifs at h
  · cases h
    rfl
  · exact (sendCoins_error h).1

/-- **Where a balance could not be set**: after coins were minted, or at the debit of the account, or where the
coins it gave are burned. -/
theorem setBalance_error {amount : ℤ} {c c' : Store} (hmodule : c.IsModule env.evmAddress) {err : KeeperError}
    (h : setBalance env a amount c = .error err c') :
    (c.balance a < amount ∧ mintCoins env .evm (amount - c.balance a).toNat c = .ok () c') ∨
      (amount < c.balance a ∧ amount < c.lockedCoins a ∧ c' = c) ∨
      (amount < c.balance a ∧ ∃ c₁,
        sendCoinsFromAccountToModule env a .evm (-(amount - c.balance a)).toNat c = .ok () c₁ ∧
        burnCoins env .evm (-(amount - c.balance a)).toNat c₁ = .error err c') := by
  unfold setBalance at h
  dsimp only at h
  split_ifs at h with hmint hburn
  · left
    rcases bind_error.mp h with h | ⟨⟨⟩, c₁, hminted, h⟩
    · rcases bind_error.mp h with h | ⟨⟨⟩, c₁, -, h⟩
      · rw [getModuleAccount_of_isModule hmodule] at h
        cases h
      · rw [if_pos (by decide)] at h
        exact absurd h modify_ne_error
    · obtain rfl := sendCoinsFromModuleToAccount_error h
      exact ⟨by omega, hminted⟩
  · right
    rcases bind_error.mp h with h | ⟨⟨⟩, c₁, hsent, h⟩
    · left
      rcases bind_error.mp h with h | ⟨⟨⟩, c₁, hfound, h⟩
      · rw [getModuleAccount_of_isModule hmodule] at h
        cases h
      · rw [getModuleAccount_of_isModule hmodule] at hfound
        cases hfound
        obtain ⟨rfl, hlocked⟩ := sendCoins_error h
        exact ⟨by omega, by omega, rfl⟩
    · exact Or.inr ⟨by omega, c₁, hsent, h⟩

/-- A burn that fails has changed no account. -/
theorem burnCoins_error_accounts {amount : ℕ} {c c' : Store} (hmodule : c.IsModule env.evmAddress)
    {err : KeeperError} (h : burnCoins env .evm amount c = .error err c') : c'.accounts = c.accounts := by
  rcases bind_error.mp h with h | ⟨⟨⟩, c₁, hfound, h⟩
  · rw [getModuleAccount_of_isModule hmodule] at h
    cases h
  rw [getModuleAccount_of_isModule hmodule] at hfound
  cases hfound
  rw [if_pos (by decide)] at h
  rcases bind_error.mp h with h | ⟨⟨⟩, c₂, hsub, h⟩
  · unfold subUnlockedCoins at h
    split_ifs at h
    cases h
    rfl
  · unfold subUnlockedCoins at hsub
    split_ifs at hsub
    cases hsub
    unfold subSupply at h
    split_ifs at h
    cases h
    rfl

/-- `SetBalance` keeps all accounts where it fails. -/
theorem setBalance_error_kept {amount : ℤ} {c c' : Store} (hmodule : c.IsModule env.evmAddress) {err : KeeperError}
    (h : setBalance env a amount c = .error err c') {b : Address} {acct : AuthAccount}
    (hb : c.accounts.get b = some acct) : c'.accounts.get b = some acct := by
  rcases setBalance_error hmodule h with ⟨-, hminted⟩ | ⟨-, -, rfl⟩ | ⟨-, c₁, hsent, hburned⟩
  · exact (mintCoins_ok env hminted).kept b acct hb
  · exact hb
  · obtain ⟨-, hmodule₁, hmoves⟩ := sendCoinsFromAccountToModule_ok env hsent
    rw [burnCoins_error_accounts hmodule₁ hburned]
    exact hmoves.kept b acct hb

/-- A balance that could not be set leaves the stores as they were only if it is less than before, and less than what
is locked. -/
theorem setBalance_error_same {amount : ℤ} {c : Store} (hmodule : c.IsModule env.evmAddress)
    (hspares : a = env.evmAddress → (c.balance a : ℤ) ≤ amount) {err : KeeperError}
    (h : setBalance env a amount c = .error err c) : amount < c.balance a ∧ amount < c.lockedCoins a := by
  rcases setBalance_error hmodule h with ⟨hmore, hminted⟩ | ⟨hless, hlocked, -⟩ | ⟨hless, c₁, hsent, hburned⟩
  · have hsupply := (mintCoins_ok env hminted).supply
    omega
  · exact ⟨hless, hlocked⟩
  · have hne : a ≠ env.evmAddress := fun ha => absurd (hspares ha) (by omega)
    -- The coins are gone from the account.
    obtain ⟨-, hmodule₁, hmoves⟩ := sendCoinsFromAccountToModule_ok env hsent
    have hbalance := hmoves.balance a
    rw [amountAt_self, amountAt_of_ne hne] at hbalance
    have hkept := ((coinsOnly_burnCoins (-(amount - c.balance a)).toNat c₁).1 hmodule₁).balance a hne hne
    rw [hburned] at hkept
    have hsame : c.balance a = c₁.balance a := hkept
    omega

/-! ### Accounts -/

/-- An account that is updated is of the same type. -/
theorem isModule_of_update {acct acct' : AuthAccount} {nonce : UInt64} {codeHash : Hash} {sequence : UInt64}
    (h : acct.update env nonce codeHash = .ok acct') (hmodule : acct = .module sequence) :
    ∃ sequence', acct' = .module sequence' := by
  subst hmodule
  simp only [AuthAccount.update] at h
  split_ifs at h
  exact ⟨nonce, (Except.ok.inj h).symm⟩

/-- The account is updated. -/
theorem coinsOnly_setAuth {c : Store} {nonce : UInt64} {codeHash : Hash} {acct : AuthAccount}
    (h : ((c.accounts.get a).getD newAccount).update env nonce codeHash = .ok acct) :
    CoinsOnly env a c (c.setAuth a acct) := by
  refine ⟨?_, rfl⟩
  rintro ⟨sequence, hseq⟩
  refine ⟨fun b hb => GoMap.get_set_of_ne _ hb _, fun _ _ _ => rfl, fun _ _ => rfl, ?_⟩
  by_cases hm : env.evmAddress = a
  · subst hm
    rw [hseq] at h
    obtain ⟨sequence', rfl⟩ := isModule_of_update h rfl
    exact ⟨sequence', GoMap.get_set_self _ _ _⟩
  · exact ⟨sequence, (GoMap.get_set_of_ne _ hm _).trans hseq⟩

/-- **`SetAccount`** has an effect on coins, also where it fails. -/
theorem coinsOnly_setAccount (account : Account) (c : Store) :
    CoinsOnly env a c (finalState (setAccount env a account c)) := by
  unfold setAccount
  dsimp only
  split
  · exact .refl c
  · rename_i acct hupdate
    exact (coinsOnly_setAuth hupdate).trans (coinsOnly_setBalanceTo account.balance (c.setAuth a acct))

/-- **`DeleteAccount`** is local, also where it fails. -/
theorem local_deleteAccount (c : Store) : Local env a c (finalState (deleteAccount env a c)) := by
  intro hmodule
  cases hacct : c.accounts.get a with
  | none =>
      have hsame : deleteAccount env a c = .ok () c := by simp [deleteAccount, hacct]
      rw [hsame]
      exact Local.refl c hmodule
  | some acct =>
      cases acct with
      | eth sequence codeHash =>
          have hne : env.evmAddress ≠ a := by
            rintro rfl
            obtain ⟨seq, hseq⟩ := hmodule
            rw [hacct] at hseq
            cases hseq
          have hdelete : deleteAccount env a c = (do
              setBalance env a 0
              modify fun st => removeAccount a (clearStorage a (removeCode codeHash st)) : Write) c := by
            simp only [deleteAccount, hacct]
          rw [hdelete]
          refine finalState_bind_rel (R := Local env a) .trans (coinsOnly_setBalanceTo 0 c).1 (fun _ c₁ => ?_) hmodule
          rintro ⟨seq, hseq⟩
          have hledger := (removeCode_sameLedger c₁ codeHash).trans (clearStorage_sameLedger (removeCode codeHash c₁) a)
          have haccounts : ∀ b, b ≠ a →
              (removeAccount a (clearStorage a (removeCode codeHash c₁))).accounts.get b = c₁.accounts.get b := by
            intro b hb
            rw [← hledger.accounts]
            exact GoMap.get_delete_of_ne _ hb
          refine ⟨haccounts, fun b _ _ => hledger.balance b, ?_, seq, (haccounts _ hne).trans hseq⟩
          intro b hb
          funext key
          show (clearStorage a (removeCode codeHash c₁)).slot b key = _
          rw [slot_clearStorage, if_neg hb, slot_removeCode]
      | module seq =>
          have hfails : deleteAccount env a c = .error .invalidAccount c := by simp [deleteAccount, hacct]
          rw [hfails]
          exact Local.refl c hmodule
      | other seq locked =>
          have hfails : deleteAccount env a c = .error .invalidAccount c := by simp [deleteAccount, hacct]
          rw [hfails]
          exact Local.refl c hmodule

/-- A deletion that failed has not come to the byte store. -/
theorem deleteAccount_error_kv {c c' : Store} {err : KeeperError} (h : deleteAccount env a c = .error err c') :
    c'.kv = c.kv := by
  unfold deleteAccount at h
  split at h
  · cases h
  · rcases bind_error.mp h with h | ⟨⟨⟩, c₁, -, h⟩
    · have hcoins : (finalState (setBalance env a 0 c)).kv = c.kv := (coinsOnly_setBalanceTo 0 c).2
      rw [h] at hcoins
      exact hcoins
    · exact absurd h modify_ne_error
  · cases h
    rfl

/-- Committing a code is local. -/
theorem local_commitCode (o : StateObject) (c : Store) : Local env a c (o.commitCode (evmKeeper env) c) := by
  rintro ⟨sequence, hseq⟩
  have hledger := commitCode_sameLedger env o c
  exact ⟨fun b _ => by rw [hledger.accounts], fun b _ _ => hledger.balance b,
    fun b _ => by rw [commitCode_slot], sequence, by rw [hledger.accounts]; exact hseq⟩

/-- Committing the slots of the account is local. -/
theorem local_commitStorage {o : StateObject} (ho : o.address = a) (c : Store) :
    Local env a c (o.commitStorage (evmKeeper env) c) := by
  rintro ⟨sequence, hseq⟩
  have hledger := commitStorage_sameLedger env o c
  refine ⟨fun b _ => by rw [hledger.accounts], fun b _ _ => hledger.balance b, ?_, sequence,
    by rw [hledger.accounts]; exact hseq⟩
  intro b hb
  funext key
  refine (commitSlots_slot env o _ c b key).trans (if_neg ?_)
  rintro ⟨rfl, -⟩
  exact hb ho

/-- **The commit of one account**, also one that fails. -/
theorem commit_local {o : StateObject} (ho : o.address = a) (c : Store) :
    Local env a c (finalState (o.commit (evmKeeper env) c)) := by
  unfold StateObject.commit
  split_ifs
  · rw [finalState_adaptExcept, ho]
    exact local_deleteAccount c
  · refine finalState_bind_rel (R := Local env a) .trans (local_commitCode o c) fun _ c₁ => ?_
    refine finalState_bind_rel (R := Local env a) .trans ?_ fun _ c₂ => local_commitStorage ho c₂
    rw [finalState_adaptExcept, ho]
    exact (coinsOnly_setAccount o.account c₁).1

/-! ### Codes -/

/-- **The codes after the commit of one account**, also one that fails: as before, or as the account has it, or the
account was deleted. -/
theorem commit_code (o : StateObject) (c : Store) (h : Hash) :
    (finalState (o.commit (evmKeeper env) c)).getCode h = c.getCode h ∨
      (∃ entry, codeEntry o h = some entry ∧ (finalState (o.commit (evmKeeper env) c)).getCode h = entry) ∨
      ∃ sequence codeHash, c.accounts.get o.address = some (.eth sequence codeHash) ∧
        (finalState (o.commit (evmKeeper env) c)).accounts.get o.address = none := by
  unfold StateObject.commit
  split_ifs with hsuicided
  · rw [finalState_adaptExcept]
    cases hdelete : deleteAccount env o.address c with
    | ok u c' =>
        have hsame : (evmKeeper env).deleteAccount o.address c = .ok u c' := hdelete
        rw [hsame]
        rcases deleteAccount_ok env hdelete with ⟨-, rfl⟩ | ⟨sequence, codeHash, c₁, hacct, -, rfl⟩
        · exact Or.inl rfl
        · exact Or.inr (Or.inr ⟨sequence, codeHash, hacct, GoMap.get_delete_self _ _⟩)
    | error err c' =>
        have hsame : (evmKeeper env).deleteAccount o.address c = .error err c' := hdelete
        rw [hsame]
        left
        refine congrFun (getCode_of_kv ?_) h
        exact deleteAccount_error_kv hdelete
  · -- The code is written first, and nothing after it touches a code.
    have hrest : ∀ c₁ : Store, (finalState ((do
        EStateM.adaptExcept CommitError.setAccount ((evmKeeper env).setAccount o.address o.account)
        modify (o.commitStorage (evmKeeper env)) : EStateM CommitError Store PUnit) c₁)).getCode = c₁.getCode := by
      intro c₁
      refine finalState_bind_rel (R := fun c c' : Store => c'.getCode = c.getCode) ?_ ?_ ?_
      · intro c₁ c₂ c₃ hfirst hsecond
        exact hsecond.trans hfirst
      · rw [finalState_adaptExcept]
        exact getCode_of_kv (coinsOnly_setAccount o.account c₁).2
      · intro _ c₂
        exact commitStorage_code o c₂
    have hcode := congrFun (hrest (o.commitCode (evmKeeper env) c)) h
    rw [commitCode_code] at hcode
    cases hentry : codeEntry o h with
    | none =>
        rw [hentry] at hcode
        exact Or.inl hcode
    | some entry =>
        rw [hentry] at hcode
        exact Or.inr (Or.inl ⟨entry, rfl, hcode⟩)

/-! ## What one account changed is not changed back -/

variable (env) in
/-- The commits of some accounts changed something that no commit of another account changes back. -/
def Diverged (s : StateDB Store) (st : Store) (done : List Address) (c : Store) : Prop :=
  ∃ b ∈ done, c.accounts.get b ≠ st.accounts.get b ∨ (b ≠ env.evmAddress ∧ c.balance b ≠ st.balance b) ∨
    (∃ key, c.slot b key ≠ st.slot b key) ∨
    ∃ o h entry, s.stateObjects.get b = some o ∧ codeEntry o h = some entry ∧ c.getCode h = entry ∧
      st.getCode h ≠ entry

/-- A store that has diverged is another one. -/
theorem Diverged.ne {s : StateDB Store} {st c : Store} {done : List Address} (h : Diverged env s st done c) :
    c ≠ st := by
  rintro rfl
  obtain ⟨b, -, hb | ⟨-, hb⟩ | ⟨key, hb⟩ | ⟨o, h, entry, -, -, hcode, hne⟩⟩ := h
  · exact hb rfl
  · exact hb rfl
  · exact hb rfl
  · exact hne hcode

/-- Accounts with the same code hash that set their code have set the same. -/
def CodesAgree (s : StateDB Store) : Prop :=
  ∀ b b' o o', s.stateObjects.get b = some o → s.stateObjects.get b' = some o' → o.dirtyCode = true →
    o'.dirtyCode = true → o.account.codeHash = o'.account.codeHash → o.code = o'.code

/-- Two objects that store a code under one hash store the same. -/
theorem codeEntry_agree {s : StateDB Store} (hcodes : CodesAgree s) {b b' : Address} {o o' : StateObject}
    (ho : s.stateObjects.get b = some o) (ho' : s.stateObjects.get b' = some o') {h : Hash}
    {entry entry' : Option Bytes} (hentry : codeEntry o h = some entry) (hentry' : codeEntry o' h = some entry') :
    entry = entry' := by
  unfold codeEntry at hentry hentry'
  split_ifs at hentry with hdirty
  split_ifs at hentry' with hdirty'
  rw [hcodes b b' o o' ho ho' hdirty.1 hdirty'.1 (hdirty.2.trans hdirty'.2.symm), hentry'] at hentry
  exact (Option.some.inj hentry).symm

/-- **One more account**, also one whose commit fails. -/
theorem Diverged.step {s : StateDB Store} (hcodes : CodesAgree s) {st c : Store} {done : List Address}
    (h : Diverged env s st done c) (hmodule : c.IsModule env.evmAddress) {o : StateObject}
    (ho : s.stateObjects.get a = some o) (haddress : o.address = a) (hnew : a ∉ done)
    (hsame : c.accounts.get a = st.accounts.get a) :
    Diverged env s st (a :: done) (finalState (o.commit (evmKeeper env) c)) := by
  have hlocal := commit_local haddress c hmodule
  obtain ⟨b, hb, hchanged⟩ := h
  have hne : b ≠ a := by
    rintro rfl
    exact hnew hb
  have hmem : b ∈ a :: done := List.mem_cons_of_mem a hb
  rcases hchanged with haccount | ⟨hm, hbalance⟩ | ⟨key, hslot⟩ | ⟨ob, h, entry, hob, hentry, hcode, hdiffers⟩
  · refine ⟨b, hmem, Or.inl ?_⟩
    rw [hlocal.accounts b hne]
    exact haccount
  · refine ⟨b, hmem, Or.inr (Or.inl ⟨hm, ?_⟩)⟩
    rw [hlocal.balance b hne hm]
    exact hbalance
  · refine ⟨b, hmem, Or.inr (Or.inr (Or.inl ⟨key, ?_⟩))⟩
    rw [hlocal.slot b hne]
    exact hslot
  · have hafter : (finalState (o.commit (evmKeeper env) c)).getCode h = c.getCode h ∨ _ := commit_code o c h
    rcases hafter with hkept | ⟨entry', hentry', hwritten⟩ | ⟨sequence, codeHash, hacct, hgone⟩
    · exact ⟨b, hmem, Or.inr (Or.inr (Or.inr ⟨ob, h, entry, hob, hentry, hkept.trans hcode, hdiffers⟩))⟩
    · obtain rfl := codeEntry_agree hcodes hob ho hentry hentry'
      exact ⟨b, hmem, Or.inr (Or.inr (Or.inr ⟨ob, h, entry, hob, hentry, hwritten, hdiffers⟩))⟩
    · -- The code went with an account, and that account is gone for good.
      refine ⟨a, List.mem_cons_self, Or.inl ?_⟩
      rw [haddress] at hacct hgone
      rw [hgone, ← hsame, hacct]
      simp

/-! ### Writes of what is there -/

/-- Storing a code that is stored changes nothing. -/
theorem setCode_same {st : Store} {codeHash : Hash} {code : Bytes}
    (h : st.getCode codeHash = if code = [] then none else some code) : st.setCode codeHash code = st := by
  unfold Store.setCode
  split_ifs at h ⊢
  · rw [GoMap.delete_of_get h]
  · rw [GoMap.set_of_get h]

/-- Committing a code that is stored changes nothing. -/
theorem commitCode_same {o : StateObject} {st : Store}
    (h : ∀ h entry, codeEntry o h = some entry → st.getCode h = entry) : o.commitCode (evmKeeper env) st = st := by
  unfold StateObject.commitCode
  cases hcode : o.code with
  | none => rfl
  | some code =>
      dsimp only
      split_ifs with hdirty
      · exact setCode_same (h o.account.codeHash _ (by simp [codeEntry, hdirty, hcode]))
      · rfl

/-- Committing a slot that is stored changes nothing. -/
theorem commitSlot_same {o : StateObject} {st : Store} {key : Hash}
    (h : (writtenEntry o key).or (st.slot o.address key) = st.slot o.address key) :
    o.commitSlot (evmKeeper env) st key = st := by
  unfold writtenEntry at h
  unfold StateObject.commitSlot
  dsimp only at h ⊢
  split_ifs at h ⊢
  · rfl
  · have hslot : st.kv.get (stateKey o.address key.bytes) =
        some ((o.dirtyStorage.get key).getD (FixedBytes.zero 32)).bytes := h.symm
    show st.setState o.address key _ = st
    unfold Store.setState
    rw [if_neg (hash_bytes_ne_nil _), GoMap.set_of_get hslot]

/-- Committing slots that are stored changes nothing. -/
theorem commitStorage_same {o : StateObject} {st : Store}
    (h : ∀ key ∈ o.dirtyStorage.sortedKeys,
      (writtenEntry o key).or (st.slot o.address key) = st.slot o.address key) :
    o.commitStorage (evmKeeper env) st = st := by
  unfold StateObject.commitStorage
  generalize o.dirtyStorage.sortedKeys = keys at h
  induction keys with
  | nil => rfl
  | cons key keys ih =>
      obtain ⟨hhere, hrest⟩ := List.forall_mem_cons.mp h
      rw [List.foldl_cons, commitSlot_same hhere]
      exact ih hrest

/-- The account of the EVM module may not receive coins. -/
theorem blocked_evmAddress : env.blocked env.evmAddress = true := by
  simp [Env.blocked, allowedReceivingModAcc]

/-- Setting a balance to what it is changes nothing. -/
theorem setBalance_same {st c : Store} {amount : ℤ} (hamount : amount = st.balance a)
    (h : setBalance env a amount st = .ok () c) : c = st := by
  unfold setBalance at h
  dsimp only at h
  rw [if_neg (by omega), if_neg (by omega)] at h
  cases h
  rfl

/-! ### Accounts that are stored as they are to be written -/

/-- The code that a commit would write is there. -/
def CodeStored (st : Store) (o : StateObject) : Prop :=
  ∀ h entry, codeEntry o h = some entry → st.getCode h = entry

variable (env) in
/-- The account has the nonce and the code hash that a commit would set. -/
def AuthStored (st : Store) (o : StateObject) : Prop :=
  ∃ acct, st.accounts.get o.address = some acct ∧ acct.update env o.account.nonce o.account.codeHash = .ok acct

variable (env) in
/-- A commit of the object has nothing to change. -/
def Stored (st : Store) (o : StateObject) : Prop :=
  if o.suicided then st.accounts.get o.address = none
  else CodeStored st o ∧ AuthStored env st o ∧ o.account.balance = st.balance o.address ∧
    ∀ key ∈ o.dirtyStorage.sortedKeys,
      (writtenEntry o key).or (st.slot o.address key) = st.slot o.address key

variable (env) in
/-- A commit of the object fails with its first change: it is to be deleted and is no Ethereum account, or its
sequence cannot be set, or only its balance changes, to less than is locked. -/
def Refused (st : Store) (o : StateObject) : Prop :=
  if o.suicided then ∃ acct, st.accounts.get o.address = some acct ∧ ∀ sequence codeHash, acct ≠ .eth sequence codeHash
  else CodeStored st o ∧ ((st.IsModule o.address ∧ env.moduleSequence = false) ∨
    (AuthStored env st o ∧ o.account.balance < st.balance o.address ∧ o.account.balance < st.lockedCoins o.address))

/-- Where nonce and code hash are stored, only the balance is set. -/
theorem setAccount_of_authStored {o : StateObject} {st : Store} (h : AuthStored env st o) :
    setAccount env o.address o.account st = setBalance env o.address o.account.balance st := by
  obtain ⟨acct, hacct, hupdate⟩ := h
  have hauth : st.setAuth o.address acct = st := by
    unfold Store.setAuth
    rw [GoMap.set_of_get hacct]
  simp only [setAccount, hacct, Option.getD_some, hupdate, hauth]

/-- **An object that is stored** is committed without a change. -/
theorem commit_of_stored {o : StateObject} {st : Store} (h : Stored env st o) :
    o.commit (evmKeeper env) st = .ok () st := by
  unfold Stored at h
  rw [StateObject.commit_ok]
  split_ifs at h ⊢
  · show deleteAccount env o.address st = .ok () st
    simp [deleteAccount, h]
  · obtain ⟨hcode, hauth, hbalance, hslots⟩ := h
    refine ⟨st, ?_, commitStorage_same hslots⟩
    rw [commitCode_same hcode]
    show setAccount env o.address o.account st = .ok () st
    rw [setAccount_of_authStored hauth, hbalance]
    simp [setBalance]

/-- The commit of an object that is not deleted, where its account cannot be set. -/
theorem commit_error_iff {o : StateObject} (hsuicided : o.suicided = false) {st st' : Store} {err : CommitError} :
    o.commit (evmKeeper env) st = .error err st' ↔
      ∃ e, setAccount env o.address o.account (o.commitCode (evmKeeper env) st) = .error e st' ∧
        err = .setAccount e := by
  unfold StateObject.commit
  rw [if_neg (by simp [hsuicided]), bind_error]
  constructor
  · rintro (h | ⟨⟨⟩, c₁, h₁, h⟩)
    · exact absurd h modify_ne_error
    · obtain rfl := modify_ok.mp h₁
      rcases bind_error.mp h with h | ⟨⟨⟩, c₂, -, h⟩
      · obtain ⟨e, hset, herr⟩ := adaptExcept_error.mp h
        exact ⟨e, hset, herr.symm⟩
      · exact absurd h modify_ne_error
  · rintro ⟨e, hset, rfl⟩
    exact Or.inr ⟨(), _, modify_ok.mpr rfl, bind_error.mpr (Or.inl (adaptExcept_error.mpr ⟨e, hset, rfl⟩))⟩

/-- **An object that is refused** fails without a change. -/
theorem commit_of_refused {o : StateObject} {st : Store} (hmodule : st.IsModule env.evmAddress)
    (h : Refused env st o) : ∃ err, o.commit (evmKeeper env) st = .error err st := by
  unfold Refused at h
  split_ifs at h with hsuicided
  · obtain ⟨acct, hacct, hne⟩ := h
    refine ⟨.deleteAccount .invalidAccount, ?_⟩
    unfold StateObject.commit
    rw [if_pos hsuicided]
    refine adaptExcept_error.mpr ⟨.invalidAccount, ?_, rfl⟩
    show deleteAccount env o.address st = _
    cases acct with
    | eth sequence codeHash => exact absurd rfl (hne sequence codeHash)
    | module sequence => simp [deleteAccount, hacct]
    | other sequence locked => simp [deleteAccount, hacct]
  · obtain ⟨hcode, hfails⟩ := h
    have hset : ∃ e, setAccount env o.address o.account st = .error e st := by
      rcases hfails with ⟨⟨sequence, hseq⟩, hnever⟩ | ⟨hauth, hless, hlocked⟩
      · refine ⟨.sequenceNotSupported, ?_⟩
        simp [setAccount, hseq, AuthAccount.update, hnever]
      · refine ⟨.insufficientFunds, ?_⟩
        rw [setAccount_of_authStored hauth]
        unfold setBalance
        dsimp only
        rw [if_neg (by omega), if_pos (by omega)]
        refine bind_error.mpr (Or.inl (bind_error.mpr (Or.inr ⟨(), st, getModuleAccount_of_isModule hmodule, ?_⟩)))
        refine bind_error.mpr (Or.inl ?_)
        unfold subUnlockedCoins
        rw [if_pos (by omega)]
    obtain ⟨e, hset⟩ := hset
    refine ⟨.setAccount e, (commit_error_iff (by simpa using hsuicided)).mpr ⟨e, ?_, rfl⟩⟩
    rw [commitCode_same hcode]
    exact hset

/-- **A commit of one account that failed and changed nothing.** -/
theorem refused_of_commit {o : StateObject} {st : Store} (hmodule : st.IsModule env.evmAddress)
    (hspares : o.address = env.evmAddress → o.suicided = false → (st.balance o.address : ℤ) ≤ o.account.balance)
    {err : CommitError} (h : o.commit (evmKeeper env) st = .error err st) : Refused env st o := by
  unfold Refused
  split_ifs with hsuicided
  · unfold StateObject.commit at h
    rw [if_pos hsuicided] at h
    obtain ⟨e, hdelete, -⟩ := adaptExcept_error.mp h
    have hdelete' : deleteAccount env o.address st = .error e st := hdelete
    cases hacct : st.accounts.get o.address with
    | none => simp [deleteAccount, hacct] at hdelete'
    | some acct =>
        refine ⟨acct, rfl, ?_⟩
        rintro sequence codeHash rfl
        simp only [deleteAccount, hacct] at hdelete'
        have hfree : st.lockedCoins o.address = 0 := by simp [Store.lockedCoins, hacct]
        rcases bind_error.mp hdelete' with hcoins | ⟨⟨⟩, c₁, -, hrest⟩
        · refine absurd (setBalance_error_same hmodule ?_ hcoins).2 (by simp [hfree])
          rintro hm
          obtain ⟨seq, hseq⟩ := hmodule
          rw [← hm, hacct] at hseq
          cases hseq
        · exact absurd hrest modify_ne_error
  · have hlive : o.suicided = false := by simpa using hsuicided
    obtain ⟨e, hset, -⟩ := (commit_error_iff hlive).mp h
    have hcoins : CoinsOnly env o.address (o.commitCode (evmKeeper env) st) (finalState (setAccount env o.address
      o.account (o.commitCode (evmKeeper env) st))) := coinsOnly_setAccount o.account _
    rw [hset] at hcoins
    -- The code was written first.
    have hcode : CodeStored st o := by
      intro h entry hentry
      have hkept := congrFun (getCode_of_kv hcoins.2) h
      rw [commitCode_code, hentry, Option.getD_some] at hkept
      exact hkept
    refine ⟨hcode, ?_⟩
    rw [commitCode_same hcode] at hset
    cases hupdate : ((st.accounts.get o.address).getD newAccount).update env o.account.nonce o.account.codeHash with
    | error e' =>
        left
        cases hacct : st.accounts.get o.address with
        | none => simp [hacct, newAccount, AuthAccount.update] at hupdate
        | some acct =>
            rw [hacct] at hupdate
            cases acct with
            | module sequence =>
                refine ⟨⟨sequence, hacct⟩, ?_⟩
                simp only [Option.getD_some, AuthAccount.update] at hupdate
                split_ifs at hupdate with hsequence
                simpa using hsequence
            | eth sequence codeHash => cases hupdate
            | other sequence locked => cases hupdate
    | ok acct =>
        right
        have hset' : setBalance env o.address o.account.balance (st.setAuth o.address acct) = .error e st := by
          simpa only [setAccount, hupdate] using hset
        have hmodule' : (st.setAuth o.address acct).IsModule env.evmAddress :=
          ((coinsOnly_setAuth hupdate).1 hmodule).module
        have hauth : AuthStored env st o := by
          have hacct := setBalance_error_kept hmodule' hset' (GoMap.get_set_self _ o.address acct)
          rw [hacct] at hupdate
          exact ⟨acct, hacct, hupdate⟩
        rw [setAccount_of_authStored hauth] at hset
        exact ⟨hauth, setBalance_error_same hmodule (fun hm => hspares hm hlive) hset⟩

/-- **The first account that changes the stores** changes them for good. -/
theorem stored_or_diverged {s : StateDB Store} {o : StateObject} (ho : s.stateObjects.get o.address = some o)
    {st c : Store}
    (hspares : o.address = env.evmAddress → o.suicided = false → (st.balance o.address : ℤ) ≤ o.account.balance)
    (h : o.commit (evmKeeper env) st = .ok () c) : Stored env st o ∨ Diverged env s st [o.address] c := by
  rw [or_iff_not_imp_right]
  intro hnot
  have hsame : ∀ P : Prop, (¬P → Diverged env s st [o.address] c) → P :=
    fun P hP => by_contra fun hne => hnot (hP hne)
  have hhere : o.address ∈ [o.address] := List.mem_singleton_self o.address
  have haccount : c.accounts.get o.address = st.accounts.get o.address :=
    hsame _ fun hne => ⟨o.address, hhere, Or.inl hne⟩
  have hslot : ∀ key, c.slot o.address key = st.slot o.address key := fun key =>
    hsame _ fun hne => ⟨o.address, hhere, Or.inr (Or.inr (Or.inl ⟨key, hne⟩))⟩
  have hbalance : o.address ≠ env.evmAddress → c.balance o.address = st.balance o.address := fun hm =>
    hsame _ fun hne => ⟨o.address, hhere, Or.inr (Or.inl ⟨hm, hne⟩)⟩
  rw [StateObject.commit_ok] at h
  unfold Stored
  split_ifs at h ⊢ with hsuicided
  · rcases deleteAccount_ok env h with ⟨hnone, -⟩ | ⟨sequence, codeHash, st₁, hacct, -, rfl⟩
    · exact hnone
    · have hgone : (removeAccount o.address (clearStorage o.address (removeCode codeHash st₁))).accounts.get
          o.address = none := GoMap.get_delete_self _ _
      rw [hgone] at haccount
      exact haccount.symm
  · obtain ⟨c₁, hset, rfl⟩ := h
    have hledger := commitStorage_sameLedger env o c₁
    have hcode : CodeStored st o := by
      intro h entry hentry
      refine hsame _ fun hne => ⟨o.address, hhere, Or.inr (Or.inr (Or.inr ⟨o, h, entry, ho, hentry, ?_, hne⟩))⟩
      obtain ⟨acct, -, hmoves⟩ := setAccount_ok env hset
      rw [commitStorage_code, congrFun (getCode_of_kv hmoves.kv) h]
      show (o.commitCode (evmKeeper env) st).getCode h = entry
      rw [commitCode_code, hentry, Option.getD_some]
    rw [commitCode_same hcode] at hset
    obtain ⟨acct, hupdate, hmoves⟩ := setAccount_ok env hset
    have hauth : AuthStored env st o := by
      have hacct : st.accounts.get o.address = some acct := by
        rw [← haccount, hledger.accounts]
        exact hmoves.kept o.address acct (GoMap.get_set_self _ _ _)
      rw [hacct] at hupdate
      exact ⟨acct, hacct, hupdate⟩
    have hcoins : setBalance env o.address o.account.balance st = .ok () c₁ := by
      rw [← setAccount_of_authStored hauth]
      exact hset
    have hamount : o.account.balance = st.balance o.address := by
      by_cases hm : o.address = env.evmAddress
      · have hle := setBalance_blocked env (hm ▸ blocked_evmAddress : env.blocked o.address = true) hcoins
        exact le_antisymm hle (hspares hm (by simpa using hsuicided))
      · have hafter := (setBalance_ok env hcoins).balance o.address
        rw [amountAt_self, ← hledger.balance o.address, hbalance hm] at hafter
        omega
    obtain rfl := setBalance_same hamount hcoins
    refine ⟨hcode, hauth, hamount, fun key hkey => ?_⟩
    have hwritten := hslot key
    unfold StateObject.commitStorage at hwritten
    rw [commitSlots_slot, if_pos ⟨rfl, hkey⟩] at hwritten
    exact hwritten

/-- **The rest of a commit** keeps the stores different from what they were. -/
theorem diverged_stays {s : StateDB Store} (hk : s.keeper = evmKeeper env) (hco : s.Coherent)
    (hcodes : CodesAgree s) {st c : Store} {done addrs : List Address} (h : Diverged env s st done c)
    (hmodule : c.IsModule env.evmAddress) (hnodup : addrs.Nodup) (hnew : ∀ b ∈ addrs, b ∉ done)
    (hsame : ∀ b ∈ addrs, c.accounts.get b = st.accounts.get b) : finalState (s.commitAll addrs c) ≠ st := by
  induction addrs generalizing c done with
  | nil => exact h.ne
  | cons a addrs ih =>
      obtain ⟨ha, hnodup'⟩ := List.nodup_cons.mp hnodup
      obtain ⟨hnewa, hnew'⟩ := List.forall_mem_cons.mp hnew
      obtain ⟨hsamea, hsame'⟩ := List.forall_mem_cons.mp hsame
      cases ho : s.stateObjects.get a with
      | none =>
          have hpanic : s.commitAll (a :: addrs) c = .error (.panic .nilDereference) c := by
            unfold StateDB.commitAll
            show EStateM.bind _ _ c = _
            simp only [EStateM.bind, ho]
            rfl
          rw [hpanic]
          exact h.ne
      | some o =>
          have haddress := (hco a o ho).address
          have hstep := h.step hcodes hmodule ho haddress hnewa hsamea
          have hlocal := commit_local haddress c hmodule
          cases hcommit : o.commit (evmKeeper env) c with
          | ok u c₁ =>
              have hloop : s.commitAll (a :: addrs) c = s.commitAll addrs c₁ := by
                unfold StateDB.commitAll
                show EStateM.bind _ _ c = _
                simp only [EStateM.bind, ho, hk, hcommit]
              rw [hcommit] at hstep hlocal
              rw [hloop]
              refine ih hstep hlocal.module hnodup' ?_ ?_
              · intro b hb hmem
                rcases List.mem_cons.mp hmem with rfl | hmem
                · exact ha hb
                · exact hnew' b hb hmem
              · intro b hb
                rw [← hsame' b hb]
                refine hlocal.accounts b ?_
                rintro rfl
                exact ha hb
          | error err c₁ =>
              have hloop : s.commitAll (a :: addrs) c = .error err c₁ := by
                unfold StateDB.commitAll
                show EStateM.bind _ _ c = _
                simp only [EStateM.bind, ho, hk, hcommit]
              rw [hcommit] at hstep
              rw [hloop]
              exact hstep.ne

/-! ## Commits that fail -/

variable (env) in
/-- Some accounts are stored as they are to be written, and the next one is refused. -/
def FailsQuietly (s : StateDB Store) (st : Store) (addrs : List Address) : Prop :=
  ∃ before a after o, addrs = before ++ a :: after ∧
    (∀ b ∈ before, ∃ ob, s.stateObjects.get b = some ob ∧ Stored env st ob) ∧
    s.stateObjects.get a = some o ∧ Refused env st o

/-- A commit fails quietly at its first object, or goes past it without a change and fails quietly later. -/
theorem failsQuietly_cons {s : StateDB Store} {st : Store} {addrs : List Address} {o : StateObject}
    (ho : s.stateObjects.get a = some o) : FailsQuietly env s st (a :: addrs) ↔
      Refused env st o ∨ (Stored env st o ∧ FailsQuietly env s st addrs) := by
  constructor
  · rintro ⟨before, b, after, ob, hsplit, hbefore, hob, hrefused⟩
    cases before with
    | nil =>
        obtain ⟨rfl, -⟩ := List.cons.inj hsplit
        obtain rfl := Option.some.inj (ho.symm.trans hob)
        exact Or.inl hrefused
    | cons first before =>
        obtain ⟨rfl, hrest⟩ := List.cons.inj hsplit
        obtain ⟨⟨o', ho', hstored⟩, hothers⟩ := List.forall_mem_cons.mp hbefore
        obtain rfl := Option.some.inj (ho.symm.trans ho')
        exact Or.inr ⟨hstored, before, b, after, ob, hrest, hothers, hob, hrefused⟩
  · rintro (hrefused | ⟨hstored, before, b, after, ob, rfl, hbefore, hob, hrefused⟩)
    · exact ⟨[], a, addrs, o, rfl, by simp, ho, hrefused⟩
    · exact ⟨a :: before, b, after, ob, rfl, List.forall_mem_cons.mpr ⟨⟨o, ho, hstored⟩, hbefore⟩, hob, hrefused⟩

/-- No account spends coins of the module account. -/
def SparesModule (env : Env) (s : StateDB Store) (st : Store) : Prop :=
  ∀ o, s.stateObjects.get env.evmAddress = some o → o.suicided = false →
    (st.balance env.evmAddress : ℤ) ≤ o.account.balance

/-- **A commit that failed left the stores as they were**, if and only if it came only to accounts that are stored
as they are to be written, and then to one that was refused. -/
theorem commitAll_error_iff {s : StateDB Store} (hk : s.keeper = evmKeeper env) (hco : s.Coherent)
    (hcodes : CodesAgree s) {st st' : Store} (hspares : SparesModule env s st)
    (hmodule : st.IsModule env.evmAddress) {addrs : List Address} (hnodup : addrs.Nodup)
    (hlive : ∀ a ∈ addrs, ∃ o, s.stateObjects.get a = some o) {err : CommitError}
    (h : s.commitAll addrs st = .error err st') : st' = st ↔ FailsQuietly env s st addrs := by
  induction addrs with
  | nil => cases h
  | cons a addrs ih =>
      obtain ⟨ha, hnodup'⟩ := List.nodup_cons.mp hnodup
      obtain ⟨⟨o, ho⟩, hlive'⟩ := List.forall_mem_cons.mp hlive
      obtain rfl := (hco a o ho).address
      have hspared : o.address = env.evmAddress → o.suicided = false → (st.balance o.address : ℤ) ≤ o.account.balance := by
        intro hm
        rw [hm] at ho ⊢
        exact hspares o ho
      have hloop : s.commitAll (o.address :: addrs) st = EStateM.bind (o.commit (evmKeeper env))
          (fun _ => s.commitAll addrs) st := by
        unfold StateDB.commitAll
        show EStateM.bind _ _ st = _
        simp only [EStateM.bind, ho, hk]
      rw [hloop] at h
      rw [failsQuietly_cons ho]
      cases hcommit : o.commit (evmKeeper env) st with
      | error err₁ c₁ =>
          simp only [EStateM.bind, hcommit] at h
          cases h
          have hnot : ¬Stored env st o := by
            intro hstored
            rw [commit_of_stored hstored] at hcommit
            cases hcommit
          constructor
          · rintro rfl
            exact Or.inl (refused_of_commit hmodule hspared hcommit)
          · rintro (hrefused | ⟨hstored, -⟩)
            · obtain ⟨err', hcommit'⟩ := commit_of_refused hmodule hrefused
              rw [hcommit'] at hcommit
              cases hcommit
              rfl
            · exact absurd hstored hnot
      | ok u c₁ =>
          simp only [EStateM.bind, hcommit] at h
          have hnot : ¬Refused env st o := by
            intro hrefused
            obtain ⟨err', hcommit'⟩ := commit_of_refused hmodule hrefused
            rw [hcommit'] at hcommit
            cases hcommit
          rcases stored_or_diverged ho hspared hcommit with hstored | hdiverged
          · -- Nothing was written, and the rest of the loop decides.
            obtain rfl : c₁ = st := by
              rw [commit_of_stored hstored] at hcommit
              cases hcommit
              rfl
            rw [ih hnodup' hlive' h]
            simp [hnot, hstored]
          · have hlocal : ChangedAt env o.address st c₁ := by
              have hcommitted := commit_local (rfl : o.address = o.address) st hmodule
              rwa [hcommit] at hcommitted
            have hne : finalState (s.commitAll addrs c₁) ≠ st := by
              refine diverged_stays hk hco hcodes hdiverged hlocal.module hnodup' ?_ ?_
              · rintro b hb hmem
                rw [List.mem_singleton] at hmem
                exact ha (hmem ▸ hb)
              · intro b hb
                refine hlocal.accounts b ?_
                rintro rfl
                exact ha hb
            rw [h] at hne
            refine iff_of_false hne ?_
            rintro (hrefused | ⟨hstored, -⟩)
            · exact hnot hrefused
            · rw [commit_of_stored hstored] at hcommit
              cases hcommit
              exact hdiverged.ne rfl

end locality

/-! ## Messages that fail -/

section failing

variable [Keccak] {app : App}

/-- An execution that comes to its commit, with the state that is committed.
Source: `ApplyMessageWithConfig`, up to `if commit` -/
def App.Commits (app : App) (ctx : Context) (msg : Message) (cfg : EvmConfig) (txConfig : TxConfig) (st : Store)
    (s : StateDB Store) : Prop :=
  ∃ gas out used, checkEnabled cfg.params msg = .ok () ∧ app.executionGas ctx msg = .ok gas ∧
    app.execute ctx msg gas txConfig st = .ok (s, out) ∧
    temporaryGasUsed ctx msg.gas out.leftoverGas s.refund = .ok used

/-- Where a message can fail: before it comes to a commit, in the commit, or with a panic after it. -/
theorem App.applyMessageWithConfig_failed {ctx : Context} {msg : Message} {cfg : EvmConfig} {txConfig : TxConfig}
    {st st' : Store} {err : TxError} (h : app.applyMessageWithConfig ctx msg true cfg txConfig st = .error err st') :
    (st' = st ∧ ∀ s, ¬app.Commits ctx msg cfg txConfig st s) ∨
    (∃ s commitErr, app.Commits ctx msg cfg txConfig st s ∧ s.commit st = .error commitErr st' ∧
      ∀ s', app.Commits ctx msg cfg txConfig st s' → s' = s) ∨ ∃ p, err = .panic p := by
  rcases bind_error.mp h with h | ⟨⟨⟩, st₁, h₁, h⟩
  · obtain ⟨herr, rfl⟩ := ofExcept_error.mp h
    refine Or.inl ⟨rfl, ?_⟩
    rintro s ⟨gas, out, used, hok, -⟩
    rw [herr] at hok
    cases hok
  obtain ⟨henabled, rfl⟩ := ofExcept_ok.mp h₁
  rcases bind_error.mp h with h | ⟨gas, st₂, h₂, h⟩
  · obtain ⟨herr, rfl⟩ := ofExcept_error.mp h
    refine Or.inl ⟨rfl, ?_⟩
    rintro s ⟨gas, out, used, -, hok, -⟩
    rw [herr] at hok
    cases hok
  obtain ⟨hgas, rfl⟩ := ofExcept_ok.mp h₂
  rcases bind_error.mp h with h | ⟨st₃, st₄, h₃, h⟩
  · cases h
  obtain ⟨rfl, rfl⟩ := get_ok.mp h₃
  rcases bind_error.mp h with h | ⟨⟨s, out⟩, st₅, h₄, h⟩
  · obtain ⟨p, -, rfl⟩ := mapError_error.mp (ofExcept_error.mp h).1
    exact Or.inr (Or.inr ⟨p, rfl⟩)
  obtain ⟨hexecute, rfl⟩ := ofExcept_ok.mp h₄
  have hexecute := mapError_ok.mp hexecute
  have hunique : ∀ s', app.Commits ctx msg cfg txConfig st s' → s' = s ∧
      ∃ used, temporaryGasUsed ctx msg.gas out.leftoverGas s.refund = .ok used := by
    rintro s' ⟨gas', out', used', -, hgas', hexecute', hused'⟩
    obtain rfl := Except.ok.inj (hgas.symm.trans hgas')
    obtain ⟨rfl, rfl⟩ := Prod.mk.inj (Except.ok.inj (hexecute'.symm.trans hexecute))
    exact ⟨rfl, used', hused'⟩
  rcases bind_error.mp h with h | ⟨used, st₆, h₅, h⟩
  · obtain ⟨herr, rfl⟩ := ofExcept_error.mp h
    refine Or.inl ⟨rfl, fun s' hs' => ?_⟩
    obtain ⟨-, used, hok⟩ := hunique s' hs'
    rw [herr] at hok
    cases hok
  obtain ⟨hused, rfl⟩ := ofExcept_ok.mp h₅
  rcases bind_error.mp h with h | ⟨⟨⟩, st₇, -, h⟩
  · obtain ⟨commitErr, hcommit, -⟩ := adaptExcept_error.mp h
    exact Or.inr (Or.inl ⟨s, commitErr, ⟨gas, out, used, henabled, hgas, hexecute, hused⟩, hcommit,
      fun s' hs' => (hunique s' hs').1⟩)
  rcases bind_error.mp h with h | ⟨gasUsed, st₈, -, h⟩
  · obtain ⟨p, -, rfl⟩ := mapError_error.mp (ofExcept_error.mp h).1
    exact Or.inr (Or.inr ⟨p, rfl⟩)
  · cases h

/-- The stores after a message that returned an error. -/
theorem App.applyMessageWithConfig_failed_iff {ctx : Context} {msg : Message} {cfg : EvmConfig} {txConfig : TxConfig}
    {st st' : Store} {err : TxError} (h : app.applyMessageWithConfig ctx msg true cfg txConfig st = .error err st')
    (hpanic : ∀ p, err ≠ .panic p) (hmodule : st.IsModule app.env.evmAddress)
    (hspares : ∀ s, app.Commits ctx msg cfg txConfig st s → SparesModule app.env s st)
    (hcodes : ∀ s, app.Commits ctx msg cfg txConfig st s → CodesAgree s) :
    st' = st ↔ ∀ s, app.Commits ctx msg cfg txConfig st s → FailsQuietly app.env s st s.journal.sortedDirties := by
  rcases applyMessageWithConfig_failed h with ⟨hsame, hnone⟩ | ⟨s, commitErr, hcommits, hcommit, hunique⟩ | ⟨p, hp⟩
  · exact iff_of_true hsame fun s hs => absurd hs (hnone s)
  · have hcommits' := hcommits
    obtain ⟨gas, out, used, -, -, hexecute, -⟩ := hcommits'
    obtain ⟨-, ops, hrun, -⟩ := App.execute_run hexecute
    have hwf : Wf s := runOps_wf (wf_new st (evmKeeper app.env) txConfig) hrun
    obtain ⟨hkeeper, -, -⟩ := runOps_store (wf_new st (evmKeeper app.env) txConfig) hrun
    have hiff := commitAll_error_iff hkeeper hwf.ready.coherent (hcodes s hcommits) (hspares s hcommits) hmodule
      (nodup_sortedDirties s.journal) (fun a ha => hwf.live_of_dirty ha) hcommit
    rw [hiff]
    constructor
    · intro hquiet s' hs'
      rw [hunique s' hs']
      exact hquiet
    · intro hall
      exact hall s hcommits
  · exact absurd hp (hpanic p)

/-- **After a transaction that returned an error** the transactions that follow see the stores as before it, if and
only if it did not come to its commit, or the accounts before the one that failed are stored as they were to be written
and that one was refused with its first change. This is so in `TraceTx`, and in `TraceBlock` where the tracer was
made. -/
theorem failed_predecessor_iff {t : Tracing} {r : Replay} {tx : TxData} {i : ℕ} {msg : Message}
    (hmsg : app.asMessage t.ctx tx t.cfg.baseFee = some msg) {err : TxError} {st' : Store}
    (hfailed : app.applyMessageWithConfig t.ctx msg true t.cfg (app.blockCall r tx i).txConfig r.store =
      .error err st') (hpanic : ∀ p, err ≠ .panic p) (hmodule : r.store.IsModule app.env.evmAddress)
    (hspares : ∀ s, app.Commits t.ctx msg t.cfg (app.blockCall r tx i).txConfig r.store s →
      SparesModule app.env s r.store)
    (hcodes : ∀ s, app.Commits t.ctx msg t.cfg (app.blockCall r tx i).txConfig r.store s → CodesAgree s) :
    (∃ r', app.replayStep t r tx i = .ok r' ∧ (r'.store = r.store ↔
      ∀ s, app.Commits t.ctx msg t.cfg (app.blockCall r tx i).txConfig r.store s →
        FailsQuietly app.env s r.store s.journal.sortedDirties)) ∧
    ∀ results tracer, chooseTracer t.tracers t.traceConfig (app.blockCall r tx i).txConfig = .ok tracer →
      ∃ b, app.blockTraceStep t ⟨r, results⟩ tx i = .ok b ∧ (b.store = r.store ↔
        ∀ s, app.Commits t.ctx msg t.cfg (app.blockCall r tx i).txConfig r.store s →
          FailsQuietly app.env s r.store s.journal.sortedDirties) := by
  have hiff := App.applyMessageWithConfig_failed_iff hfailed hpanic hmodule hspares hcodes
  constructor
  · refine ⟨⟨(app.blockCall r tx i).txConfig, st'⟩, ?_, hiff⟩
    have hcall : app.applyMessageWithConfig t.ctx msg true t.cfg
        { r.txConfig with txHash := app.geth.txHash tx, txIndex := i } r.store = .error err st' := hfailed
    unfold App.replayStep
    simp only [hmsg, hcall]
    cases err with
    | panic p => exact absurd rfl (hpanic p)
    | _ => rfl
  · intro results tracer htracer
    refine ⟨⟨⟨(app.blockCall r tx i).txConfig, st'⟩, results⟩, ?_, hiff⟩
    have htrace : app.traceTx t (app.blockCall r tx i).txConfig tx true r.store = .error (.apply err) st' := by
      unfold App.traceTx
      simp only [hmsg, htracer, hfailed]
    have hstore : (app.blockCall r tx i).store = r.store := rfl
    unfold App.blockTraceStep
    simp only [hstore, htrace]

end failing

/-- A transaction without gas for its intrinsic cost fails before its commit. -/
theorem failed_predecessor_without_gas :
    letI := sampleKeccak
    let app := sampleApp (.ofNat 20 1) transferCall transferCall
    let st : Store := { emptyStore with accounts := GoMap.empty.set (.ofNat 20 107) (.module 0) }
    ∃ r', app.replayStep sampleTracing (sampleTracing.start st) (tracedTransfer 0 20000) 0 = .ok r' ∧
      r'.store = st := by
  let _ := sampleKeccak
  intro app st
  let r := sampleTracing.start st
  obtain ⟨msg, hmsg⟩ := Option.isSome_iff_exists.mp
    (by decide +kernel : (app.asMessage sampleTracing.ctx (tracedTransfer 0 20000) sampleTracing.cfg.baseFee).isSome)
  have hgas : app.executionGas sampleTracing.ctx msg = .error .intrinsicGas := by
    have hall : ((app.asMessage sampleTracing.ctx (tracedTransfer 0 20000) sampleTracing.cfg.baseFee).map
        fun msg => app.executionGas sampleTracing.ctx msg) = some (.error .intrinsicGas) := by decide +kernel
    rw [hmsg] at hall
    exact Option.some.inj hall
  have henabled : checkEnabled sampleTracing.cfg.params msg = .ok () := rfl
  have hnone : ∀ s, ¬app.Commits sampleTracing.ctx msg sampleTracing.cfg
      (app.blockCall r (tracedTransfer 0 20000) 0).txConfig st s := by
    rintro s ⟨gas, out, used, -, hok, -⟩
    rw [hgas] at hok
    cases hok
  have hfailed : app.applyMessageWithConfig sampleTracing.ctx msg true sampleTracing.cfg
      (app.blockCall r (tracedTransfer 0 20000) 0).txConfig st = .error .intrinsicGas st := by
    unfold App.applyMessageWithConfig
    rw [henabled, hgas]
    rfl
  obtain ⟨⟨r', hstep, hiff⟩, -⟩ := failed_predecessor_iff hmsg hfailed (by simp) ⟨0, by decide⟩
    (fun s hs => absurd hs (hnone s)) (fun s hs => absurd hs (hnone s))
  exact ⟨r', hstep, hiff.mpr fun s hs => absurd hs (hnone s)⟩

/-- A transfer of 5 coins to the module account of `gov`, which may not receive any. Its error is dropped, the coins
of the sender are burned and the minted ones stay with the module account of `evm`: the transactions that follow see
stores with less coins of the sender. -/
theorem predecessor_leaves_coins :
    letI := sampleKeccak
    let app := sampleApp (.ofNat 20 1) transferCall transferCall
    let st : Store := { emptyStore with
      accounts := (GoMap.empty.set (.ofNat 20 1) (.eth 0 emptyCodeHash)).set (.ofNat 20 107) (.module 0)
      balances := GoMap.empty.set (.ofNat 20 1) 10
      supply := 10 }
    let tx : TxData := .legacy ⟨0, some 10, 21000, some (.ofNat 20 105), some 5, [], [], [], []⟩
    let r := sampleTracing.start st
    (∃ err st', app.traceTx sampleTracing (app.blockCall r tx 0).txConfig tx true st = .error (.apply err) st') ∧
      (∃ r', app.replayStep sampleTracing r tx 0 = .ok r' ∧ r'.store ≠ st) ∧
      ∃ b, app.blockTraceStep sampleTracing ⟨r, []⟩ tx 0 = .ok b ∧ b.store ≠ st := by
  let _ := sampleKeccak
  intro app st tx r
  obtain ⟨err, st', hfailed, herr⟩ := exists_of_failsWith
    (by decide +kernel : failsWith (app.traceTx sampleTracing (app.blockCall r tx 0).txConfig tx true st)
      (· = .apply (.commit (.setAccount .blockedAddress))) = true)
  have hchanged : ∀ c : Store, c.balance (.ofNat 20 1) = 5 → c ≠ st := by
    rintro c hc rfl
    exact absurd hc (by decide)
  refine ⟨⟨_, st', of_decide_eq_true herr ▸ hfailed⟩, ?_, ?_⟩
  · obtain ⟨r', hr', hburned⟩ := except_bind_ok.mp (by decide +kernel :
      (app.replayStep sampleTracing r tx 0 >>= fun r' => .ok (r'.store.balance (.ofNat 20 1))) = .ok 5)
    exact ⟨r', hr', hchanged _ (Except.ok.inj hburned)⟩
  · obtain ⟨b, hb, hburned⟩ := except_bind_ok.mp (by decide +kernel :
      (app.blockTraceStep sampleTracing ⟨r, []⟩ tx 0 >>= fun b => .ok (b.store.balance (.ofNat 20 1))) = .ok 5)
    exact ⟨b, hb, hchanged _ (Except.ok.inj hburned)⟩

end Smartdoge.Evm
