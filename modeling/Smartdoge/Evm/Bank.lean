import Smartdoge.Lib.Writes
import Smartdoge.Statedb.StateObject

/-!
# Accounts, coins and the stores under the keeper

The part of the application state that `x/evm` reads and writes: the accounts of `x/auth`, the
ledger of `x/bank`, the byte store of the EVM module and its transient store. `x/auth` and
`x/bank` are code outside this repository. They are modelled as the keeper calls them: an account
map, and a ledger with mint, burn and send. Only the EVM denomination is kept, since no call of
`x/evm` moves another one.

The module accounts, their permissions and which of them may receive coins are those of `app.go`.

* `sendCoins_ok`, `mintCoins_ok`, `burnCoins_ok`: what a transfer, a mint or a burn that returned
  did to the ledger, and that it left everything else alone.
-/

set_option linter.unusedSectionVars false

namespace Smartdoge.Evm

open Smartdoge.Lib
open Smartdoge.Lib.Writes
open Smartdoge.Statedb (KeeperError amountAt amountAt_self amountAt_of_ne)

/-! ## Module accounts -/

/-- The modules that own an account.
Source: `app.go` `maccPerms`, the keys -/
inductive ModuleName where
  | feeCollector
  | distribution
  | mint
  | bondedPool
  | notBondedPool
  | gov
  | transfer
  | evm
deriving DecidableEq

/-- Source: `authtypes.Minter`, `authtypes.Burner`, `authtypes.Staking` -/
inductive Permission where
  | minter
  | burner
  | staking
deriving DecidableEq

/-- Source: `app.go` `maccPerms` -/
def maccPerms : ModuleName → List Permission
  | .feeCollector => []
  | .distribution => []
  | .mint => [.minter]
  | .bondedPool => [.burner, .staking]
  | .notBondedPool => [.burner, .staking]
  | .gov => [.burner]
  | .transfer => [.minter, .burner]
  | .evm => [.minter, .burner]

/-- Source: `app.go` `allowedReceivingModAcc` -/
def allowedReceivingModAcc : ModuleName → Bool
  | .distribution => true
  | _ => false

/-- What the SDK fixes for the whole life of the application. -/
structure Env where
  /-- `authtypes.NewModuleAddress`. -/
  moduleAddress : ModuleName → Address
  /-- Module addresses are hashes of the module names, all distinct. -/
  moduleAddress_injective : Function.Injective moduleAddress
  /-- Whether `SetSequence` works on a module account. -/
  moduleSequence : Bool

/-- The position of a module in `maccPerms`. -/
def ModuleName.index : ModuleName → ℕ
  | .feeCollector => 0
  | .distribution => 1
  | .mint => 2
  | .bondedPool => 3
  | .notBondedPool => 4
  | .gov => 5
  | .transfer => 6
  | .evm => 7

/-- An environment for concrete runs: the module addresses are small numbers. -/
def sampleEnv : Env where
  moduleAddress m := .ofNat 20 (100 + m.index)
  moduleAddress_injective := by
    intro m m' h
    cases m <;> cases m' <;> first | rfl | exact absurd h (by decide)
  moduleSequence := true

/-- Whether an address may not receive coins.
Source: `app.go` `BlockedAddrs` -/
def Env.blocked (env : Env) (a : Address) : Bool :=
  [ModuleName.feeCollector, .distribution, .mint, .bondedPool, .notBondedPool, .gov, .transfer,
    .evm].any fun m => env.moduleAddress m = a ∧ allowedReceivingModAcc m = false

/-! ## The stores -/

/-- An account of `x/auth`. The account number and the public key are not kept: the keeper does not
read them.
Source: `types/account.go` `EthAccount`; the other account types of the SDK -/
inductive AuthAccount where
  /-- An `EthAccount`, the only type that is an `EthAccountI`. -/
  | eth (sequence : UInt64) (codeHash : Hash)
  /-- A module account. -/
  | module (sequence : UInt64)
  /-- A base or vesting account, with the coins that are locked in it. -/
  | other (sequence : UInt64) (locked : ℕ)
deriving DecidableEq

/-- `acct.GetSequence()`. -/
def AuthAccount.sequence : AuthAccount → UInt64
  | .eth sequence _ => sequence
  | .module sequence => sequence
  | .other sequence _ => sequence

/-- The transient store of the EVM module.
Source: `types/key.go`, the transient prefixes -/
structure Transient where
  bloom : ℕ
  txIndex : ℕ
  logSize : ℕ
  gasUsed : UInt64
deriving DecidableEq

/-- An `sdk.AccAddress` that is not of the length of an Ethereum address. The SDK takes up to 255 bytes. -/
abbrev OtherAddress := { b : Bytes // b.length ≠ 20 }

/-- `bytes.Compare(a, b) <= 0`. -/
def OtherAddress.le (a b : OtherAddress) : Prop := a.1 ≤ b.1

instance : DecidableRel OtherAddress.le := fun a b => inferInstanceAs (Decidable (a.1 ≤ b.1))

instance : Std.Total OtherAddress.le := ⟨fun a b => Std.Total.total (r := (· ≤ ·)) a.1 b.1⟩

instance : Std.Antisymm OtherAddress.le :=
  ⟨fun a b h h' => Subtype.ext (Std.Antisymm.antisymm (r := (· ≤ ·)) a.1 b.1 h h')⟩

instance : IsTrans OtherAddress OtherAddress.le :=
  ⟨fun a b c => IsTrans.trans (r := (· ≤ ·)) a.1 b.1 c.1⟩

/-- The stores an `sdk.Context` gives access to. -/
structure Store where
  /-- The accounts of `x/auth` at Ethereum addresses. -/
  accounts : GoMap Address AuthAccount
  /-- The balances of `x/bank` in the EVM denomination. -/
  balances : GoMap Address ℕ
  /-- The total supply of the EVM denomination. -/
  supply : ℕ
  /-- The persistent store of the EVM module. -/
  kv : GoMap Bytes Bytes
  transient : Transient
  /-- The reading of the gas meter of the Cosmos transaction, as `x/evm` sets it. -/
  gasConsumed : UInt64 := 0
  /-- The accounts of `x/auth` at all other addresses. The keeper of the EVM module has Ethereum addresses only and
  never comes to them, but `IterateAccounts` does. -/
  otherAccounts : GoMap OtherAddress AuthAccount := GoMap.empty
deriving DecidableEq

/-- Empty stores. -/
def emptyStore : Store := ⟨GoMap.empty, GoMap.empty, 0, GoMap.empty, ⟨0, 0, 0, 0⟩, 0, GoMap.empty⟩

namespace Store

/-- `bankKeeper.GetBalance(addr, denom)`. -/
def balance (st : Store) (a : Address) : ℕ := (st.balances.get a).getD 0

/-- Set one balance of the ledger. -/
def setBalance (st : Store) (a : Address) (amount : ℕ) : Store :=
  { st with balances := st.balances.set a amount }

/-- The balance that was set is read back. -/
@[simp] theorem balance_setBalance_self (st : Store) (a : Address) (amount : ℕ) :
    (st.setBalance a amount).balance a = amount := by
  simp [balance, setBalance]

/-- The other balances are as before. -/
theorem balance_setBalance_of_ne (st : Store) {a b : Address} (h : b ≠ a) (amount : ℕ) :
    (st.setBalance a amount).balance b = st.balance b := by
  simp [balance, setBalance, GoMap.get_set_of_ne _ h]

/-- Coins that a vesting account may not spend.
Source: `x/bank` `LockedCoins` -/
def lockedCoins (st : Store) (a : Address) : ℕ :=
  match st.accounts.get a with
  | some (.other _ locked) => locked
  | _ => 0

/-- The account at an address is a module account. -/
def IsModule (st : Store) (a : Address) : Prop :=
  ∃ sequence, st.accounts.get a = some (.module sequence)

/-- Module accounts have no locked coins. -/
theorem IsModule.lockedCoins {st : Store} {a : Address} (h : st.IsModule a) : st.lockedCoins a = 0 := by
  obtain ⟨sequence, hacct⟩ := h
  simp [Store.lockedCoins, hacct]

/-- `accountKeeper.SetAccount(acct)`. -/
def setAuth (st : Store) (a : Address) (acct : AuthAccount) : Store :=
  { st with accounts := st.accounts.set a acct }

end Store

/-- A write to the stores. -/
abbrev Write := EStateM KeeperError Store PUnit

section ledger

variable [Keccak] (env : Env)

/-- `accountKeeper.NewAccountWithAddress(addr)`.
Source: `types/account.go` `ProtoAccount` -/
def newAccount : AuthAccount := .eth 0 emptyCodeHash

/-- Source: `x/bank` `subUnlockedCoins` -/
def subUnlockedCoins (a : Address) (amount : ℕ) : Write := fun st =>
  if st.balance a < st.lockedCoins a + amount then .error .insufficientFunds st
  else .ok () (st.setBalance a (st.balance a - amount))

/-- Source: `x/bank` `addCoins` -/
def addCoins (a : Address) (amount : ℕ) (st : Store) : Store := st.setBalance a (st.balance a + amount)

/-- Make an account for the recipient of a transfer if it has none.
Source: `x/bank` `SendCoins`, the end -/
def ensureAccount (a : Address) (st : Store) : Store :=
  match st.accounts.get a with
  | some _ => st
  | none => st.setAuth a newAccount

/-- Source: `x/bank` `SendCoins` -/
def sendCoins (sender recipient : Address) (amount : ℕ) : Write := do
  subUnlockedCoins sender amount
  modify (addCoins recipient amount)
  modify (ensureAccount recipient)

/-- Source: `x/auth` `GetModuleAccount`, which makes the account on first use -/
def getModuleAccount (m : ModuleName) : Write := fun st =>
  match st.accounts.get (env.moduleAddress m) with
  | none => .ok () (st.setAuth (env.moduleAddress m) (.module 0))
  | some (.module _) => .ok () st
  | some _ => .error .notModuleAccount st

/-- Source: `x/bank` `MintCoins` -/
def mintCoins (m : ModuleName) (amount : ℕ) : Write := do
  getModuleAccount env m
  if .minter ∈ maccPerms m then
    modify fun st => { addCoins (env.moduleAddress m) amount st with supply := st.supply + amount }
  else throw .noPermission

/-- Source: `x/bank` `BurnCoins`, the end -/
def subSupply (amount : ℕ) : Write := fun st =>
  if st.supply < amount then .error .negativeSupply st
  else .ok () { st with supply := st.supply - amount }

/-- Source: `x/bank` `BurnCoins` -/
def burnCoins (m : ModuleName) (amount : ℕ) : Write := do
  getModuleAccount env m
  if .burner ∈ maccPerms m then
    subUnlockedCoins (env.moduleAddress m) amount
    subSupply amount
  else throw .noPermission

/-- Source: `x/bank` `SendCoinsFromModuleToAccount` -/
def sendCoinsFromModuleToAccount (m : ModuleName) (recipient : Address) (amount : ℕ) : Write :=
  if env.blocked recipient then throw .blockedAddress
  else sendCoins (env.moduleAddress m) recipient amount

/-- Source: `x/bank` `SendCoinsFromAccountToModule` -/
def sendCoinsFromAccountToModule (sender : Address) (m : ModuleName) (amount : ℕ) : Write := do
  getModuleAccount env m
  sendCoins sender (env.moduleAddress m) amount

/-! ## What the ledger operations do -/

/-- The effect of ledger operations: balances move by `delta`, `minted` coins enter the supply,
fresh accounts appear at most at the addresses `new`, and nothing else changes. -/
structure Moves (new : List Address) (delta : Address → ℤ) (minted : ℤ) (st st' : Store) : Prop where
  balance : ∀ b, (st'.balance b : ℤ) = st.balance b + delta b
  supply : (st'.supply : ℤ) = st.supply + minted
  kept : ∀ b acct, st.accounts.get b = some acct → st'.accounts.get b = some acct
  made : ∀ b, b ∉ new → st'.accounts.get b = st.accounts.get b
  fresh : ∀ b acct, st.accounts.get b = none → st'.accounts.get b = some acct →
    acct = newAccount ∨ acct = .module 0
  kv : st'.kv = st.kv
  transient : st'.transient = st.transient

/-- Doing nothing moves nothing. -/
theorem Moves.refl (st : Store) : Moves [] (fun _ => 0) 0 st st :=
  ⟨by simp, by simp, fun _ _ h => h, fun _ _ => rfl, by simp_all, rfl, rfl⟩

/-- One effect after the other: the deltas add up. -/
theorem Moves.trans {new new' : List Address} {delta delta' : Address → ℤ} {minted minted' : ℤ}
    {st₁ st₂ st₃ : Store} (h : Moves new delta minted st₁ st₂)
    (h' : Moves new' delta' minted' st₂ st₃) :
    Moves (new ++ new') (fun b => delta b + delta' b) (minted + minted') st₁ st₃ where
  balance := by
    intro b
    rw [h'.balance, h.balance, add_assoc]
  supply := by rw [h'.supply, h.supply, add_assoc]
  kept := fun b acct hb => h'.kept b acct (h.kept b acct hb)
  made := by
    intro b hb
    rw [List.mem_append, not_or] at hb
    rw [h'.made b hb.2, h.made b hb.1]
  fresh := by
    intro b acct hb hacct
    cases h₂ : st₂.accounts.get b with
    | none => exact h'.fresh b acct h₂ hacct
    | some acct₂ =>
        rw [h'.kept b acct₂ h₂, Option.some.injEq] at hacct
        rw [← hacct]
        exact h.fresh b acct₂ hb h₂
  kv := h'.kv.trans h.kv
  transient := h'.transient.trans h.transient

/-- The same effect, described otherwise. -/
theorem Moves.congr {new new' : List Address} {delta delta' : Address → ℤ} {minted minted' : ℤ}
    {st st' : Store} (h : Moves new delta minted st st') (hnew : ∀ b ∈ new, b ∈ new')
    (hdelta : ∀ b, delta b = delta' b) (hminted : minted = minted') :
    Moves new' delta' minted' st st' where
  balance := fun b => by rw [h.balance, hdelta]
  supply := by rw [h.supply, hminted]
  kept := h.kept
  made := fun b hb => h.made b fun hmem => hb (hnew b hmem)
  fresh := h.fresh
  kv := h.kv
  transient := h.transient

/-- Setting a balance moves it by the difference. -/
theorem moves_setBalance (st : Store) (a : Address) (amount : ℕ) :
    Moves [] (amountAt a (amount - st.balance a)) 0 st (st.setBalance a amount) where
  balance := by
    intro b
    by_cases hb : b = a
    · subst hb
      simp
    · simp [Store.balance_setBalance_of_ne _ hb, amountAt_of_ne hb]
  supply := by simp [Store.setBalance]
  kept := fun _ _ h => h
  made := fun _ _ => rfl
  fresh := by
    intro b acct hnone hsome
    exact absurd (hnone.symm.trans hsome) (by simp)
  kv := rfl
  transient := rfl

/-- Coins are taken only where they are not locked. -/
theorem subUnlockedCoins_ok {a : Address} {amount : ℕ} {st st' : Store}
    (h : subUnlockedCoins a amount st = .ok () st') :
    st.lockedCoins a + amount ≤ st.balance a ∧ Moves [] (amountAt a (-amount)) 0 st st' := by
  unfold subUnlockedCoins at h
  split_ifs at h with hlt
  obtain rfl : st.setBalance a (st.balance a - amount) = st' := by simpa using h
  refine ⟨by omega, ?_⟩
  refine (moves_setBalance st a _).congr (by simp) ?_ rfl
  intro b
  congr 1
  omega

/-- Coins are added to one balance. -/
theorem moves_addCoins (st : Store) (a : Address) (amount : ℕ) :
    Moves [] (amountAt a amount) 0 st (addCoins a amount st) := by
  refine (moves_setBalance st a _).congr (by simp) ?_ rfl
  intro b
  congr 1
  omega

/-- Making an account moves no coins. -/
theorem moves_setAuth {st : Store} {a : Address} (h : st.accounts.get a = none) {acct : AuthAccount}
    (hacct : acct = newAccount ∨ acct = .module 0) :
    Moves [a] (fun _ => 0) 0 st (st.setAuth a acct) where
  balance := by simp [Store.balance, Store.setAuth]
  supply := by simp [Store.setAuth]
  kept := by
    intro b acct' hb
    have hba : b ≠ a := by
      rintro rfl
      rw [h] at hb
      exact absurd hb (by simp)
    rw [Store.setAuth, GoMap.get_set_of_ne _ hba]
    exact hb
  made := by
    intro b hb
    exact GoMap.get_set_of_ne _ (by simpa using hb) _
  fresh := by
    intro b acct' hnone hsome
    rw [Store.setAuth, GoMap.get_set] at hsome
    split_ifs at hsome with hba
    · rw [← Option.some.inj hsome]
      exact hacct
    · exact absurd (hnone.symm.trans hsome) (by simp)
  kv := rfl
  transient := rfl

/-- Making an account for a recipient moves no coins either. -/
theorem moves_ensureAccount (st : Store) (a : Address) :
    Moves [a] (fun _ => 0) 0 st (ensureAccount a st) := by
  unfold ensureAccount
  cases h : st.accounts.get a with
  | some acct => exact (Moves.refl st).congr (by simp) (fun _ => rfl) rfl
  | none => exact moves_setAuth h (Or.inl rfl)

/-- **A transfer.** The sum of the two deltas covers a transfer to oneself as well. -/
theorem sendCoins_ok {sender recipient : Address} {amount : ℕ} {st st' : Store}
    (h : sendCoins sender recipient amount st = .ok () st') :
    st.lockedCoins sender + amount ≤ st.balance sender ∧
      Moves [recipient] (fun b => amountAt sender (-amount) b + amountAt recipient amount b) 0 st st' := by
  obtain ⟨⟨⟩, st₁, h₁, h₂⟩ := bind_ok.mp h
  obtain ⟨⟨⟩, st₂, h₃, h₄⟩ := bind_ok.mp h₂
  obtain ⟨hfunds, hsub⟩ := subUnlockedCoins_ok h₁
  obtain rfl := modify_ok.mp h₃
  obtain rfl := modify_ok.mp h₄
  refine ⟨hfunds, ?_⟩
  refine ((hsub.trans (moves_addCoins st₁ recipient amount)).trans
    (moves_ensureAccount _ recipient)).congr (by simp) ?_ (by simp)
  intro b
  simp

/-- A module account stays one. -/
theorem Moves.isModule {new : List Address} {delta : Address → ℤ} {minted : ℤ} {st st' : Store}
    (h : Moves new delta minted st st') {a : Address} (ha : st.IsModule a) : st'.IsModule a := by
  obtain ⟨sequence, hacct⟩ := ha
  exact ⟨sequence, h.kept a _ hacct⟩

/-- The account of a module is there after it was asked for. -/
theorem getModuleAccount_ok {m : ModuleName} {st st' : Store}
    (h : getModuleAccount env m st = .ok () st') :
    Moves [env.moduleAddress m] (fun _ => 0) 0 st st' ∧ st'.IsModule (env.moduleAddress m) := by
  unfold getModuleAccount at h
  split at h
  · rename_i hnone
    obtain rfl : st.setAuth (env.moduleAddress m) (.module 0) = st' := by simpa using h
    exact ⟨moves_setAuth hnone (Or.inr rfl), 0, GoMap.get_set_self _ _ _⟩
  · rename_i sequence hacct
    obtain rfl : st = st' := by simpa using h
    exact ⟨(Moves.refl st).congr (by simp) (fun _ => rfl) rfl, sequence, hacct⟩
  · exact absurd h (by simp)

/-- A mint adds coins to the account of the module, and to the supply. -/
theorem mintCoins_ok {m : ModuleName} {amount : ℕ} {st st' : Store}
    (h : mintCoins env m amount st = .ok () st') :
    Moves [env.moduleAddress m] (amountAt (env.moduleAddress m) amount) amount st st' := by
  obtain ⟨⟨⟩, st₁, h₁, h₂⟩ := bind_ok.mp h
  obtain ⟨hmod, -⟩ := getModuleAccount_ok env h₁
  split_ifs at h₂ with hperm
  · obtain rfl := modify_ok.mp h₂
    have hadd := moves_addCoins st₁ (env.moduleAddress m) amount
    refine ⟨?_, ?_, ?_, ?_, ?_, ?_, ?_⟩
    · intro b
      rw [show ∀ st : Store, ∀ n, Store.balance { st with supply := n } b = st.balance b from
        fun _ _ => rfl, hadd.balance, hmod.balance, add_zero]
    · have hsupply := hmod.supply
      rw [add_zero] at hsupply
      push_cast
      rw [hsupply]
    · exact fun b acct hb => hadd.kept b acct (hmod.kept b acct hb)
    · exact fun b hb => hmod.made b hb
    · exact hmod.fresh
    · exact hmod.kv
    · exact hmod.transient
  · exact absurd h₂ (by simp)

/-- Coins that are burned leave the supply. -/
theorem subSupply_ok {amount : ℕ} {st st' : Store} (h : subSupply amount st = .ok () st') :
    Moves [] (fun _ => 0) (-amount) st st' := by
  unfold subSupply at h
  split_ifs at h with hlt
  obtain rfl : ({ st with supply := st.supply - amount } : Store) = st' := by simpa using h
  refine ⟨?_, ?_, fun _ _ hb => hb, fun _ _ => rfl, ?_, rfl, rfl⟩
  · intro b
    simp [Store.balance]
  · show ((st.supply - amount : ℕ) : ℤ) = st.supply + -amount
    omega
  · intro b acct hnone hsome
    exact absurd (hnone.symm.trans hsome) (by simp)

/-- A burn takes coins from the account of the module, and from the supply. -/
theorem burnCoins_ok {m : ModuleName} {amount : ℕ} {st st' : Store}
    (h : burnCoins env m amount st = .ok () st') :
    Moves [env.moduleAddress m] (amountAt (env.moduleAddress m) (-amount)) (-amount) st st' := by
  obtain ⟨⟨⟩, st₁, h₁, h₂⟩ := bind_ok.mp h
  obtain ⟨hmod, -⟩ := getModuleAccount_ok env h₁
  split_ifs at h₂ with hperm
  · obtain ⟨⟨⟩, st₂, h₃, h₄⟩ := bind_ok.mp h₂
    have hsub := (subUnlockedCoins_ok h₃).2
    have hsupply := subSupply_ok h₄
    refine ((hmod.trans hsub).trans hsupply).congr (by simp) ?_ (by simp)
    intro b
    simp
  · exact absurd h₂ (by simp)

/-- A payment by a module, to an address that may receive coins. -/
theorem sendCoinsFromModuleToAccount_ok {m : ModuleName} {recipient : Address} {amount : ℕ}
    {st st' : Store} (h : sendCoinsFromModuleToAccount env m recipient amount st = .ok () st') :
    env.blocked recipient = false ∧ st.lockedCoins (env.moduleAddress m) + amount ≤
        st.balance (env.moduleAddress m) ∧
      Moves [recipient]
        (fun b => amountAt (env.moduleAddress m) (-amount) b + amountAt recipient amount b) 0 st st' := by
  unfold sendCoinsFromModuleToAccount at h
  split_ifs at h with hblocked
  · exact absurd h (by simp)
  · exact ⟨by simpa using hblocked, sendCoins_ok h⟩

/-- A payment to a module, whose account is a module account after it. -/
theorem sendCoinsFromAccountToModule_ok {sender : Address} {m : ModuleName} {amount : ℕ}
    {st st' : Store} (h : sendCoinsFromAccountToModule env sender m amount st = .ok () st') :
    amount ≤ st.balance sender ∧ st'.IsModule (env.moduleAddress m) ∧
      Moves [env.moduleAddress m]
        (fun b => amountAt sender (-amount) b + amountAt (env.moduleAddress m) amount b) 0 st st' := by
  obtain ⟨⟨⟩, st₁, h₁, h₂⟩ := bind_ok.mp h
  obtain ⟨hmod, hmodule⟩ := getModuleAccount_ok env h₁
  obtain ⟨hfunds, hsend⟩ := sendCoins_ok h₂
  have hbal := hmod.balance sender
  refine ⟨by omega, hsend.isModule hmodule, ?_⟩
  refine (hmod.trans hsend).congr (by simp) ?_ (by simp)
  intro b
  simp

/-! ## When the ledger operations return -/

/-- The accounts that ledger operations make have no locked coins. -/
theorem Moves.lockedCoins {new : List Address} {delta : Address → ℤ} {minted : ℤ} {st st' : Store}
    (h : Moves new delta minted st st') (b : Address) : st'.lockedCoins b = st.lockedCoins b := by
  unfold Store.lockedCoins
  cases hbefore : st.accounts.get b with
  | some acct => rw [h.kept b acct hbefore]
  | none =>
      cases hafter : st'.accounts.get b with
      | none => rfl
      | some acct => rcases h.fresh b acct hbefore hafter with rfl | rfl <;> rfl

/-- A transfer that fails has done nothing: the amount was not spendable. -/
theorem sendCoins_error {sender recipient : Address} {amount : ℕ} {st st' : Store} {err : KeeperError}
    (h : sendCoins sender recipient amount st = .error err st') :
    st' = st ∧ st.balance sender < st.lockedCoins sender + amount := by
  rcases bind_error.mp h with h | ⟨⟨⟩, st₁, -, h⟩
  · unfold subUnlockedCoins at h
    split_ifs at h with hlocked
    cases h
    exact ⟨rfl, hlocked⟩
  · rcases bind_error.mp h with h | ⟨⟨⟩, st₂, -, h⟩
    · exact absurd h modify_ne_error
    · exact absurd h modify_ne_error

/-- The fee collector may not receive coins by a transfer. -/
theorem Env.blocked_feeCollector : env.blocked (env.moduleAddress .feeCollector) = true := by
  simp [Env.blocked, allowedReceivingModAcc]

end ledger

end Smartdoge.Evm
