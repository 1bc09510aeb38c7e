import Smartdoge.Evm.Accounts
import Smartdoge.Evm.CommitLedger

/-!
# The code of committed contracts

A contract that was created in a run has its code visible to a later `StateDB` if two things hold after the commit:
the keeper has its code hash, and the code is stored under that hash. The first is up to the account that was at the
address. The second is up to all of the commit, since codes are stored once for each hash: a contract that is deleted
takes the code with it, also that of a contract that was committed before it, and a contract that is committed later
puts it back.

* `commitAll_codeHash`: the code hashes after the commit loop.
* `commitAll_getCode`: the code under a hash is that of the last write to it.
* **`accountStore_faithful`**: when `SetAccount` and `Commit` are faithful.
-/

set_option linter.unusedSectionVars false

namespace Smartdoge.Evm

open Smartdoge.Lib
open Smartdoge.Lib.Writes
open Smartdoge.Statedb

section committed

variable [Keccak] {env : Env}

/-! ## Accounts -/

/-- Stores with the same accounts have the same code hashes. -/
theorem codeHash_congr {st st' : Store} (h : st'.accounts = st.accounts) (a : Address) :
    st'.codeHash a = st.codeHash a := by
  unfold Store.codeHash
  rw [h]

/-- One iteration of the commit loop keeps the accounts at the other addresses. -/
theorem commit_kept {o : StateObject} {st st' : Store} (h : o.commit (evmKeeper env) st = .ok () st') {b : Address}
    (hb : b ≠ o.address) :
    (∀ acct, st.accounts.get b = some acct → st'.accounts.get b = some acct) ∧ st'.codeHash b = st.codeHash b := by
  rw [StateObject.commit_ok] at h
  split_ifs at h
  · rcases deleteAccount_ok env h with ⟨-, rfl⟩ | ⟨sequence, codeHash, st₁, -, hmoves, hst'⟩
    · exact ⟨fun _ hacct => hacct, rfl⟩
    · obtain ⟨haccounts, -⟩ := removed_reads hst'
      have hget : st'.accounts.get b = st₁.accounts.get b := by
        rw [haccounts, GoMap.get_delete_of_ne _ hb]
      refine ⟨fun acct hacct => hget.trans (hmoves.kept b acct hacct), ?_⟩
      rw [← hmoves.codeHash b]
      unfold Store.codeHash
      rw [hget]
  · obtain ⟨st₁, hset, rfl⟩ := h
    obtain ⟨acct', -, hmoves⟩ := setAccount_ok env hset
    have hstorage := (commitStorage_sameLedger env o st₁).accounts
    have hother : ((o.commitCode (evmKeeper env) st).setAuth o.address acct').accounts.get b = st.accounts.get b := by
      rw [← (commitCode_sameLedger env o st).accounts]
      exact GoMap.get_set_of_ne _ hb _
    refine ⟨?_, ?_⟩
    · intro acct hacct
      rw [hstorage]
      exact hmoves.kept b acct (hother.trans hacct)
    · rw [codeHash_congr hstorage, hmoves.codeHash b]
      unfold Store.codeHash
      rw [hother]

/-- The code hash of an account that was just committed. -/
theorem commit_codeHash_self {o : StateObject} {st st' : Store} (h : o.commit (evmKeeper env) st = .ok () st')
    (hlive : o.suicided = false) :
    (holdsCodeHash st o.address ∧ st'.codeHash o.address = o.account.codeHash) ∨
      (¬holdsCodeHash st o.address ∧ st'.codeHash o.address = emptyCodeHash) := by
  simp only [StateObject.commit_ok, hlive, Bool.false_eq_true, if_false] at h
  obtain ⟨st₁, hset, rfl⟩ := h
  have hholds : holdsCodeHash (o.commitCode (evmKeeper env) st) o.address ↔ holdsCodeHash st o.address := by
    unfold holdsCodeHash
    rw [(commitCode_sameLedger env o st).accounts]
  have hread : ∀ account, st₁.getAccount o.address = some account →
      (o.commitStorage (evmKeeper env) st₁).codeHash o.address = account.codeHash := by
    intro account haccount
    obtain ⟨acct, hacct, rfl⟩ := Option.map_eq_some_iff.mp haccount
    rw [codeHash_congr (commitStorage_sameLedger env o st₁).accounts]
    simp [Store.codeHash, hacct]
  rcases getAccount_of_setAccount env hset with ⟨hyes, hget⟩ | ⟨hno, hget⟩
  · exact Or.inl ⟨hholds.mp hyes, hread _ hget⟩
  · exact Or.inr ⟨fun hyes => hno (hholds.mpr hyes), hread _ hget⟩

/-- **The commit loop** keeps the accounts and the code hashes at the addresses that it does not come to. -/
theorem commitAll_kept {s : StateDB Store} (hk : s.keeper = evmKeeper env) (hco : s.Coherent) {addrs : List Address}
    {st st' : Store} (hrun : s.commitAll addrs st = .ok () st') {b : Address} (hb : b ∉ addrs) :
    (∀ acct, st.accounts.get b = some acct → st'.accounts.get b = some acct) ∧ st'.codeHash b = st.codeHash b := by
  induction addrs generalizing st with
  | nil =>
      obtain rfl := forM_nil_ok.mp hrun
      exact ⟨fun _ hacct => hacct, rfl⟩
  | cons a addrs ih =>
      obtain ⟨hba, hrest⟩ := List.ne_and_not_mem_of_not_mem_cons hb
      obtain ⟨o, st₁, ho, hcommit, hrun'⟩ := StateDB.commitAll_cons_ok.mp hrun
      rw [hk] at hcommit
      rw [← (hco a o ho).address] at hba
      obtain ⟨hkept, hhash⟩ := commit_kept hcommit hba
      obtain ⟨hkept', hhash'⟩ := ih hrun' hrest
      exact ⟨fun acct hacct => hkept' acct (hkept acct hacct), hhash'.trans hhash⟩

/-- **The commit loop makes no account** at an address that it does not come to, but perhaps that of the module. -/
theorem commitAll_made {s : StateDB Store} (hk : s.keeper = evmKeeper env) (hco : s.Coherent) {addrs : List Address}
    {st st' : Store} (hrun : s.commitAll addrs st = .ok () st') {b : Address} (hb : b ∉ addrs)
    (hmodule : b ≠ env.moduleAddress .evm) : st'.accounts.get b = st.accounts.get b := by
  induction addrs generalizing st with
  | nil =>
      obtain rfl := forM_nil_ok.mp hrun
      rfl
  | cons a addrs ih =>
      obtain ⟨hba, hrest⟩ := List.ne_and_not_mem_of_not_mem_cons hb
      obtain ⟨o, st₁, ho, hcommit, hrun'⟩ := StateDB.commitAll_cons_ok.mp hrun
      rw [hk] at hcommit
      rw [← (hco a o ho).address] at hba
      rw [ih hrun' hrest, (commit_settledAt env hcommit).1.made b hba hmodule]

/-! ## The account of the module -/

/-- The commit of an object mints or burns coins. -/
def MovesCoins (st : Store) (o : StateObject) : Prop :=
  if o.suicided then (st.accounts.get o.address).isSome ∧ st.balance o.address ≠ 0
  else o.account.balance ≠ st.balance o.address

/-- Minting and burning make the account of the module. -/
theorem setBalance_module {a : Address} {amount : ℤ} {st st' : Store} (h : setBalance env a amount st = .ok () st') :
    (amount ≠ st.balance a → st'.IsModule (env.moduleAddress .evm)) ∧ (amount = st.balance a → st' = st) := by
  simp only [setBalance] at h
  split_ifs at h with hpos hneg
  · refine ⟨fun _ => ?_, fun heq => absurd heq (by omega)⟩
    obtain ⟨⟨⟩, st₁, h₁, h₂⟩ := bind_ok.mp h
    obtain ⟨⟨⟩, st₀, h₀, hmint⟩ := bind_ok.mp h₁
    obtain ⟨-, -, hsend⟩ := sendCoinsFromModuleToAccount_ok env h₂
    have hmodule := (getModuleAccount_ok env h₀).2
    refine hsend.isModule ?_
    split_ifs at hmint
    · obtain rfl := modify_ok.mp hmint
      exact hmodule
    · exact (throw_ok.mp hmint).elim
  · refine ⟨fun _ => ?_, fun heq => absurd heq (by omega)⟩
    obtain ⟨⟨⟩, st₁, h₁, h₂⟩ := bind_ok.mp h
    obtain ⟨-, hmodule, -⟩ := sendCoinsFromAccountToModule_ok env h₁
    exact (burnCoins_ok env h₂).isModule hmodule
  · obtain rfl : st = st' := by simpa using h
    exact ⟨fun hne => absurd (by omega) hne, fun _ => rfl⟩

/-- **One iteration of the commit loop makes the account of the module** if and only if it moves coins. -/
theorem commit_module {o : StateObject} {st st' : Store} (h : o.commit (evmKeeper env) st = .ok () st')
    (hne : env.moduleAddress .evm ≠ o.address) (hnone : st.accounts.get (env.moduleAddress .evm) = none) :
    (MovesCoins st o → st'.IsModule (env.moduleAddress .evm)) ∧
      (¬MovesCoins st o → st'.accounts.get (env.moduleAddress .evm) = none) := by
  rw [StateObject.commit_ok] at h
  unfold MovesCoins
  split_ifs at h ⊢
  · rcases deleteAccount_run env h with ⟨hmissing, rfl⟩ | ⟨sequence, codeHash, st₁, hacct, hbalance, hst'⟩
    · exact ⟨fun hmoves => absurd hmoves.1 (by simp [hmissing]), fun _ => hnone⟩
    · obtain ⟨hmade, hsame⟩ := setBalance_module hbalance
      obtain ⟨haccounts, -⟩ := removed_reads hst'
      have hget : st'.accounts.get (env.moduleAddress .evm) = st₁.accounts.get (env.moduleAddress .evm) := by
        rw [haccounts, GoMap.get_delete_of_ne _ hne]
      unfold Store.IsModule
      rw [hget, hacct]
      refine ⟨fun hmoves => hmade fun hzero => hmoves.2 (by omega), fun hstays => ?_⟩
      have hzero : st.balance o.address = 0 := by
        by_contra hne
        exact hstays ⟨rfl, hne⟩
      rw [hsame (by omega), hnone]
  · obtain ⟨st₁, hset, rfl⟩ := h
    obtain ⟨acct, -, hbalance⟩ := setAccount_run env hset
    obtain ⟨hmade, hsame⟩ := setBalance_module hbalance
    have hbefore : ((o.commitCode (evmKeeper env) st).setAuth o.address acct).balance o.address =
        st.balance o.address := (commitCode_sameLedger env o st).balance o.address
    have hother : ((o.commitCode (evmKeeper env) st).setAuth o.address acct).accounts.get
        (env.moduleAddress .evm) = none := by
      rw [← hnone, ← (commitCode_sameLedger env o st).accounts]
      exact GoMap.get_set_of_ne _ hne _
    rw [hbefore] at hmade hsame
    unfold Store.IsModule
    rw [(commitStorage_sameLedger env o st₁).accounts]
    refine ⟨hmade, fun hstays => ?_⟩
    rw [hsame (not_not.mp hstays), hother]

/-- Whether a commit moves coins does not depend on the iterations before. -/
theorem movesCoins_congr {o o' : StateObject} {st st' : Store} (h : o.commit (evmKeeper env) st = .ok () st')
    (hne : o'.address ≠ o.address) (hmodule : o'.address ≠ env.moduleAddress .evm) :
    MovesCoins st' o' ↔ MovesCoins st o' := by
  obtain ⟨hsettled, -⟩ := commit_settledAt env h
  unfold MovesCoins
  rw [hsettled.made _ hne hmodule, hsettled.others _ hne]

/-- **The commit loop makes the account of the module** if and only if one of its iterations moves coins. -/
theorem commitAll_module {s : StateDB Store} (hk : s.keeper = evmKeeper env) (hco : s.Coherent)
    {addrs : List Address} (hnodup : addrs.Nodup) (hnot : env.moduleAddress .evm ∉ addrs) {st st' : Store}
    (hrun : s.commitAll addrs st = .ok () st') (hnone : st.accounts.get (env.moduleAddress .evm) = none) :
    ((∃ b ∈ addrs, ∃ o, s.stateObjects.get b = some o ∧ MovesCoins st o) ∧ st'.IsModule (env.moduleAddress .evm)) ∨
      ((¬∃ b ∈ addrs, ∃ o, s.stateObjects.get b = some o ∧ MovesCoins st o) ∧
        st'.accounts.get (env.moduleAddress .evm) = none) := by
  induction addrs generalizing st with
  | nil =>
      obtain rfl := forM_nil_ok.mp hrun
      exact Or.inr ⟨by simp, hnone⟩
  | cons a addrs ih =>
      obtain ⟨hne, hrest⟩ := List.ne_and_not_mem_of_not_mem_cons hnot
      obtain ⟨ha, hnodup'⟩ := List.nodup_cons.mp hnodup
      obtain ⟨o, st₁, ho, hcommit, hrun'⟩ := StateDB.commitAll_cons_ok.mp hrun
      rw [hk] at hcommit
      have haddr := (hco a o ho).address
      rw [← haddr] at hne
      obtain ⟨hmade, hstays⟩ := commit_module hcommit hne hnone
      by_cases hmoves : MovesCoins st o
      · left
        obtain ⟨sequence, hacct⟩ := hmade hmoves
        exact ⟨⟨a, List.mem_cons_self, o, ho, hmoves⟩, sequence, (commitAll_kept hk hco hrun' hrest).1 _ hacct⟩
      · -- The later iterations see the same balances and accounts.
        have hsame : ∀ b ∈ addrs, ∀ o', s.stateObjects.get b = some o' → (MovesCoins st₁ o' ↔ MovesCoins st o') := by
          intro b hb o' ho'
          have haddr' := (hco b o' ho').address
          refine movesCoins_congr hcommit ?_ ?_
          · rw [haddr, haddr']
            rintro rfl
            exact ha hb
          · rw [haddr']
            rintro rfl
            exact hrest hb
        have hexists : (∃ b ∈ a :: addrs, ∃ o, s.stateObjects.get b = some o ∧ MovesCoins st o) ↔
            ∃ b ∈ addrs, ∃ o, s.stateObjects.get b = some o ∧ MovesCoins st₁ o := by
          constructor
          · rintro ⟨b, hb, o', ho', hmoves'⟩
            rcases List.mem_cons.mp hb with rfl | hb
            · rw [ho] at ho'
              cases ho'
              exact absurd hmoves' hmoves
            · exact ⟨b, hb, o', ho', (hsame b hb o' ho').mpr hmoves'⟩
          · rintro ⟨b, hb, o', ho', hmoves'⟩
            exact ⟨b, List.mem_cons_of_mem a hb, o', ho', (hsame b hb o' ho').mp hmoves'⟩
        rw [hexists]
        exact ih hnodup' hrest hrun' (hstays hmoves)

/-! ## Codes -/

/-- The entry that a commit of an object leaves under a code hash, if it writes one. -/
def codeEntry (o : StateObject) (h : Hash) : Option (Option Bytes) :=
  if o.dirtyCode ∧ o.account.codeHash = h then o.code.map fun code => if code = [] then none else some code else none

/-- Where the code of an object goes. -/
theorem commitCode_code (o : StateObject) (c : Store) (h : Hash) :
    (o.commitCode (evmKeeper env) c).getCode h = (codeEntry o h).getD (c.getCode h) := by
  unfold StateObject.commitCode codeEntry
  cases hcode : o.code with
  | none => simp
  | some code =>
      dsimp only
      by_cases hdirty : o.dirtyCode = true
      · rw [if_pos hdirty]
        refine (Store.getCode_setCode c o.account.codeHash h code).trans ?_
        by_cases hh : h = o.account.codeHash
        · simp [hdirty, hh]
        · simp [hdirty, hh, Ne.symm hh]
      · simp [hdirty]

/-- Writing the storage of an object writes no code. -/
theorem commitStorage_code (o : StateObject) (c : Store) :
    (o.commitStorage (evmKeeper env) c).getCode = c.getCode := by
  unfold StateObject.commitStorage
  generalize o.dirtyStorage.sortedKeys = keys
  induction keys generalizing c with
  | nil => rfl
  | cons key keys ih =>
      rw [List.foldl_cons, ih]
      unfold StateObject.commitSlot
      dsimp only
      split_ifs
      · rfl
      · exact Store.getCode_setState c _ key _

/-- Stores with the same bytes have the same codes. -/
theorem getCode_of_kv {c c' : Store} (h : c'.kv = c.kv) : c'.getCode = c.getCode := by
  funext codeHash
  unfold Store.getCode
  rw [h]

/-- What one iteration of the commit loop writes under a code hash, if it does: nothing is left of it after a
deletion. -/
def codeWrite (st : Store) (h : Hash) (o : StateObject) : Option (Option Bytes) :=
  if o.suicided then (if st.codeHash o.address = h ∧ h ≠ emptyCodeHash then some none else none) else codeEntry o h

/-- **One iteration of the commit loop**, on the codes. -/
theorem commit_getCode {o : StateObject} {st st' : Store} (hrun : o.commit (evmKeeper env) st = .ok () st') (h : Hash) :
    st'.getCode h = (codeWrite st h o).getD (st.getCode h) := by
  rw [StateObject.commit_ok] at hrun
  unfold codeWrite
  split_ifs at hrun ⊢ with hsuicided hsame
  · obtain ⟨hhash, hne⟩ := hsame
    rcases deleteAccount_ok env hrun with ⟨hnone, rfl⟩ | ⟨sequence, codeHash, st₁, hacct, -, hst'⟩
    · rw [Store.codeHash, hnone] at hhash
      exact absurd hhash.symm hne
    · obtain ⟨-, -, -, -, hcode⟩ := removed_reads hst'
      have hself : codeHash = h := by
        rw [Store.codeHash, hacct] at hhash
        exact hhash
      rw [hcode, if_pos ⟨hself.symm, hself ▸ hne⟩]
      rfl
  · rcases deleteAccount_ok env hrun with ⟨-, rfl⟩ | ⟨sequence, codeHash, st₁, hacct, hmoves, hst'⟩
    · rfl
    · obtain ⟨-, -, -, -, hcode⟩ := removed_reads hst'
      have hself : st.codeHash o.address = codeHash := by simp [Store.codeHash, hacct, Store.authCodeHash]
      rw [hcode, if_neg, getCode_of_kv hmoves.kv]
      · rfl
      · rintro ⟨rfl, hne⟩
        exact hsame ⟨hself, hne⟩
  · obtain ⟨st₁, hset, rfl⟩ := hrun
    rw [commitStorage_code, getCode_of_setAccount env hset, commitCode_code]

/-- What a commit writes under a code hash, in the order of the addresses. -/
def codeWrites (s : StateDB Store) (st : Store) (h : Hash) (addrs : List Address) : List (Option Bytes) :=
  addrs.filterMap fun b => (s.stateObjects.get b).bind (codeWrite st h)

/-- **The code under a hash after the commit loop** is that of the last write to it. -/
theorem commitAll_getCode {s : StateDB Store} (hk : s.keeper = evmKeeper env) (hco : s.Coherent)
    {addrs : List Address} (hnodup : addrs.Nodup) {st st' : Store} (hrun : s.commitAll addrs st = .ok () st')
    (h : Hash) : st'.getCode h = (codeWrites s st h addrs).getLast?.getD (st.getCode h) := by
  induction addrs generalizing st with
  | nil =>
      obtain rfl := forM_nil_ok.mp hrun
      rfl
  | cons a addrs ih =>
      obtain ⟨ha, hnodup'⟩ := List.nodup_cons.mp hnodup
      obtain ⟨o, st₁, ho, hcommit, hrun'⟩ := StateDB.commitAll_cons_ok.mp hrun
      rw [hk] at hcommit
      have haddr := (hco a o ho).address
      -- The later iterations find the code hashes that were there at the start.
      have hsame : codeWrites s st₁ h addrs = codeWrites s st h addrs := by
        refine List.filterMap_congr fun b hb => ?_
        cases hob : s.stateObjects.get b with
        | none => rfl
        | some o' =>
            have hne : o'.address ≠ o.address := by
              rw [haddr, (hco b o' hob).address]
              rintro rfl
              exact ha hb
            show codeWrite st₁ h o' = codeWrite st h o'
            unfold codeWrite
            rw [(commit_kept hcommit hne).2]
      rw [ih hnodup' hrun', hsame, commit_getCode hcommit h]
      unfold codeWrites
      rw [List.filterMap_cons, ho, Option.bind_some]
      cases codeWrite st h o with
      | none => rfl
      | some written => simp [List.getLast?_cons]

/-! ## Contracts -/

/-- An object that a commit stores as a contract with this code. -/
structure Deploys (o : StateObject) (code : Bytes) : Prop where
  live : o.suicided = false
  dirty : o.dirtyCode = true
  holds : o.code = some code
  nonempty : code ≠ []
  codeHash : o.account.codeHash ≠ emptyCodeHash

/-- The commit loop, at one of its addresses. -/
theorem commitAll_split {s : StateDB Store} {before after : List Address} {a : Address} {st st' : Store}
    (hrun : s.commitAll (before ++ a :: after) st = .ok () st') :
    ∃ o st₁ st₂, s.stateObjects.get a = some o ∧ s.commitAll before st = .ok () st₁ ∧
      o.commit s.keeper st₁ = .ok () st₂ ∧ s.commitAll after st₂ = .ok () st' := by
  induction before generalizing st with
  | nil =>
      obtain ⟨o, st₂, ho, hcommit, hafter⟩ := StateDB.commitAll_cons_ok.mp hrun
      exact ⟨o, st, st₂, ho, forM_nil_ok.mpr rfl, hcommit, hafter⟩
  | cons b before ih =>
      obtain ⟨o', st₀, ho', hcommit', hrest⟩ := StateDB.commitAll_cons_ok.mp hrun
      obtain ⟨o, st₁, st₂, ho, hbefore, hcommit, hafter⟩ := ih hrest
      exact ⟨o, st₁, st₂, ho, StateDB.commitAll_cons_ok.mpr ⟨o', st₀, ho', hcommit', hbefore⟩, hcommit, hafter⟩

/-- The account of the module is not there yet, and is made before the address has its turn. -/
def ModuleMadeBefore (env : Env) (s : StateDB Store) (st : Store) (before : List Address) (a : Address) : Prop :=
  a = env.moduleAddress .evm ∧ st.accounts.get a = none ∧
    ∃ b ∈ before, ∃ o, s.stateObjects.get b = some o ∧ MovesCoins st o

/-- Whether `SetAccount` will keep the code hash at an address is known before the commit. -/
theorem holdsCodeHash_at_turn {s : StateDB Store} (hk : s.keeper = evmKeeper env) (hco : s.Coherent)
    {before : List Address} (hnodup : before.Nodup) {a : Address} (ha : a ∉ before) {st st₁ : Store}
    (hrun : s.commitAll before st = .ok () st₁) :
    holdsCodeHash st₁ a ↔ holdsCodeHash st a ∧ ¬ModuleMadeBefore env s st before a := by
  unfold holdsCodeHash ModuleMadeBefore
  cases hacct : st.accounts.get a with
  | some acct =>
      rw [(commitAll_kept hk hco hrun ha).1 acct hacct]
      simp
  | none =>
      by_cases hmodule : a = env.moduleAddress .evm
      · subst hmodule
        rcases commitAll_module hk hco hnodup ha hrun hacct with ⟨hmade, sequence, hget⟩ | ⟨hnot, hget⟩
        · simp [hget, hmade]
        · simp [hget, hnot]
      · rw [commitAll_made hk hco hrun ha hmodule, hacct]
        simp [hmodule]

/-- **The code of a contract that was committed.** -/
theorem committed_code_iff {s : StateDB Store} (hk : s.keeper = evmKeeper env) (hco : s.Coherent) {st st' : Store}
    (hcommit : s.commit st = .ok () st') {before after : List Address} {a : Address}
    (hdirties : s.journal.sortedDirties = before ++ a :: after) {o : StateObject} (ho : s.stateObjects.get a = some o)
    {code : Bytes} (hdeploys : Deploys o code) (txConfig : TxConfig) :
    ((StateDB.new st' (evmKeeper env) txConfig).getCode a).1 = some code ↔
      holdsCodeHash st a ∧ ¬ModuleMadeBefore env s st before a ∧
        (codeWrites s st o.account.codeHash s.journal.sortedDirties).getLast? = some (some code) := by
  have hnodup := nodup_sortedDirties s.journal
  have hstored := commitAll_getCode hk hco hnodup hcommit o.account.codeHash
  unfold StateDB.commit at hcommit
  rw [hdirties] at hcommit hnodup
  obtain ⟨o', st₁, st₂, ho', hbefore, hself, hafter⟩ := commitAll_split hcommit
  obtain rfl : o = o' := Option.some.inj (ho.symm.trans ho')
  rw [hk] at hself
  have haddr := (hco a o ho).address
  obtain ⟨hnodup₁, hnodup₂, hdisjoint⟩ := List.nodup_append.mp hnodup
  have hnot : a ∉ before := fun hmem => hdisjoint a hmem a List.mem_cons_self rfl
  have hturn := holdsCodeHash_at_turn hk hco hnodup₁ hnot hbefore
  have hkept : st'.codeHash a = st₂.codeHash a :=
    (commitAll_kept hk hco hafter (List.nodup_cons.mp hnodup₂).1).2
  -- The contract writes its own code, so that there is a last write.
  have hwrites : codeWrites s st o.account.codeHash s.journal.sortedDirties ≠ [] := by
    refine List.ne_nil_of_mem (a := some code) (List.mem_filterMap.mpr ⟨a, ?_, ?_⟩)
    · rw [hdirties]
      simp
    · rw [ho, Option.bind_some, codeWrite, hdeploys.live]
      simp [codeEntry, hdeploys.dirty, hdeploys.holds, hdeploys.nonempty]
  have hvisible : ((StateDB.new st' (evmKeeper env) txConfig).getCode a).1 =
      if st'.codeHash a = emptyCodeHash then none else st'.getCode (st'.codeHash a) := by
    rw [getCode_new, Store.getAccount, Store.codeHash]
    cases st'.accounts.get a with
    | none => simp
    | some acct =>
        simp only [Option.map_some, Option.bind_some, Option.getD_some, codeView]
        rfl
  rw [hvisible, hkept]
  rcases commit_codeHash_self hself hdeploys.live with ⟨hholds, hhash⟩ | ⟨hlost, hhash⟩
  · rw [haddr] at hholds hhash
    obtain ⟨hholds', hmade⟩ := hturn.mp hholds
    rw [hhash, if_neg hdeploys.codeHash, hstored, List.getLast?_eq_getLast_of_ne_nil hwrites]
    simp [hholds', hmade]
  · rw [haddr] at hlost hhash
    rw [hhash, if_pos rfl]
    refine iff_of_false (by simp) ?_
    rintro ⟨hholds, hmade, -⟩
    exact hlost (hturn.mpr ⟨hholds, hmade⟩)

/-- **When the keeper is a faithful account store.** What `SetAccount` wrote is read back exactly if the address had
no account or an Ethereum account, or the code hash is empty. A contract that a run deployed and `Commit` wrote has
its code for every later `StateDB` exactly if its address had no account or an Ethereum account, the account of the
module did not get there first, and the last write of the commit under its code hash was that of its code: no
contract that was deleted after it took the code away. -/
theorem accountStore_faithful (env : Env) :
    (∀ a account st st', setAccount env a account st = .ok () st' →
      (st'.getAccount a = some account ↔ holdsCodeHash st a ∨ account.codeHash = emptyCodeHash)) ∧
    ∀ (txConfig : TxConfig) (ops : List Op) (st st' : Store) (s : StateDB Store),
      runOps (StateDB.new st (evmKeeper env) txConfig) ops = .ok s → s.commit st = .ok () st' →
      ∀ before a after o code, s.journal.sortedDirties = before ++ a :: after → s.stateObjects.get a = some o →
        Deploys o code → ∀ txConfig' : TxConfig,
          (((StateDB.new st' (evmKeeper env) txConfig').getCode a).1 = some code ↔
            holdsCodeHash st a ∧ ¬ModuleMadeBefore env s st before a ∧
              (codeWrites s st o.account.codeHash s.journal.sortedDirties).getLast? = some (some code)) := by
  refine ⟨fun a account st st' h => getAccount_setAccount_iff env h, ?_⟩
  intro txConfig ops st st' s hrun hcommit before a after o code hdirties ho hdeploys txConfig'
  have hnew := wf_new st (evmKeeper env) txConfig
  exact committed_code_iff (runOps_store hnew hrun).1 (runOps_wf hnew hrun).ready.coherent hcommit hdirties ho
    hdeploys txConfig'

end committed

/-- A contract that is created next to one with the same code that is deleted: at a smaller address its code is lost,
at a greater one it is put back. -/
theorem accountStore_faithful_neighbours :
    letI := sampleKeccak
    let x : Address := .ofNat 20 1
    let y : Address := .ofNat 20 2
    let z : Address := .ofNat 20 3
    let st : Store :=
      { accounts := GoMap.empty.set y (.eth 1 (keccak256 [0])), balances := GoMap.empty, supply := 0,
        kv := GoMap.empty.set (codeKey (keccak256 [0])) [0], transient := ⟨0, 0, 0, 0⟩ }
    let new := StateDB.new st (evmKeeper sampleEnv) (.newEmpty (.zero 32))
    (∃ s st', runOps new [.setCode x (some [0]), .suicide y] = .ok s ∧ s.commit st = .ok () st' ∧
      ((StateDB.new st' (evmKeeper sampleEnv) (.newEmpty (.zero 32))).getCode x).1 ≠ some [0]) ∧
    ∃ s st', runOps new [.setCode z (some [0]), .suicide y] = .ok s ∧ s.commit st = .ok () st' ∧
      ((StateDB.new st' (evmKeeper sampleEnv) (.newEmpty (.zero 32))).getCode z).1 = some [0] := by
  let _ := sampleKeccak
  intro x y z st new
  have hfaithful := (accountStore_faithful sampleEnv).2 (.newEmpty (.zero 32))
  constructor
  · let s : StateDB Store := ((new.setCode x (some [0])).suicide y).2
    have hrun : runOps new [.setCode x (some [0]), .suicide y] = .ok s := rfl
    obtain ⟨⟨⟩, st', hcommit, -⟩ := exists_of_endsWith (by decide +kernel : endsWith (s.commit st) (fun _ _ => true) = true)
    refine ⟨s, st', hrun, hcommit, ?_⟩
    rw [ne_eq, hfaithful _ st st' s hrun hcommit [] x [y] _ [0] (by decide +kernel) rfl
      ⟨rfl, rfl, rfl, by decide, by decide +kernel⟩]
    rintro ⟨-, -, hlast⟩
    exact absurd hlast (by decide +kernel)
  · let s : StateDB Store := ((new.setCode z (some [0])).suicide y).2
    have hrun : runOps new [.setCode z (some [0]), .suicide y] = .ok s := rfl
    obtain ⟨⟨⟩, st', hcommit, -⟩ := exists_of_endsWith (by decide +kernel : endsWith (s.commit st) (fun _ _ => true) = true)
    refine ⟨s, st', hrun, hcommit, ?_⟩
    rw [hfaithful _ st st' s hrun hcommit [y] z [] _ [0] (by decide +kernel) rfl
      ⟨rfl, rfl, rfl, by decide, by decide +kernel⟩]
    exact ⟨Or.inl rfl, fun hmade => absurd hmade.1 (by decide), by decide +kernel⟩

/-- A contract created at the address of a vesting account: `SetAccount` returns, the code hash is
dropped, and a later `StateDB` finds no code. -/
theorem setAccount_drops_codeHash :
    letI := sampleKeccak
    let a : Address := .ofNat 20 1
    let account : Account := ⟨1, 10, keccak256 [0]⟩
    let st : Store :=
      { accounts := GoMap.empty.set a (.other 0 10), balances := GoMap.empty.set a 10,
        supply := 10, kv := GoMap.empty.set (codeKey (keccak256 [0])) [0], transient := ⟨0, 0, 0, 0⟩ }
    ∃ st', setAccount sampleEnv a account st = .ok () st' ∧
      st'.getAccount a = some { account with codeHash := emptyCodeHash } ∧
      st'.getAccount a ≠ some account ∧
      ((StateDB.new st' (evmKeeper sampleEnv) (.newEmpty (.zero 32))).getCode a).1 = none := by
  let _ := sampleKeccak
  intro a account st
  exact ⟨_, rfl, by decide, by decide, by decide⟩

end Smartdoge.Evm
