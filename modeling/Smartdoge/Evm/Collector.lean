import Smartdoge.Evm.CommitLedger
import Smartdoge.Evm.StateTransition

/-!
# The fee collector

The account that fees are paid into and refunds are paid from. It is a blocked address: a commit that
would credit it fails. So an execution that does not debit it leaves its balance alone, and between
the ante handler and the last message its balance moves by refunds only.

* **`commit_collector`**: a commit of a run that did not debit the fee collector.
* **`App.process_collector`**: a message with its hooks, for a virtual machine and hooks that spare the
  fee collector (`App.SparesCollector`).
-/

set_option linter.unusedSectionVars false

namespace Smartdoge.Evm

open Smartdoge.Lib
open Smartdoge.Lib.Writes
open Smartdoge.Statedb

/-- The address of the fee collector. -/
abbrev Env.collector (env : Env) : Address := env.moduleAddress .feeCollector

/-- The balance of the fee collector moves by `amount`; its account is kept, and is still a module
account if it was one. -/
structure Collects (env : Env) (amount : ℤ) (st st' : Store) : Prop where
  balance : (st'.balance env.collector : ℤ) = st.balance env.collector + amount
  kept : (st.accounts.get env.collector).isSome → (st'.accounts.get env.collector).isSome
  isModule : st.IsModule env.collector → st'.IsModule env.collector

namespace Collects

variable {env : Env} {amount amount' : ℤ} {st st₁ st' : Store}

/-- The balance of the fee collector moves, and no account changes. -/
theorem of_accounts (haccounts : st'.accounts = st.accounts)
    (hbalance : (st'.balance env.collector : ℤ) = st.balance env.collector + amount) :
    Collects env amount st st' := by
  refine ⟨hbalance, ?_, ?_⟩
  · rw [haccounts]
    exact id
  · unfold Store.IsModule
    rw [haccounts]
    exact id

/-- Doing nothing collects nothing. -/
theorem refl (st : Store) : Collects env 0 st st := of_accounts rfl (add_zero _).symm

/-- One effect after the other: the amounts add up. -/
theorem trans (h : Collects env amount st st₁) (h' : Collects env amount' st₁ st') :
    Collects env (amount + amount') st st' where
  balance := by rw [h'.balance, h.balance, add_assoc]
  kept := fun hacct => h'.kept (h.kept hacct)
  isModule := fun hacct => h'.isModule (h.isModule hacct)

/-- Writes to the transient store collect nothing. -/
theorem of_samePersistent [Keccak] (h : SamePersistent st st') : Collects env 0 st st' :=
  of_accounts h.accounts (by rw [h.balance, add_zero])

/-- What moves at the fee collector is collected. -/
theorem of_moves [Keccak] {new : List Address} {delta : Address → ℤ} {minted : ℤ}
    (h : Moves new delta minted st st') : Collects env (delta env.collector) st st' where
  balance := h.balance env.collector
  kept := by
    intro hsome
    obtain ⟨acct, hacct⟩ := Option.isSome_iff_exists.mp hsome
    rw [h.kept _ acct hacct]
    rfl
  isModule := h.isModule

end Collects

section collector

variable [Keccak] (env : Env)

/-- The fee collector is not the account of the EVM module. -/
theorem Env.collector_ne_evm : env.collector ≠ env.moduleAddress .evm := by
  intro h
  exact absurd (env.moduleAddress_injective h) (by simp)

/-! ## Commit -/

/-- Updating a module account leaves a module account. -/
theorem update_isModule {st : Store} {a : Address} (h : st.IsModule a) {nonce : UInt64} {codeHash : Hash}
    {acct : AuthAccount}
    (hupdate : ((st.accounts.get a).getD newAccount).update env nonce codeHash = .ok acct) :
    ∃ sequence, acct = .module sequence := by
  obtain ⟨sequence, hacct⟩ := h
  rw [hacct] at hupdate
  simp only [Option.getD_some, AuthAccount.update] at hupdate
  split_ifs at hupdate
  exact ⟨nonce, (Except.ok.inj hupdate).symm⟩

/-- One iteration of the commit loop. -/
theorem commit_collector_step {o : StateObject} {st st' : Store}
    (hlive : o.address = env.collector → o.suicided = false)
    (h : o.commit (evmKeeper env) st = .ok () st') :
    st'.balance env.collector ≤ st.balance env.collector ∧
      ((st.accounts.get env.collector).isSome → (st'.accounts.get env.collector).isSome) ∧
      (st.IsModule env.collector → st'.IsModule env.collector) := by
  by_cases haddr : o.address = env.collector
  · obtain ⟨-, hbalance⟩ := commit_settledAt env h
    simp only [StateObject.commit_ok, hlive haddr, Bool.false_eq_true, if_false] at h
    obtain ⟨st₁, hset, rfl⟩ := h
    have hcode := commitCode_sameLedger env o st
    have hstorage := commitStorage_sameLedger env o st₁
    have hblocked := setAccount_blocked env (by rw [haddr]; exact env.blocked_feeCollector) hset
    obtain ⟨acct, hupdate, hmoves⟩ := setAccount_ok env hset
    have hacct : (o.commitStorage (evmKeeper env) st₁).accounts.get env.collector = some acct := by
      rw [hstorage.accounts]
      refine hmoves.kept _ acct ?_
      rw [haddr]
      exact GoMap.get_set_self _ _ _
    refine ⟨?_, fun _ => by rw [hacct]; rfl, ?_⟩
    · have hafter := hbalance.live (hlive haddr)
      rw [haddr] at hafter hblocked
      rw [hcode.balance] at hblocked
      omega
    · intro hmodule
      rw [hcode.accounts, haddr] at hupdate
      obtain ⟨sequence, rfl⟩ := update_isModule env hmodule hupdate
      exact ⟨sequence, hacct⟩
  · obtain ⟨hat, -⟩ := commit_settledAt env h
    have hsame := hat.made env.collector (Ne.symm haddr) env.collector_ne_evm
    refine ⟨(hat.others env.collector (Ne.symm haddr)).le, ?_, ?_⟩
    · rw [hsame]
      exact id
    · unfold Store.IsModule
      rw [hsame]
      exact id

/-- The commit loop. -/
theorem commitAll_collector {s : StateDB Store} (hk : s.keeper = evmKeeper env) (hco : s.Coherent)
    (hlive : ∀ o, s.stateObjects.get env.collector = some o → o.suicided = false)
    {addrs : List Address} {st st' : Store} (hrun : s.commitAll addrs st = .ok () st') :
    st'.balance env.collector ≤ st.balance env.collector ∧
      ((st.accounts.get env.collector).isSome → (st'.accounts.get env.collector).isSome) ∧
      (st.IsModule env.collector → st'.IsModule env.collector) := by
  induction addrs generalizing st with
  | nil =>
      obtain rfl := forM_nil_ok.mp hrun
      exact ⟨le_refl _, id, id⟩
  | cons a addrs ih =>
      obtain ⟨o, st₁, ho, hcommit, hrest⟩ := StateDB.commitAll_cons_ok.mp hrun
      rw [hk] at hcommit
      have haddr := (hco a o ho).address
      obtain ⟨hle, hkept, hmodule⟩ := commit_collector_step env
        (fun h => hlive o (by rw [← h, haddr]; exact ho)) hcommit
      obtain ⟨hle', hkept', hmodule'⟩ := ih hrest
      exact ⟨hle'.trans hle, fun h => hkept' (hkept h), fun h => hmodule' (hmodule h)⟩

/-- **A commit leaves the fee collector alone**, if the working state holds at least what the bank
does. -/
theorem commit_collector {s : StateDB Store} (hwf : Wf s) (hk : s.keeper = evmKeeper env)
    {st st' : Store} (hhead : AtLeast env.collector (st.balance env.collector) s.view.head)
    (hrun : s.commit st = .ok () st') : Collects env 0 st st' := by
  have hco := hwf.ready.coherent
  have hlive : ∀ o, s.stateObjects.get env.collector = some o → o.suicided = false := by
    intro o ho
    have := hhead.live
    rwa [StateDB.head_of_get ho] at this
  obtain ⟨hle, hkept, hmodule⟩ := commitAll_collector env hk hco hlive hrun
  refine ⟨?_, hkept, hmodule⟩
  have hsettled := commit_settlement env hwf hk hrun
  by_cases hdirty : env.collector ∈ s.journal.sortedDirties
  · have hsu : (s.hasSuicided env.collector).1 = false := by
      rw [StateDB.hasSuicided_fst hco]
      cases hview : s.view.objects env.collector with
      | none => rfl
      | some o =>
          have := hhead.live
          rwa [View.head, hview] at this
    have hbalance : (s.getBalance env.collector).1 = s.view.balance env.collector :=
      StateDB.getBalance_fst hco _
    have hafter := hsettled.live env.collector hdirty hsu
    have hge := hhead.balance
    rw [← View.balance_eq_head, ← hbalance] at hge
    omega
  · rw [hsettled.others env.collector hdirty, add_zero]

/-! ## Executions -/

variable {env} {app : App} {ctx : Context}

/-- What is assumed of code outside this repository: nobody can sign for the fee collector, the
virtual machine takes no coins from it and does not delete it, and the hooks leave it alone. -/
structure App.SparesCollector (app : App) (ctx : Context) : Prop where
  sender : ∀ tx, app.geth.sender ctx tx ≠ some app.env.collector
  create : ∀ msg gas s, msg.sender ≠ app.env.collector →
    ∀ op ∈ (app.geth.create ctx msg gas s).ops, op.debits app.env.collector = false
  call : ∀ msg gas s, msg.sender ≠ app.env.collector →
    ∀ op ∈ (app.geth.call ctx msg gas s).ops, op.debits app.env.collector = false
  hooks : ∀ hooks, app.hooks = some hooks → ∀ msg st receipt st' receipt',
    multiPostTxProcessing hooks msg (st, receipt) = .ok () (st', receipt') → Collects app.env 0 st st'

/-- The bank holds coins for the fee collector only if it has its account. -/
def Store.CollectorOwned (st : Store) (env : Env) : Prop :=
  st.accounts.get env.collector = none → st.balance env.collector = 0

/-- A fee collector that pays out keeps its account. -/
theorem Collects.owned {amount : ℤ} {st st' : Store} (h : Collects env amount st st')
    (hamount : amount ≤ 0) (howned : st.CollectorOwned env) : st'.CollectorOwned env := by
  intro hnone
  have hbefore : st.accounts.get env.collector = none := by
    by_contra hsome
    have := h.kept (Option.isSome_iff_ne_none.mpr hsome)
    rw [hnone] at this
    exact absurd this (by simp)
  have hzero := howned hbefore
  have hbalance := h.balance
  omega

/-- A fresh working state holds for the fee collector what the bank does. -/
theorem atLeast_new {st : Store} (howned : st.CollectorOwned env) (txConfig : TxConfig) :
    AtLeast env.collector (st.balance env.collector)
      (StateDB.new st (evmKeeper env) txConfig).view.head := by
  refine ⟨?_, ?_⟩
  · rw [head_new]
    cases hacct : st.accounts.get env.collector with
    | none =>
        rw [howned hacct]
        exact le_refl 0
    | some acct => exact le_refl _
  · rw [head_new]
    cases st.accounts.get env.collector with
    | none => rfl
    | some acct => rfl

/-- An execution that spares the fee collector. -/
theorem App.execute_collector (hspares : app.SparesCollector ctx) {msg : Message}
    (hsender : msg.sender ≠ app.env.collector) {gas : UInt64} {txConfig : TxConfig} {st : Store}
    (howned : st.CollectorOwned app.env) {s : StateDB Store} {out : VmOutcome}
    (h : app.execute ctx msg gas txConfig st = .ok (s, out)) :
    Wf s ∧ s.keeper = evmKeeper app.env ∧
      AtLeast app.env.collector (st.balance app.env.collector) s.view.head := by
  obtain ⟨⟨s₀, hout⟩, ops, hrun, hops⟩ := App.execute_run h
  have hnew := wf_new st (evmKeeper app.env) txConfig
  have hvm : ∀ op ∈ out.ops, op.debits app.env.collector = false := by
    rcases hout with rfl | rfl
    · exact hspares.create msg gas s₀ hsender
    · exact hspares.call msg gas s₀ hsender
  have hdebits : ∀ op ∈ ops, op.debits app.env.collector = false := by
    intro op hop
    rcases hops op hop with hprep | hop | ⟨nonce, -, rfl⟩
    · exact Op.debits_of_quiet (app.prepareOps_quiet ctx hprep) _
    · exact hvm op hop
    · rfl
  exact ⟨runOps_wf hnew hrun, (runOps_store hnew hrun).1,
    runOps_atLeast hdebits hnew (atLeast_new howned txConfig) (RevisionsAt.new _ _ _) hrun⟩

/-- **A message and its hooks leave the fee collector alone.** -/
theorem App.process_collector (hspares : app.SparesCollector ctx) {tx : TxData} {msg : Message}
    (hsender : msg.sender ≠ app.env.collector) {cfg : EvmConfig} {txConfig : TxConfig}
    {st st' : Store} (howned : st.CollectorOwned app.env) {res : Response} {receipt : Receipt}
    (h : app.process ctx tx msg cfg txConfig st = .ok (res, receipt) st') :
    Collects app.env 0 st st' := by
  obtain ⟨res₀, tmp, happly, -, hend⟩ := App.process_ok h
  obtain ⟨gas, s, out, used, happlied⟩ := App.applyMessageWithConfig_ok happly
  obtain ⟨hwf, hk, hhead⟩ := App.execute_collector hspares hsender howned happlied.execute
  have hcommit := commit_collector app.env hwf hk hhead happlied.commit
  rcases hend with ⟨-, -, rfl⟩ | ⟨-, -, rfl⟩ | ⟨hooks, receipt₀, hhooks, -, -, hpost⟩
  · exact hcommit
  · exact Collects.refl st'
  · exact hcommit.trans (hspares.hooks hooks hhooks msg tmp receipt₀ st' receipt hpost)

end collector

end Smartdoge.Evm
