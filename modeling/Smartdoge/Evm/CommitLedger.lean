import Smartdoge.Evm.Keeper
import Smartdoge.Statedb.Balances

/-!
# Commit and the coin ledger

`StateDB.Commit` over the keeper of the EVM module settles each dirty account by minting or burning
the difference through the module account. `commit_settledAt` is one account, `commitAll_settled`
the loop over the dirty addresses.

* **`commit_conserves`**: after a commit that returned, the bank has the balance of the working
  state for every dirty account, nothing for a deleted one, and what it had before for every other
  address, the module account included; the supply moved by the sum of the differences. Over a run
  with paired credits and debits it did not move, provided the bank held nothing for a dirty
  address without account: the working state does not see such coins, and the commit burns them
  (`commit_burns_unowned_coins`).
-/

set_option linter.unusedSectionVars false

namespace Smartdoge.Evm

open Smartdoge.Lib
open Smartdoge.Lib.UndoLog
open Smartdoge.Lib.Writes
open Smartdoge.Statedb

section ledger

variable [Keccak] (env : Env)

/-! ## One account -/

/-- Committing a code moves no coins. -/
theorem commitCode_sameLedger (o : StateObject) (st : Store) :
    Store.SameLedger st (o.commitCode (evmKeeper env) st) := by
  unfold StateObject.commitCode
  cases o.code with
  | none => exact ⟨rfl, rfl, rfl, rfl, rfl⟩
  | some code =>
      simp only
      split_ifs
      · exact Store.setCode_sameLedger st _ code
      · exact ⟨rfl, rfl, rfl, rfl, rfl⟩

/-- Committing slots moves no coins. -/
theorem commitStorage_sameLedger (o : StateObject) (st : Store) :
    Store.SameLedger st (o.commitStorage (evmKeeper env) st) := by
  unfold StateObject.commitStorage
  generalize o.dirtyStorage.sortedKeys = keys
  induction keys generalizing st with
  | nil => exact ⟨rfl, rfl, rfl, rfl, rfl⟩
  | cons key keys ih =>
      refine Store.SameLedger.trans ?_ (ih _)
      unfold StateObject.commitSlot
      simp only
      split_ifs
      · exact ⟨rfl, rfl, rfl, rfl, rfl⟩
      · exact Store.setState_sameLedger st _ key _

/-- The ledger changed at one address only, the supply with it, and no other account went away or
was made, but perhaps the account of the module. -/
structure SettledAt (a : Address) (st st' : Store) : Prop where
  others : ∀ b, b ≠ a → st'.balance b = st.balance b
  supply : (st'.supply : ℤ) = st.supply + (st'.balance a - st.balance a)
  kept : ∀ b, b ≠ a → (st.accounts.get b).isSome → (st'.accounts.get b).isSome
  made : ∀ b, b ≠ a → b ≠ env.moduleAddress .evm → st'.accounts.get b = st.accounts.get b

/-- A mint or burn for one address, with writes to the byte store and to the account there. -/
theorem settledAt_of_moves {a : Address} {amount : ℤ} {st st₁ st₂ st' : Store}
    (hmoves : Moves [env.moduleAddress .evm, a] (amountAt a amount) amount st₁ st₂)
    (haccounts : ∀ b, b ≠ a → st₁.accounts.get b = st.accounts.get b)
    (haccounts' : ∀ b, b ≠ a → st'.accounts.get b = st₂.accounts.get b)
    (hbefore : ∀ b, st₁.balance b = st.balance b) (hsupply : st₁.supply = st.supply)
    (hafter : ∀ b, st'.balance b = st₂.balance b) (hsupply' : st'.supply = st₂.supply) :
    SettledAt env a st st' ∧ (st'.balance a : ℤ) = st.balance a + amount := by
  have hself : (st'.balance a : ℤ) = st.balance a + amount := by
    rw [hafter, hmoves.balance, amountAt_self, hbefore]
  refine ⟨⟨?_, ?_, ?_, ?_⟩, hself⟩
  · intro b hb
    have hmove := hmoves.balance b
    rw [amountAt_of_ne hb, hbefore] at hmove
    rw [hafter]
    omega
  · rw [hself, hsupply', hmoves.supply, hsupply]
    omega
  · intro b hb hsome
    obtain ⟨acct, hacct⟩ := Option.isSome_iff_exists.mp hsome
    rw [haccounts' b hb, hmoves.kept b acct (by rw [haccounts b hb]; exact hacct)]
    rfl
  · intro b hb hbm
    rw [haccounts' b hb, hmoves.made b (by simp [hb, hbm]), haccounts b hb]

/-- The balance the bank ends up with for a committed object. -/
structure SettledBalance (a : Address) (o : StateObject) (st st' : Store) : Prop where
  live : o.suicided = false → (st'.balance a : ℤ) = o.account.balance
  deleted : o.suicided = true → (st.accounts.get a).isSome → st'.balance a = 0
  missing : o.suicided = true → st.accounts.get a = none → st'.balance a = st.balance a

/-- **One iteration of the commit loop**, on the ledger. -/
theorem commit_settledAt {o : StateObject} {st st' : Store}
    (h : o.commit (evmKeeper env) st = .ok () st') :
    SettledAt env o.address st st' ∧ SettledBalance o.address o st st' := by
  rw [StateObject.commit_ok] at h
  split_ifs at h with hsu
  · rcases deleteAccount_ok env h with ⟨hnone, rfl⟩ | ⟨sequence, codeHash, st₁, hacct, hmoves, rfl⟩
    · refine ⟨⟨fun _ _ => rfl, by omega, fun _ _ hb => hb, fun _ _ _ => rfl⟩, ?_, ?_, ?_⟩
      · simp [hsu]
      · simp [hnone]
      · simp
    · have hledger := (removeCode_sameLedger st₁ codeHash).trans
        (clearStorage_sameLedger (removeCode codeHash st₁) o.address)
      have haccounts : ∀ b, b ≠ o.address →
          (removeAccount o.address (clearStorage o.address (removeCode codeHash st₁))).accounts.get b =
            st₁.accounts.get b := by
        intro b hb
        rw [← hledger.accounts]
        exact GoMap.get_delete_of_ne _ hb
      obtain ⟨hsettled, hself⟩ := settledAt_of_moves env hmoves (fun _ _ => rfl) haccounts
        (fun _ => rfl) rfl hledger.balance hledger.supply
      refine ⟨hsettled, ?_, ?_, ?_⟩
      · simp [hsu]
      · intro _ _
        omega
      · simp [hacct]
  · obtain ⟨st₁, hset, rfl⟩ := h
    obtain ⟨acct, -, hmoves⟩ := setAccount_ok env hset
    have hcode := commitCode_sameLedger env o st
    have hstorage := commitStorage_sameLedger env o st₁
    have haccounts : ∀ b, b ≠ o.address →
        ((o.commitCode (evmKeeper env) st).setAuth o.address acct).accounts.get b =
          st.accounts.get b := by
      intro b hb
      rw [← hcode.accounts]
      exact GoMap.get_set_of_ne _ hb _
    obtain ⟨hsettled, hself⟩ := settledAt_of_moves env hmoves haccounts
      (fun b _ => congrArg (GoMap.get · b) hstorage.accounts) hcode.balance hcode.supply
      hstorage.balance hstorage.supply
    rw [hcode.balance] at hself
    refine ⟨hsettled, ?_, ?_, ?_⟩
    · intro _
      omega
    · simp [hsu]
    · simp [hsu]

/-! ## The loop -/

/-- **The commit loop** settles every address it visits and no other, and the supply moves by the sum
of what it did. -/
theorem commitAll_settled {s : StateDB Store} (hk : s.keeper = evmKeeper env) (hco : s.Coherent)
    {addrs : List Address} (hnodup : addrs.Nodup) {st st' : Store}
    (hrun : s.commitAll addrs st = .ok () st') :
    (∀ a ∈ addrs, ∃ o, s.stateObjects.get a = some o ∧
      (o.suicided = false → (st'.balance a : ℤ) = o.account.balance) ∧
      (o.suicided = true → (st.accounts.get a).isSome → st'.balance a = 0) ∧
      (o.suicided = true → st.accounts.get a = none → a ≠ env.moduleAddress .evm →
        st'.balance a = st.balance a)) ∧
    (∀ a, a ∉ addrs → st'.balance a = st.balance a) ∧
    (st'.supply : ℤ) = st.supply + (addrs.map fun a => (st'.balance a : ℤ) - st.balance a).sum := by
  induction addrs generalizing st with
  | nil =>
      obtain rfl := forM_nil_ok.mp hrun
      exact ⟨by simp, fun _ _ => rfl, by simp⟩
  | cons a addrs ih =>
      obtain ⟨ha, hnodup'⟩ := List.nodup_cons.mp hnodup
      obtain ⟨o, st₁, ho, hcommit, hrest⟩ := StateDB.commitAll_cons_ok.mp hrun
      rw [hk] at hcommit
      obtain ⟨hat, hbal⟩ := commit_settledAt env hcommit
      rw [(hco a o ho).address] at hat hbal
      obtain ⟨hall, hother, hsupply⟩ := ih hnodup' hrest
      have hne : ∀ b ∈ addrs, b ≠ a := by
        rintro b hb rfl
        exact ha hb
      have hself : st'.balance a = st₁.balance a := hother a ha
      refine ⟨?_, ?_, ?_⟩
      · intro b hb
        rcases List.mem_cons.mp hb with rfl | hb
        · refine ⟨o, ho, ?_, ?_, ?_⟩
          · rw [hself]
            exact hbal.live
          · rw [hself]
            exact hbal.deleted
          · intro hsu hnone _
            rw [hself]
            exact hbal.missing hsu hnone
        · obtain ⟨o', ho', hlive, hdeleted, hmissing⟩ := hall b hb
          refine ⟨o', ho', hlive, ?_, ?_⟩
          · intro hsu hsome
            exact hdeleted hsu (hat.kept b (hne b hb) hsome)
          · intro hsu hnone hbm
            rw [hmissing hsu (by rw [hat.made b (hne b hb) hbm]; exact hnone) hbm]
            exact hat.others b (hne b hb)
      · intro b hb
        obtain ⟨hba, hb'⟩ := not_or.mp (fun h => hb (List.mem_cons.mpr h))
        rw [hother b hb', hat.others b hba]
      · have hsum : (addrs.map fun b => (st'.balance b : ℤ) - st₁.balance b) =
            addrs.map fun b => (st'.balance b : ℤ) - st.balance b := by
          refine List.map_congr_left ?_
          intro b hb
          rw [hat.others b (hne b hb)]
        rw [hsum] at hsupply
        rw [List.map_cons, List.sum_cons, hsupply, hat.supply, hself]
        omega

/-! ## The whole ledger -/

/-- The ledger after a commit. -/
structure Settlement (s : StateDB Store) (st st' : Store) : Prop where
  live : ∀ a ∈ s.journal.sortedDirties, (s.hasSuicided a).1 = false →
    (st'.balance a : ℤ) = (s.getBalance a).1
  deleted : ∀ a, (s.hasSuicided a).1 = true → (st.accounts.get a).isSome → st'.balance a = 0
  missing : ∀ a, (s.hasSuicided a).1 = true → st.accounts.get a = none →
    a ≠ env.moduleAddress .evm → st'.balance a = st.balance a
  /-- This covers the account of the module. -/
  others : ∀ a, a ∉ s.journal.sortedDirties → st'.balance a = st.balance a
  supply : (st'.supply : ℤ) - st.supply =
    (s.journal.sortedDirties.map fun a => (st'.balance a : ℤ) - st.balance a).sum

/-- **A commit settles the balances**, each object at its address. -/
theorem commit_settlement {s : StateDB Store} (h : Wf s) (hk : s.keeper = evmKeeper env)
    {st st' : Store} (hrun : s.commit st = .ok () st') : Settlement env s st st' := by
  have hco := h.ready.coherent
  obtain ⟨hall, hother, hsupply⟩ :=
    commitAll_settled env hk hco (nodup_sortedDirties s.journal) hrun
  have hsuicided : ∀ a, (s.hasSuicided a).1 = true → a ∈ s.journal.sortedDirties := by
    intro a ha
    rw [StateDB.hasSuicided_fst hco] at ha
    cases hview : s.view.objects a with
    | none => simp [hview] at ha
    | some o =>
        rw [hview] at ha
        exact h.dirty_of_suicided hview ha
  have hflag : ∀ a o, s.stateObjects.get a = some o → (s.hasSuicided a).1 = o.suicided := by
    intro a o ho
    rw [StateDB.hasSuicided_fst hco, StateDB.view_objects_of_get ho]
    rfl
  refine ⟨?_, ?_, ?_, hother, by omega⟩
  · intro a ha hsu
    obtain ⟨o, ho, hlive, -, -⟩ := hall a ha
    rw [hflag a o ho] at hsu
    rw [hlive hsu, StateDB.getBalance_fst hco, StateDB.view_objects_of_get ho]
    rfl
  · intro a hsu hsome
    obtain ⟨o, ho, -, hdeleted, -⟩ := hall a (hsuicided a hsu)
    rw [hflag a o ho] at hsu
    exact hdeleted hsu hsome
  · intro a hsu hnone ham
    obtain ⟨o, ho, -, -, hmissing⟩ := hall a (hsuicided a hsu)
    rw [hflag a o ho] at hsu
    exact hmissing hsu hnone ham

/-- The heads a fresh working state sees are those of the accounts. -/
theorem head_new (st : Store) (txConfig : TxConfig) (a : Address) :
    (StateDB.new st (evmKeeper env) txConfig).view.head a =
      (st.accounts.get a).map fun acct => ⟨acct.sequence, st.balance a, false⟩ := by
  rw [View.head, StateDB.view_objects_of_get_none (GoMap.get_empty _), baseView]
  show Option.map _ (Option.map _ (Option.map _ _)) = _
  rw [Option.map_map, Option.map_map]
  rfl

/-- The balance a fresh working state sees is the bank's, where there is an account. -/
theorem initialView_balance {st : Store} {a : Address}
    (h : st.accounts.get a = none → st.balance a = 0) :
    (initialView (evmKeeper env) st).balance a = st.balance a := by
  show ((baseView (evmKeeper env) st a).map _).getD 0 = (st.balance a : ℤ)
  rw [baseView, Option.map_map]
  show Option.getD (Option.map _ (Option.map _ (st.accounts.get a))) 0 = (st.balance a : ℤ)
  cases hacct : st.accounts.get a with
  | none => rw [h hacct]; rfl
  | some acct => rfl

/-- A run with paired credits and debits leaves the supply alone, if the bank holds nothing for the
dirty addresses without account. -/
theorem commit_supply {s : StateDB Store} (h : Wf s) (hk : s.keeper = evmKeeper env) {st st' : Store}
    (hctx : s.ctx = st) (hrun : s.commit st = .ok () st')
    (hlevel : Level (initialView (evmKeeper env) st).total s.view)
    (howned : ∀ a ∈ s.journal.sortedDirties, st.accounts.get a = none → st.balance a = 0) :
    st'.supply = st.supply := by
  have hco := h.ready.coherent
  have hsettled := commit_settlement env h hk hrun
  let moved : Address → ℤ := fun a => s.view.balance a - (initialView (evmKeeper env) st).balance a
  -- What the commit does at a dirty address is what the run did to the view.
  have hdirty : ∀ a ∈ s.journal.sortedDirties, (st'.balance a : ℤ) - st.balance a = moved a := by
    intro a ha
    have hsu : (s.hasSuicided a).1 = false := by
      rw [StateDB.hasSuicided_fst hco]
      cases hview : s.view.objects a with
      | none => rfl
      | some o => exact hlevel.noSuicide a o hview
    rw [hsettled.live a ha hsu, StateDB.getBalance_fst hco]
    show s.view.balance a - (st.balance a : ℤ) = moved a
    rw [← initialView_balance env (howned a ha)]
  -- A clean address has not moved.
  have hclean : ∀ a, a ∉ s.journal.sortedDirties → moved a = 0 := by
    intro a ha
    show s.view.balance a - (initialView (evmKeeper env) st).balance a = 0
    rw [h.balance_of_not_dirty ha, hk, hctx]
    show _ - ((baseView (evmKeeper env) st a).map _).getD 0 = 0
    rw [baseView, Option.map_map, sub_eq_zero]
    rfl
  have hsum : (s.journal.sortedDirties.map fun a => (st'.balance a : ℤ) - st.balance a).sum = 0 := by
    calc (s.journal.sortedDirties.map fun a => (st'.balance a : ℤ) - st.balance a).sum
        = (s.journal.sortedDirties.map moved).sum := by
          rw [List.map_congr_left hdirty]
      _ = ∑ a ∈ s.journal.sortedDirties.toFinset, moved a :=
          (List.sum_toFinset moved (nodup_sortedDirties s.journal)).symm
      _ = ∑ a ∈ allAddresses, moved a := by
          refine Finset.sum_subset (fun a _ => mem_allAddresses a) ?_
          intro a _ ha
          exact hclean a fun hmem => ha (List.mem_toFinset.mpr hmem)
      _ = s.view.total - (initialView (evmKeeper env) st).total :=
          Finset.sum_sub_distrib (fun a => s.view.balance a) _
      _ = 0 := by
          rw [hlevel.total, sub_self]
  have hsupply := hsettled.supply
  rw [hsum] at hsupply
  omega

/-- **Commit conserves the ledger.** For every run and every commit of it that returned: each dirty
account that was not suicided has its balance of the working state, a suicided account has none, no
other balance changed, and the supply changed by the sum of the differences. For a run whose credits
and debits pair up, the supply is as before, unless the bank held coins for a dirty address without
account. -/
theorem commit_conserves (txConfig : TxConfig) {ops : List Op} {st st' : Store} {s : StateDB Store}
    (hrun : runOps (StateDB.new st (evmKeeper env) txConfig) ops = .ok s)
    (hcommit : s.commit st = .ok () st') :
    Settlement env s st st' ∧
    (paired 0 ops = true →
      (∀ a ∈ s.journal.sortedDirties, st.accounts.get a = none → st.balance a = 0) →
      st'.supply = st.supply) := by
  have hnew := wf_new st (evmKeeper env) txConfig
  have hwf := runOps_wf hnew hrun
  obtain ⟨hk, hctx, -⟩ := runOps_store hnew hrun
  refine ⟨commit_settlement env hwf hk hcommit, ?_⟩
  intro hpaired howned
  have hview : (StateDB.new st (evmKeeper env) txConfig).view = initialView (evmKeeper env) st := by
    obtain ⟨t, ht, hview⟩ := hnew.history
    obtain rfl := rollback_nil.mp ht
    exact hview
  refine commit_supply env hwf hk hctx hcommit ?_ howned
  refine runOps_level hnew hpaired ?_ ?_ hrun
  · rw [add_zero, hview]
    refine ⟨rfl, ?_⟩
    intro a o ho
    obtain ⟨account, -, rfl⟩ := Option.map_eq_some_iff.mp ho
    rfl
  · intro r hr
    simp [StateDB.new] at hr

end ledger

/-! ## Concrete runs -/

/-- A transfer between two accounts. -/
theorem commit_conserves_transfer :
    letI := sampleKeccak
    let a : Address := .ofNat 20 1
    let b : Address := .ofNat 20 2
    let st : Store :=
      { accounts := (GoMap.empty.set a (.eth 0 emptyCodeHash)).set b (.eth 0 emptyCodeHash),
        balances := (GoMap.empty.set a 5).set b 7, supply := 12, kv := GoMap.empty,
        transient := ⟨0, 0, 0, 0⟩ }
    ∃ s st', runOps (StateDB.new st (evmKeeper sampleEnv) (.newEmpty (.zero 32)))
        [.subBalance a 3, .addBalance b 3] = .ok s ∧ s.commit st = .ok () st' ∧
      Settlement sampleEnv s st st' ∧ st'.supply = 12 ∧ st'.balance b = 10 := by
  let _ := sampleKeccak
  intro a b st
  let s : StateDB Store :=
    ((StateDB.new st (evmKeeper sampleEnv) (.newEmpty (.zero 32))).subBalance a 3).addBalance b 3
  have hrun : runOps (StateDB.new st (evmKeeper sampleEnv) (.newEmpty (.zero 32)))
    [.subBalance a 3, .addBalance b 3] = .ok s := rfl
  have hdirties : s.journal.sortedDirties = [a, b] := by decide +kernel
  obtain ⟨⟨⟩, st', hcommit, hb⟩ := exists_of_endsWith
    (by decide +kernel : endsWith (s.commit st) (fun _ st' => decide (st'.balance b = 10)) = true)
  obtain ⟨hsettled, hsupply⟩ := commit_conserves sampleEnv (.newEmpty (.zero 32)) hrun hcommit
  refine ⟨s, st', hrun, hcommit, hsettled, hsupply rfl ?_, of_decide_eq_true hb⟩
  rw [hdirties]
  decide

/-- A transfer to an address for which the bank holds coins without an account: the working state
starts from a balance of zero, and the commit burns what the bank held. -/
theorem commit_burns_unowned_coins :
    letI := sampleKeccak
    let a : Address := .ofNat 20 1
    let b : Address := .ofNat 20 2
    let st : Store :=
      { accounts := GoMap.empty.set a (.eth 0 emptyCodeHash),
        balances := (GoMap.empty.set a 5).set b 7, supply := 12, kv := GoMap.empty,
        transient := ⟨0, 0, 0, 0⟩ }
    ∃ s st', runOps (StateDB.new st (evmKeeper sampleEnv) (.newEmpty (.zero 32)))
        [.subBalance a 3, .addBalance b 3] = .ok s ∧ s.commit st = .ok () st' ∧
      paired 0 [.subBalance a 3, .addBalance b 3] = true ∧ st.supply = 12 ∧ st'.supply = 5 := by
  let _ := sampleKeccak
  intro a b st
  let s : StateDB Store :=
    ((StateDB.new st (evmKeeper sampleEnv) (.newEmpty (.zero 32))).subBalance a 3).addBalance b 3
  obtain ⟨⟨⟩, st', hcommit, hsupply⟩ := exists_of_endsWith
    (by decide +kernel : endsWith (s.commit st) (fun _ st' => decide (st'.supply = 5)) = true)
  exact ⟨s, st', rfl, hcommit, rfl, rfl, of_decide_eq_true hsupply⟩

end Smartdoge.Evm
