import Smartdoge.Evm.CommitLedger
import Smartdoge.Evm.Slots
import Smartdoge.Evm.StateTransition

/-!
# Failed transactions

A transaction that fails in the virtual machine or in a hook is charged for its gas and has no other
effect. There are three ways to fail. Without hooks, a failed message is committed all the same: the
virtual machine has reverted the `StateDB` to the snapshot it took on entry, so that nothing is dirty
but the sender of a creation, and the commit writes the sender back with another nonce
(`commit_onlyNonce`). With hooks, the cache context is dropped, after an error of the virtual machine
or of a hook.

* **`applyTransaction_failed`**: what is left is the gas refund, and the nonce of the sender where the
  transaction is a contract creation.
* `failed_creation_burns`: a creation by a sender without an account burns what the bank holds for the sender.
-/

set_option linter.unusedSectionVars false

namespace Smartdoge.Evm

open Smartdoge.Lib
open Smartdoge.Lib.Writes
open Smartdoge.Statedb
open Store (authCodeHash)

section failed

variable [Keccak]

/-- Balances moved by `delta`, the nonce of `caller` may have changed, and nothing else did. An empty
code and no code are the same. -/
structure NoTrace (caller : Option Address) (delta : Address → ℤ) (st st' : Store) : Prop where
  nonce : ∀ a, caller ≠ some a → st'.getNonce a = st.getNonce a
  balance : ∀ a, (st'.balance a : ℤ) = st.balance a + delta a
  supply : st'.supply = st.supply
  codeHash : ∀ a, st'.codeHash a = st.codeHash a
  code : ∀ h, (st'.getCode h).getD [] = (st.getCode h).getD []
  storage : ∀ a key, st'.getState a key = st.getState a key

namespace NoTrace

variable {caller : Option Address} {delta delta' : Address → ℤ} {st st₁ st' : Store}

/-- Doing nothing leaves no trace. -/
theorem refl (st : Store) : NoTrace caller 0 st st :=
  ⟨fun _ _ => rfl, by simp, rfl, fun _ => rfl, fun _ => rfl, fun _ _ => rfl⟩

/-- One effect after the other: the balances move by the sum. -/
theorem trans (h : NoTrace caller delta st st₁) (h' : NoTrace caller delta' st₁ st') :
    NoTrace caller (delta + delta') st st' where
  nonce := fun a ha => (h'.nonce a ha).trans (h.nonce a ha)
  balance := by
    intro a
    rw [h'.balance, h.balance, Pi.add_apply, add_assoc]
  supply := h'.supply.trans h.supply
  codeHash := fun a => (h'.codeHash a).trans (h.codeHash a)
  code := fun c => (h'.code c).trans (h.code c)
  storage := fun a key => (h'.storage a key).trans (h.storage a key)

/-- Writes to the transient store leave no trace. -/
theorem of_samePersistent (h : SamePersistent st st') : NoTrace caller 0 st st' where
  nonce := fun a _ => h.getNonce a
  balance := by
    intro a
    simp [h.balance]
  supply := h.supply
  codeHash := by
    intro a
    simp only [Store.codeHash, h.accounts]
  code := by
    intro c
    simp only [Store.getCode, h.kv]
  storage := by
    intro a key
    simp only [Store.getState, h.kv]

/-- Coins moved by the bank. An account the bank makes is as good as none. -/
theorem of_moves {new : List Address} (h : Moves new delta 0 st st') :
    NoTrace caller delta st st' := by
  refine ⟨fun a _ => h.getNonce a, h.balance, ?_, h.codeHash, ?_, ?_⟩
  · have hsupply := h.supply
    omega
  · intro c
    simp only [Store.getCode, h.kv]
  · intro a key
    simp only [Store.getState, h.kv]

end NoTrace

/-! ## Committing an account whose nonce changed -/

variable (env : Env)

/-- The account the keeper holds, an empty one if there is none. -/
def Store.accountOrEmpty (st : Store) (a : Address) : Account := (st.getAccount a).getD .newEmpty

/-- A fresh state reads the stored accounts. -/
theorem objectOrEmpty_new (st : Store) (txConfig : TxConfig) (a : Address) :
    (StateDB.new st (evmKeeper env) txConfig).objectOrEmpty a =
      (newObject a (st.accountOrEmpty a)).view (evmKeeper env) st := by
  have hview : (StateDB.new st (evmKeeper env) txConfig).view.objects a =
      (st.getAccount a).map fun account => (newObject a account).view (evmKeeper env) st :=
    StateDB.view_objects_of_get_none (GoMap.get_empty a)
  unfold StateDB.objectOrEmpty Store.accountOrEmpty
  rw [hview]
  cases st.getAccount a with
  | none => rfl
  | some account => rfl

/-- A fresh object reads the stored slots. -/
theorem newObject_storage (st : Store) (a : Address) (account : Account) (key : Hash) :
    ((newObject a account).view (evmKeeper env) st).storage key = st.getState a key := by
  show ((newObject a account).getState (evmKeeper env) st key).1 = _
  rw [StateObject.getState_fst]
  rfl

/-- Storage that is as the keeper has it is not written. -/
theorem commitStorage_of_same {a : Address} {o : StateObject} {st : Store}
    (hco : o.Coherent (evmKeeper env) st a)
    (hstorage : ∀ key, (o.view (evmKeeper env) st).storage key = st.getState a key) (c : Store) :
    o.commitStorage (evmKeeper env) c = c := by
  have hslot : ∀ key ∈ o.dirtyStorage.sortedKeys, ∀ c, o.commitSlot (evmKeeper env) c key = c := by
    intro key hkey c
    have hdirty : key ∈ o.dirtyStorage.keys := by
      rw [GoMap.mem_keys]
      exact (GoMap.mem_sortedKeys FixedBytes.le).mp hkey
    have horigin := hco.dirty key hdirty
    rw [GoMap.mem_keys] at hdirty horigin
    obtain ⟨value, hvalue⟩ := Option.isSome_iff_exists.mp hdirty
    obtain ⟨origin, hor⟩ := Option.isSome_iff_exists.mp horigin
    have hseen : value = st.getState a key := by
      have hview := hstorage key
      rw [show (o.view (evmKeeper env) st).storage key = (o.getState (evmKeeper env) st key).1 from
        rfl, StateObject.getState_fst, hvalue] at hview
      exact hview
    have hkept : origin = st.getState a key := hco.origin key origin hor
    unfold StateObject.commitSlot
    rw [hvalue, hor]
    exact if_pos (hseen.trans hkept.symm)
  unfold StateObject.commitStorage
  generalize o.dirtyStorage.sortedKeys = keys at hslot
  induction keys with
  | nil => rfl
  | cons key keys ih =>
      rw [List.foldl_cons, hslot key List.mem_cons_self c]
      exact ih fun key' h' => hslot key' (List.mem_cons_of_mem key h')

/-- Code that is as the keeper has it is at most written again. -/
theorem commitCode_of_same {o : StateObject} {st : Store}
    (hcode : (o.getCode (evmKeeper env) st).1 = codeView (evmKeeper env) st none o.account.codeHash)
    (h : Hash) :
    ((o.commitCode (evmKeeper env) st).getCode h).getD [] = (st.getCode h).getD [] := by
  unfold StateObject.commitCode
  cases ho : o.code with
  | none => rfl
  | some code =>
      simp only
      split_ifs
      · have hstored : st.getCode o.account.codeHash = some code := by
          rw [StateObject.getCode_fst, ho, codeView, codeView] at hcode
          split_ifs at hcode
          exact hcode.symm
        show ((st.setCode o.account.codeHash code).getCode h).getD [] = _
        rw [Store.getCode_setCode]
        by_cases hh : h = o.account.codeHash
        · subst hh
          rw [if_pos rfl, hstored]
          split_ifs with hnil
          · rw [hnil]
            rfl
          · rfl
        · rw [if_neg hh]
      · rfl

/-- Committing a code leaves the slots alone. -/
theorem commitCode_getState (o : StateObject) (st : Store) :
    (o.commitCode (evmKeeper env) st).getState = st.getState := by
  funext a key
  rw [Store.getState_eq_slot, Store.getState_eq_slot, commitCode_slot]

/-- Writing the code hash back that an account has. -/
theorem authCodeHash_update {acct acct' : AuthAccount} {nonce : UInt64}
    (h : acct.update env nonce (authCodeHash acct) = .ok acct') :
    authCodeHash acct' = authCodeHash acct := by
  cases acct with
  | eth sequence codeHash =>
      obtain rfl := Except.ok.inj h
      rfl
  | module sequence =>
      simp only [AuthAccount.update] at h
      split_ifs at h
      obtain rfl := Except.ok.inj h
      rfl
  | other sequence locked =>
      obtain rfl := Except.ok.inj h
      rfl

/-- **Committing an account of which only the nonce changed** changes only the nonce. -/
theorem commit_nonce {a : Address} {o : StateObject} {st st' : Store} {nonce : UInt64}
    (hco : o.Coherent (evmKeeper env) st a)
    (hview : o.view (evmKeeper env) st =
      ((newObject a (st.accountOrEmpty a)).view (evmKeeper env) st).setNonce nonce)
    (howned : st.accounts.get a = none → st.balance a = 0)
    (hcommit : o.commit (evmKeeper env) st = .ok () st') : NoTrace (some a) 0 st st' := by
  have haccount : o.account = { st.accountOrEmpty a with nonce := nonce } :=
    congrArg ObjectView.account hview
  have hsu : o.suicided = false := congrArg ObjectView.suicided hview
  have hcode : (o.getCode (evmKeeper env) st).1 =
      codeView (evmKeeper env) st none o.account.codeHash := by
    rw [haccount]
    refine (congrArg ObjectView.code hview).trans ?_
    exact StateObject.getCode_fst (newObject a (st.accountOrEmpty a))
  have hstorage : ∀ key, (o.view (evmKeeper env) st).storage key = st.getState a key := by
    intro key
    rw [hview]
    exact newObject_storage env st a _ key
  have hbalance : (st.accountOrEmpty a).balance = st.balance a := by
    unfold Store.accountOrEmpty Store.getAccount
    cases hacct : st.accounts.get a with
    | none =>
        rw [howned hacct]
        rfl
    | some acct => rfl
  have hhash : (st.accountOrEmpty a).codeHash =
      authCodeHash ((st.accounts.get a).getD newAccount) := by
    unfold Store.accountOrEmpty Store.getAccount
    cases st.accounts.get a with
    | none => rfl
    | some acct => rfl
  simp only [StateObject.commit_ok, hsu, Bool.false_eq_true, if_false] at hcommit
  obtain ⟨st₁, hset, rfl⟩ := hcommit
  rw [commitStorage_of_same env hco hstorage]
  rw [hco.address] at hset
  obtain ⟨acct, hupdate, hmoves⟩ := setAccount_ok env hset
  have hledger := commitCode_sameLedger env o st
  rw [hledger.accounts, haccount, hhash] at hupdate
  rw [haccount, hledger.balance, hbalance, sub_self, amountAt_zero] at hmoves
  -- The code, then the account without its balance, then the balance.
  have hset : NoTrace (some a) 0 st ((o.commitCode (evmKeeper env) st).setAuth a acct) := by
    refine ⟨?_, ?_, hledger.supply, ?_, commitCode_of_same env hcode, ?_⟩
    · intro b hb
      have hba : b ≠ a := fun h => hb (congrArg some h.symm)
      simp only [Store.getNonce, Store.setAuth, GoMap.get_set_of_ne _ hba, hledger.accounts]
    · intro b
      have := hledger.balance b
      simpa [Store.balance, Store.setAuth] using this
    · intro b
      by_cases hba : b = a
      · subst hba
        simp only [Store.codeHash, Store.setAuth, GoMap.get_set_self, Option.map_some,
          Option.getD_some, authCodeHash_update env hupdate]
        cases st.accounts.get b with
        | none => rfl
        | some acct => rfl
      · simp only [Store.codeHash, Store.setAuth, GoMap.get_set_of_ne _ hba, hledger.accounts]
    · intro b key
      show (o.commitCode (evmKeeper env) st).getState b key = _
      rw [commitCode_getState env]
  have := hset.trans (NoTrace.of_moves hmoves)
  rwa [add_zero] at this

/-- **Committing a run that changed at most the nonce of its caller.** -/
theorem commit_onlyNonce {caller : Option Address} {st st' : Store} {txConfig : TxConfig}
    {s : StateDB Store} (hwf : Wf s)
    (h : OnlyNonce caller (StateDB.new st (evmKeeper env) txConfig) s)
    (howned : ∀ a, caller = some a → st.accounts.get a = none → st.balance a = 0)
    (hcommit : s.commit st = .ok () st') : NoTrace caller 0 st st' := by
  have hcaller : ∀ a ∈ s.journal.sortedDirties, caller = some a := by
    intro a ha
    by_contra hne
    rw [mem_sortedDirties, h.dirties a hne] at ha
    simp [StateDB.new, Journal.new] at ha
  unfold StateDB.commit at hcommit
  have hnodup := nodup_sortedDirties s.journal
  cases hdirties : s.journal.sortedDirties with
  | nil =>
      rw [hdirties] at hcommit
      obtain rfl := forM_nil_ok.mp hcommit
      exact NoTrace.refl st
  | cons a rest =>
      rw [hdirties] at hcommit hnodup hcaller
      have ha := hcaller a List.mem_cons_self
      have hrest : rest = [] := by
        rw [List.eq_nil_iff_forall_not_mem]
        intro b hb
        have hba : a = b := Option.some.inj (ha.symm.trans (hcaller b (List.mem_cons_of_mem a hb)))
        rw [hba] at hnodup
        exact (List.nodup_cons.mp hnodup).1 hb
      rw [hrest] at hcommit
      obtain ⟨o, st₁, ho, hobject, hend⟩ := StateDB.commitAll_cons_ok.mp hcommit
      obtain rfl := forM_nil_ok.mp hend
      have hk : s.keeper = evmKeeper env := h.keeper
      have hctx : s.ctx = st := h.ctx
      have hco := hwf.ready.coherent a o ho
      have hseen := StateDB.view_objects_of_get ho
      rw [hk, hctx] at hco hseen
      rw [hk] at hobject
      have hview : ∃ nonce, o.view (evmKeeper env) st =
          ((newObject a (st.accountOrEmpty a)).view (evmKeeper env) st).setNonce nonce := by
        rw [← objectOrEmpty_new env st txConfig a]
        rcases h.nonce a ha with hsame | ⟨nonce, hnonce⟩
        · refine ⟨o.account.nonce, ?_⟩
          unfold StateDB.objectOrEmpty
          rw [← hsame, hseen]
          rfl
        · exact ⟨nonce, Option.some.inj (hseen.symm.trans hnonce)⟩
      obtain ⟨nonce, hview⟩ := hview
      rw [ha]
      exact commit_nonce env hco hview (howned a ha) hobject

/-! ## Transactions -/

variable {app : App} {ctx : Context}

/-- The virtual machine goes back to the snapshot it took on entry whenever it returns an error. A
creation increments the nonce of its caller before that snapshot. -/
structure App.RestoresOnError (app : App) (ctx : Context) : Prop where
  create : ∀ msg gas s, (app.geth.create ctx msg gas s).vmErr ≠ none →
    Restored (some msg.sender) s (app.geth.create ctx msg gas s).ops
  call : ∀ msg gas s, (app.geth.call ctx msg gas s).vmErr ≠ none →
    Restored none s (app.geth.call ctx msg gas s).ops

/-- The account a failed message may leave its nonce in. -/
def Message.creator (msg : Message) : Option Address :=
  if msg.toAddr = none then some msg.sender else none

/-- A failed execution, up to the commit. -/
theorem App.execute_failed (hevm : app.RestoresOnError ctx) {msg : Message} {gas : UInt64}
    {txConfig : TxConfig} {st : Store} {s : StateDB Store} {out : VmOutcome}
    (h : app.execute ctx msg gas txConfig st = .ok (s, out)) (herr : out.vmErr ≠ none) :
    Wf s ∧ OnlyNonce msg.creator (StateDB.new st (evmKeeper app.env) txConfig) s := by
  have hnew := wf_new st (evmKeeper app.env) txConfig
  cases hto : msg.toAddr with
  | some dst =>
      obtain ⟨s₀, hprepare, rfl, hrun⟩ := execute_call hto h
      have hwf₀ := runOps_wf hnew hprepare
      have hcreator : msg.creator = none := by simp [Message.creator, hto]
      rw [hcreator]
      refine ⟨runOps_wf hwf₀ hrun, ?_⟩
      exact (runOps_onlyNonce (fun _ hop => app.prepareOps_quiet ctx hop) hnew hprepare).trans
        (restored_onlyNonce (hevm.call msg gas s₀ herr) hwf₀ hrun)
  | none =>
      obtain ⟨s₀, s₁, hprepare, rfl, hrun, rfl⟩ := execute_create hto h
      have hwf₀ := runOps_wf hnew hprepare
      have hreset : Op.run s₀ (.setNonce msg.sender msg.nonce) =
        .ok (s₀.setNonce msg.sender msg.nonce) := rfl
      have hwf₁ := Op.wf hwf₀ hreset
      have hwf₂ := runOps_wf hwf₁ hrun
      have hnext : Op.run s₁ (.setNonce msg.sender (msg.nonce + 1)) =
        .ok (s₁.setNonce msg.sender (msg.nonce + 1)) := rfl
      have hcreator : msg.creator = some msg.sender := by simp [Message.creator, hto]
      rw [hcreator]
      refine ⟨Op.wf hwf₂ hnext, ?_⟩
      have hprep : OnlyNonce (some msg.sender) _ s₀ :=
        runOps_onlyNonce (fun _ hop => app.prepareOps_quiet ctx hop) hnew hprepare
      exact ((hprep.trans (StateDB.setNonce_onlyNonce hwf₀.ready _ _).1).trans
        (restored_onlyNonce (hevm.create msg gas _ herr) hwf₁ hrun)).trans
        (StateDB.setNonce_onlyNonce hwf₂.ready _ _).1

/-- A message that failed, committed without hooks. -/
theorem App.applyMessage_failed (hevm : app.RestoresOnError ctx) {msg : Message} {cfg : EvmConfig}
    {txConfig : TxConfig} {st st' : Store} {res : Response}
    (howned : ∀ a, msg.creator = some a → st.accounts.get a = none → st.balance a = 0)
    (h : app.applyMessageWithConfig ctx msg true cfg txConfig st = .ok res st')
    (hfailed : res.failed = true) : NoTrace msg.creator 0 st st' := by
  obtain ⟨gas, s, out, used, happlied⟩ := applyMessageWithConfig_ok h
  have herr : out.vmErr ≠ none := by
    intro hnone
    rw [Response.failed, happlied.vmError, hnone] at hfailed
    exact absurd hfailed (by simp)
  obtain ⟨hwf, honly⟩ := execute_failed hevm happlied.execute herr
  exact commit_onlyNonce app.env hwf honly howned happlied.commit

/-- **A failed transaction leaves no trace.** If the virtual machine restores its state whenever it
returns an error, then for every chain of hooks, whatever they write and whether they fail, a
transaction that ends with `Failed()` has changed nothing but the nonce of the sender, where it is a
contract creation, and has moved the gas refund from the fee collector to the sender.

The ante handler only lets senders with an account through. What is needed of that is that the bank
holds no coins for the sender of a creation without account. -/
theorem applyTransaction_failed (hevm : app.RestoresOnError ctx) {tx : TxData} {st st' : Store}
    {res : Response}
    (howned : ∀ a, app.geth.sender ctx tx = some a → tx.getTo = none →
      st.accounts.get a = none → st.balance a = 0)
    (h : app.applyTransaction ctx tx st = .ok res st') (hfailed : res.failed = true) :
    ∃ msg, ∃ refund : ℕ, app.asMessage ctx tx ctx.getBaseFee = some msg ∧
      (refund : ℤ) = (msg.gas - res.gasUsed).toNat * msg.gasPrice ∧
      NoTrace msg.creator (amountAt (app.env.moduleAddress .feeCollector) (-refund) +
        amountAt msg.sender refund) st st' := by
  obtain ⟨cfg, msg, receipt, st₁, st₂, -, hmsg, hprocess, hrefund, hsame⟩ :=
    App.applyTransaction_ok h
  obtain ⟨refund, hamount, hmoves⟩ := App.refundGas_ok hrefund
  refine ⟨msg, refund, hmsg, hamount, ?_⟩
  have hsender : ∀ a, msg.creator = some a → st.accounts.get a = none → st.balance a = 0 := by
    intro a ha
    obtain ⟨sender, hsender, rfl⟩ := Option.map_eq_some_iff.mp hmsg
    by_cases hto : tx.getTo = none
    · have hcreator : (tx.asMessage sender ctx.getBaseFee).creator = some sender := if_pos hto
      rw [← Option.some.inj (hcreator.symm.trans ha)]
      exact howned sender hsender hto
    · have hcreator : (tx.asMessage sender ctx.getBaseFee).creator = none := if_neg hto
      exact absurd (hcreator.symm.trans ha) (by simp)
  have hprocessed : NoTrace msg.creator 0 st st₁ := by
    obtain ⟨res₀, tmp, happly, -, hend⟩ := App.process_ok hprocess
    rcases hend with ⟨-, rfl, rfl⟩ | ⟨-, -, rfl⟩ | ⟨-, -, -, -, hok, -⟩
    · exact App.applyMessage_failed hevm hsender happly hfailed
    · exact NoTrace.refl st₁
    · rw [hok] at hfailed
      exact absurd hfailed (by simp)
  have hall := (hprocessed.trans (NoTrace.of_moves hmoves)).trans
    (NoTrace.of_samePersistent hsame.toSamePersistent)
  rw [zero_add, add_zero] at hall
  exact hall

end failed

/-! ## A concrete run -/

section sample

variable [Keccak]

/-- The state in which a creation by `sender` takes its snapshot. -/
def beforeCreate (c : Address) (msg : Message) (s : StateDB Store) : StateDB Store :=
  ((((s.getBalance msg.sender).2.getNonce msg.sender).2.setNonce msg.sender
    (msg.nonce + 1)).addAddressToAccessList c).getCodeHash c |>.2

/-- A creation of a contract at `c` whose constructor reverts when 40000 gas are left. -/
def revertingCreate (c : Address) (msg : Message) (_ : UInt64) (s : StateDB Store) : VmOutcome where
  ops := [.getBalance msg.sender, .getNonce msg.sender, .setNonce msg.sender (msg.nonce + 1),
    .addAddressToAccessList c, .getCodeHash c] ++ .snapshot ::
      ([.createAccount c, .setNonce c 1, .subBalance msg.sender msg.value, .addBalance c msg.value] ++
        [.revertToSnapshot (beforeCreate c msg s).snapshot.1])
  ret := []
  leftoverGas := 40000
  vmErr := some "execution reverted"

/-- The constructor goes back to the snapshot. -/
theorem revertingCreate_restored (c : Address) (msg : Message) (gas : UInt64) (s : StateDB Store) :
    Restored (some msg.sender) s (revertingCreate c msg gas s).ops := by
  have hpre : runOps s [.getBalance msg.sender, .getNonce msg.sender,
      .setNonce msg.sender (msg.nonce + 1), .addAddressToAccessList c, .getCodeHash c] =
    .ok (beforeCreate c msg s) := rfl
  refine Restored.reverted ?_ hpre
  simp [Op.isQuiet]

end sample

/-- A creation that is reverted: of its 100000 gas, 40000 are paid back. -/
theorem applyTransaction_failed_create :
    letI := sampleKeccak
    let a : Address := .ofNat 20 1
    let c : Address := .ofNat 20 2
    let collector := sampleEnv.moduleAddress .feeCollector
    let st : Store :=
      { accounts := (GoMap.empty.set a (.eth 4 emptyCodeHash)).set collector (.module 0),
        balances := (GoMap.empty.set a 50).set collector 1000000, supply := 1000050,
        kv := GoMap.empty, transient := ⟨0, 0, 0, 0⟩ }
    let app := sampleApp a (revertingCreate c) transferCall
    let tx : TxData := .legacy ⟨3, some 10, 100000, none, some 5, [], [], [], []⟩
    ∃ res st', app.applyTransaction sampleContext tx st = .ok res st' ∧ res.failed = true ∧
      NoTrace (some a) (amountAt collector (-400000) + amountAt a 400000) st st' := by
  let _ := sampleKeccak
  intro a c collector st app tx
  have hevm : app.RestoresOnError sampleContext :=
    ⟨fun msg gas s _ => revertingCreate_restored c msg gas s, fun _ _ _ h => absurd rfl h⟩
  have howned : ∀ b, app.geth.sender sampleContext tx = some b → tx.getTo = none →
      st.accounts.get b = none → st.balance b = 0 := by
    rintro b ⟨⟩ - hnone
    exact absurd hnone (by decide +kernel)
  obtain ⟨res, st', hrun, hres⟩ := exists_of_endsWith (by decide +kernel :
    endsWith (app.applyTransaction sampleContext tx st)
      (fun res _ => decide (res.failed = true ∧ res.gasUsed = 60000)) = true)
  obtain ⟨hfailed, hgas⟩ := of_decide_eq_true hres
  obtain ⟨msg, refund, hmsg, hrefund, htrace⟩ := applyTransaction_failed hevm howned hrun hfailed
  obtain rfl := Option.some.inj hmsg
  have hamount : (refund : ℤ) = 400000 := by
    rw [hrefund, hgas]
    decide +kernel
  rw [hamount] at htrace
  exact ⟨res, st', hrun, hfailed, htrace⟩

/-- The same creation by a sender without an account, for whom the bank holds 50 coins: the `StateDB` starts the
sender from nothing, and the commit burns the coins. -/
theorem failed_creation_burns :
    letI := sampleKeccak
    let a : Address := .ofNat 20 1
    let c : Address := .ofNat 20 2
    let collector := sampleEnv.moduleAddress .feeCollector
    let st : Store :=
      { accounts := GoMap.empty.set collector (.module 0),
        balances := (GoMap.empty.set a 50).set collector 1000000, supply := 1000050,
        kv := GoMap.empty, transient := ⟨0, 0, 0, 0⟩ }
    let app := sampleApp a (revertingCreate c) transferCall
    let tx : TxData := .legacy ⟨3, some 10, 100000, none, some 5, [], [], [], []⟩
    app.RestoresOnError sampleContext ∧
    ∃ res st', app.applyTransaction sampleContext tx st = .ok res st' ∧ res.failed = true ∧
      st.balance a = 50 ∧ st'.balance a = 400000 ∧ st'.balance collector = 600000 ∧ st'.supply + 50 = st.supply := by
  let _ := sampleKeccak
  intro a c collector st app tx
  refine ⟨⟨fun msg gas s _ => revertingCreate_restored c msg gas s, fun _ _ _ h => absurd rfl h⟩, ?_⟩
  obtain ⟨res, st', hrun, hres⟩ := exists_of_endsWith (by decide +kernel :
    endsWith (app.applyTransaction sampleContext tx st)
      (fun res st' => decide (res.failed = true ∧ st.balance a = 50 ∧ st'.balance a = 400000 ∧
        st'.balance collector = 600000 ∧ st'.supply + 50 = st.supply)) = true)
  exact ⟨res, st', hrun, of_decide_eq_true hres⟩

end Smartdoge.Evm
