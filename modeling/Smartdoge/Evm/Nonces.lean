import Smartdoge.Evm.CommitLedger
import Smartdoge.Evm.StateTransition

/-!
# Nonces of externally owned accounts

What a transaction does to the sequence of an account that has a key and no code. A call leaves it
alone. A creation does not: the state transition sets the nonce of the sender to that of the message,
runs the virtual machine, and sets it to the next one, whatever the sequence was before; if the message
is committed, this becomes the sequence. All of this is about accounts that exist.

* `commit_sequence_of_head`: a commit writes the nonces of the working state.
* **`App.applyTransaction_sequenceOf`**: the sequence after a transaction.
-/

set_option linter.unusedSectionVars false

namespace Smartdoge.Evm

open Smartdoge.Lib
open Smartdoge.Lib.Writes
open Smartdoge.Statedb

section nonces

variable [Keccak] (env : Env)

/-! ## Commit -/

/-- `SetSequence` and `SetCodeHash` together set the sequence. -/
theorem update_sequence {acct acct' : AuthAccount} {nonce : UInt64} {codeHash : Hash}
    (h : acct.update env nonce codeHash = .ok acct') : acct'.sequence = nonce := by
  cases acct with
  | eth sequence codeHash' =>
      obtain rfl := Except.ok.inj h
      rfl
  | module sequence =>
      simp only [AuthAccount.update] at h
      split_ifs at h
      obtain rfl := Except.ok.inj h
      rfl
  | other sequence locked =>
      obtain rfl := Except.ok.inj h
      rfl

/-- The sequence of an account, where there is one. -/
def Store.sequenceOf (st : Store) (a : Address) : Option UInt64 := (st.accounts.get a).map AuthAccount.sequence

/-- The nonce of an account that exists is its sequence. -/
theorem Store.getNonce_of_sequenceOf {st : Store} {a : Address} {n : UInt64} (h : st.sequenceOf a = some n) :
    st.getNonce a = n := by
  obtain ⟨acct, hacct, rfl⟩ := Option.map_eq_some_iff.mp h
  simp [Store.getNonce, hacct]

/-- The sequence that was just written. -/
theorem sequenceOf_setAuth_self (st : Store) (a : Address) (acct : AuthAccount) :
    (st.setAuth a acct).sequenceOf a = some acct.sequence := by
  simp [Store.sequenceOf, Store.setAuth]

/-- A write leaves the sequences of other accounts alone. -/
theorem sequenceOf_setAuth_of_ne (st : Store) {a b : Address} (hb : b ≠ a) (acct : AuthAccount) :
    (st.setAuth a acct).sequenceOf b = st.sequenceOf b := by
  simp [Store.sequenceOf, Store.setAuth, GoMap.get_set_of_ne _ hb]

/-- Stores with the same accounts have the same sequences. -/
theorem sequenceOf_congr {st st' : Store} (h : st'.accounts = st.accounts) (a : Address) :
    st'.sequenceOf a = st.sequenceOf a :=
  congrArg (fun accounts => (GoMap.get accounts a).map AuthAccount.sequence) h

/-- Moving coins keeps the accounts that exist. -/
theorem Moves.sequenceOf {new : List Address} {delta : Address → ℤ} {minted : ℤ} {st st' : Store}
    (h : Moves new delta minted st st') {a : Address} {n : UInt64} (hn : st.sequenceOf a = some n) :
    st'.sequenceOf a = some n := by
  obtain ⟨acct, hacct, rfl⟩ := Option.map_eq_some_iff.mp hn
  simp [Store.sequenceOf, h.kept a acct hacct]

/-- One iteration of the commit loop, on the sequences. -/
theorem commit_sequenceOf {o : StateObject} {st st' : Store}
    (h : o.commit (evmKeeper env) st = .ok () st') :
    (∀ b n, b ≠ o.address → st.sequenceOf b = some n → st'.sequenceOf b = some n) ∧
      (o.suicided = false → st'.sequenceOf o.address = some o.account.nonce) := by
  rw [StateObject.commit_ok] at h
  split_ifs at h with hsu
  · refine ⟨?_, fun hlive => absurd (hsu.symm.trans hlive) (by simp)⟩
    intro b n hb hn
    rcases deleteAccount_ok env h with ⟨-, rfl⟩ | ⟨sequence, codeHash, st₁, -, hmoves, rfl⟩
    · exact hn
    · have hledger := (removeCode_sameLedger st₁ codeHash).trans
        (clearStorage_sameLedger (removeCode codeHash st₁) o.address)
      have hremoved : ∀ st : Store, (removeAccount o.address st).sequenceOf b = st.sequenceOf b := by
        intro st
        simp [Store.sequenceOf, removeAccount, GoMap.get_delete_of_ne _ hb]
      rw [hremoved, sequenceOf_congr hledger.accounts]
      exact hmoves.sequenceOf hn
  · obtain ⟨st₁, hset, rfl⟩ := h
    obtain ⟨acct, hupdate, hmoves⟩ := setAccount_ok env hset
    have hstorage := fun b => sequenceOf_congr (commitStorage_sameLedger env o st₁).accounts b
    have hcode := fun b => sequenceOf_congr (commitCode_sameLedger env o st).accounts b
    refine ⟨?_, ?_⟩
    · intro b n hb hn
      rw [hstorage]
      refine hmoves.sequenceOf ?_
      rw [sequenceOf_setAuth_of_ne _ hb, hcode, hn]
    · intro _
      rw [hstorage]
      refine hmoves.sequenceOf ?_
      rw [sequenceOf_setAuth_self, update_sequence env hupdate]

/-- The commit loop, on the sequences. -/
theorem commitAll_sequenceOf {s : StateDB Store} (hk : s.keeper = evmKeeper env) (hco : s.Coherent)
    {a : Address} {nonce : UInt64} (hhead : HasNonce a nonce s.view.head) {addrs : List Address}
    (hnodup : addrs.Nodup) {st st' : Store} {n : UInt64} (hn : st.sequenceOf a = some n)
    (hrun : s.commitAll addrs st = .ok () st') :
    st'.sequenceOf a = some (if a ∈ addrs then nonce else n) := by
  induction addrs generalizing st n with
  | nil =>
      obtain rfl := forM_nil_ok.mp hrun
      simpa using hn
  | cons b addrs ih =>
      obtain ⟨hb, hnodup'⟩ := List.nodup_cons.mp hnodup
      obtain ⟨o, st₁, ho, hcommit, hrest⟩ := StateDB.commitAll_cons_ok.mp hrun
      rw [hk] at hcommit
      have haddr := (hco b o ho).address
      obtain ⟨hothers, hself⟩ := commit_sequenceOf env hcommit
      rw [haddr] at hothers hself
      by_cases hab : a = b
      · subst hab
        have hnonce := hhead.nonce
        have hlive := hhead.live
        unfold Live at hlive
        rw [StateDB.head_of_get ho] at hnonce hlive
        rw [ih hnodup' (hself hlive) hrest, if_neg hb, if_pos List.mem_cons_self]
        exact congrArg some hnonce
      · rw [ih hnodup' (hothers a n hab hn) hrest]
        simp only [List.mem_cons, hab, false_or]

/-- **A commit writes the nonce of the working state**, for a live account that is dirty. -/
theorem commit_sequence_of_head {s : StateDB Store} (hwf : Wf s) (hk : s.keeper = evmKeeper env)
    {a : Address} {nonce : UInt64} (hhead : HasNonce a nonce s.view.head) {st st' : Store} {n : UInt64}
    (hn : st.sequenceOf a = some n) (hrun : s.commit st = .ok () st') :
    st'.sequenceOf a = some (if a ∈ s.journal.sortedDirties then nonce else n) :=
  commitAll_sequenceOf env hk hwf.ready.coherent hhead (nodup_sortedDirties s.journal) hn hrun

/-! ## Transactions -/

variable {app : App} {ctx : Context} {eoa : Address → Prop}

/-- What is assumed of code outside this repository, for externally owned accounts that exist: a call leaves
their nonces alone, a creation changes the nonce of its caller only, none of them is deleted, and the hooks
leave their sequences alone. -/
structure App.SparesNonces (app : App) (ctx : Context) (eoa : Address → Prop) : Prop where
  call : ∀ msg gas (s : StateDB Store) a, eoa a → (s.exist a).1 = true →
    ∀ op ∈ (app.geth.call ctx msg gas s).ops, op.keepsNonce a = true
  create : ∀ msg gas (s : StateDB Store) a, eoa a → (s.exist a).1 = true →
    ∀ op ∈ (app.geth.create ctx msg gas s).ops, op ≠ .suicide a ∧ (a ≠ msg.sender → op.keepsNonce a = true)
  hooks : ∀ hooks, app.hooks = some hooks → ∀ msg st receipt st' receipt',
    multiPostTxProcessing hooks msg (st, receipt) = .ok () (st', receipt') →
    ∀ a n, eoa a → st.sequenceOf a = some n → st'.sequenceOf a = some n

/-- A message that creates a contract from an account. -/
def Message.CreatesFrom (msg : Message) (a : Address) : Prop := msg.toAddr = none ∧ msg.sender = a

instance (msg : Message) (a : Address) : Decidable (msg.CreatesFrom a) :=
  inferInstanceAs (Decidable (_ ∧ _))

/-- A fresh `StateDB` has the nonce of the keeper. -/
theorem hasNonce_new {st : Store} {a : Address} {n : UInt64} (hn : st.sequenceOf a = some n) (txConfig : TxConfig) :
    HasNonce a n (StateDB.new st (evmKeeper env) txConfig).view.head := by
  obtain ⟨acct, hacct, rfl⟩ := Option.map_eq_some_iff.mp hn
  refine ⟨?_, ?_⟩
  · rw [head_new, hacct]
    rfl
  · rw [Live, head_new, hacct]
    rfl

/-- A fresh `StateDB` knows the accounts of the keeper. -/
theorem isSome_head_new {st : Store} {a : Address} {n : UInt64} (hn : st.sequenceOf a = some n)
    (txConfig : TxConfig) : ((StateDB.new st (evmKeeper env) txConfig).view.head a).isSome := by
  obtain ⟨acct, hacct, -⟩ := Option.map_eq_some_iff.mp hn
  rw [head_new, hacct]
  rfl

/-- The account exists where the virtual machine starts: the operations before it take no account away. -/
theorem exist_after {st : Store} {a : Address} {n : UInt64} (hn : st.sequenceOf a = some n) {txConfig : TxConfig}
    {ops : List Op} {s : StateDB Store} (hrun : runOps (StateDB.new st (evmKeeper env) txConfig) ops = .ok s) :
    (s.exist a).1 = true := by
  have hhead := runOps_exists (isSome_head_new env hn txConfig) hrun
  rw [StateDB.exist_fst (runOps_wf (wf_new st (evmKeeper env) txConfig) hrun).ready.coherent]
  rwa [View.head, Option.isSome_map] at hhead

/-- An execution that is not a creation by `a`. -/
theorem App.execute_hasNonce (hvm : app.SparesNonces ctx eoa) {a : Address} (ha : eoa a)
    {msg : Message} (hmsg : ¬msg.CreatesFrom a) {gas : UInt64} {txConfig : TxConfig} {st : Store}
    {n : UInt64} (hn : st.sequenceOf a = some n) {s : StateDB Store} {out : VmOutcome}
    (h : app.execute ctx msg gas txConfig st = .ok (s, out)) : HasNonce a n s.view.head := by
  have hnew := wf_new st (evmKeeper app.env) txConfig
  obtain ⟨-, ops, hrun, hops⟩ := App.execute_run h
  have hvmops : ∀ op ∈ out.ops, op.keepsNonce a = true := by
    intro op hop
    cases hto : msg.toAddr with
    | some dst =>
        obtain ⟨s₀, hprep, rfl, -⟩ := App.execute_call hto h
        exact hvm.call msg gas s₀ a ha (exist_after app.env hn hprep) op hop
    | none =>
        obtain ⟨s₀, s₁, hprep, rfl, -, -⟩ := App.execute_create hto h
        have hreset : runOps (StateDB.new st (evmKeeper app.env) txConfig)
            (app.prepareOps ctx msg ++ [.setNonce msg.sender msg.nonce]) =
              .ok (s₀.setNonce msg.sender msg.nonce) := runOps_append.mpr ⟨s₀, hprep, rfl⟩
        exact (hvm.create msg gas _ a ha (exist_after app.env hn hreset) op hop).2 fun heq => hmsg ⟨hto, heq.symm⟩
  have hkeep : ∀ op ∈ ops, op.keepsNonce a = true := by
    intro op hop
    rcases hops op hop with hprep | hop | ⟨nonce, hto, rfl⟩
    · exact Op.keepsNonce_of_quiet (app.prepareOps_quiet ctx hprep) a
    · exact hvmops op hop
    · have hne : msg.sender ≠ a := fun heq => hmsg ⟨hto, heq⟩
      simpa [Op.keepsNonce] using hne
  exact (runOps_keeps (Q := HasNonce a n) (fun op hop _ hQ => Op.hasNonce (hkeep op hop) hQ)
    hnew (hasNonce_new app.env hn txConfig) (RevisionsAt.new _ _ _) hrun).1

/-- A creation by `a`. -/
theorem App.execute_creates (hvm : app.SparesNonces ctx eoa) {a : Address} (ha : eoa a)
    {msg : Message} (hmsg : msg.CreatesFrom a) {gas : UInt64} {txConfig : TxConfig} {st : Store}
    {n : UInt64} (hn : st.sequenceOf a = some n) {s : StateDB Store} {out : VmOutcome}
    (h : app.execute ctx msg gas txConfig st = .ok (s, out)) :
    HasNonce a (msg.nonce + 1) s.view.head ∧ a ∈ s.journal.sortedDirties := by
  obtain ⟨hto, rfl⟩ := hmsg
  have hnew := wf_new st (evmKeeper app.env) txConfig
  obtain ⟨s₀, s₁, hprep, rfl, hrun, rfl⟩ := App.execute_create hto h
  -- The account is live through the three parts of the run; the last `SetNonce` decides.
  have hreset : runOps (StateDB.new st (evmKeeper app.env) txConfig)
      (app.prepareOps ctx msg ++ [.setNonce msg.sender msg.nonce]) =
        .ok (s₀.setNonce msg.sender msg.nonce) := runOps_append.mpr ⟨s₀, hprep, rfl⟩
  have hwf₁ := runOps_wf hnew hreset
  have hlive₁ : Live msg.sender (s₀.setNonce msg.sender msg.nonce).view.head ∧
      RevisionsAt (fun v => Live msg.sender v.head) (s₀.setNonce msg.sender msg.nonce) := by
    refine runOps_keeps (Q := Live msg.sender) ?_ hnew (hasNonce_new app.env hn txConfig).live
      (RevisionsAt.new _ _ _) hreset
    intro op hop head hQ
    rcases List.mem_append.mp hop with hop | hop
    · exact Op.live (Op.ne_suicide_of_quiet (app.prepareOps_quiet ctx hop) _) hQ
    · rw [List.mem_singleton.mp hop]
      exact Op.live (by simp) hQ
  have hlive₂ := (runOps_keeps (Q := Live msg.sender)
    (fun op hop _ hQ => Op.live
      (hvm.create msg gas _ msg.sender ha (exist_after app.env hn hreset) op hop).1 hQ)
    hwf₁ hlive₁.1 hlive₁.2 hrun).1
  have hready := (runOps_wf hwf₁ hrun).ready
  refine ⟨?_, s₁.mem_dirties_setNonce hready msg.sender _⟩
  rw [funext (StateDB.heads_setNonce hready msg.sender (msg.nonce + 1))]
  exact hlive₂.setNonce _

/-- The sequence after a message was committed. -/
theorem App.applyMessage_sequenceOf (hvm : app.SparesNonces ctx eoa) {a : Address} (ha : eoa a)
    {msg : Message} {cfg : EvmConfig} {txConfig : TxConfig} {st st' : Store} {res : Response}
    {n : UInt64} (hn : st.sequenceOf a = some n)
    (h : app.applyMessageWithConfig ctx msg true cfg txConfig st = .ok res st') :
    st'.sequenceOf a = some (if msg.CreatesFrom a then msg.nonce + 1 else n) := by
  obtain ⟨gas, s, out, used, happlied⟩ := App.applyMessageWithConfig_ok h
  have hnew := wf_new st (evmKeeper app.env) txConfig
  obtain ⟨-, ops, hrun, -⟩ := App.execute_run happlied.execute
  have hwf := runOps_wf hnew hrun
  have hk : s.keeper = evmKeeper app.env := (runOps_store hnew hrun).1
  split_ifs with hcreates
  · obtain ⟨hhead, hdirty⟩ := App.execute_creates hvm ha hcreates hn happlied.execute
    rw [commit_sequence_of_head app.env hwf hk hhead hn happlied.commit, if_pos hdirty]
  · have hhead := App.execute_hasNonce hvm ha hcreates hn happlied.execute
    rw [commit_sequence_of_head app.env hwf hk hhead hn happlied.commit, ite_self]

/-- A message was committed: without hooks always, with hooks if the response is not a failure. -/
def App.Keeps (app : App) (res : Response) : Prop := app.hooks.isNone = true ∨ res.failed = false

instance (app : App) (res : Response) : Decidable (app.Keeps res) := inferInstanceAs (Decidable (_ ∨ _))

/-- **The sequence after a transaction.** A creation by the account that was committed sets it to the nonce of
the message plus one; otherwise it is as before. -/
theorem App.applyTransaction_sequenceOf (hvm : app.SparesNonces ctx eoa) {a : Address} (ha : eoa a)
    {tx : TxData} {st st' : Store} {res : Response} {n : UInt64} (hn : st.sequenceOf a = some n)
    (h : app.applyTransaction ctx tx st = .ok res st') :
    st'.sequenceOf a = some (if (app.geth.sender ctx tx = some a ∧ tx.getTo = none) ∧ app.Keeps res then
      tx.getNonce + 1 else n) := by
  obtain ⟨cfg, msg, receipt, st₁, st₂, -, hmsg, hprocess, hrefund, hsame⟩ := App.applyTransaction_ok h
  obtain ⟨refund, -, hmoves⟩ := App.refundGas_ok hrefund
  rw [sequenceOf_congr hsame.accounts]
  refine hmoves.sequenceOf ?_
  have hcreates : msg.CreatesFrom a ↔ app.geth.sender ctx tx = some a ∧ tx.getTo = none := by
    obtain ⟨sender, hsender, rfl⟩ := Option.map_eq_some_iff.mp hmsg
    show tx.getTo = none ∧ sender = a ↔ app.geth.sender ctx tx = some a ∧ tx.getTo = none
    rw [hsender, Option.some.injEq, and_comm]
  have hnonce : msg.nonce = tx.getNonce := by
    obtain ⟨sender, -, rfl⟩ := Option.map_eq_some_iff.mp hmsg
    rfl
  obtain ⟨res₀, tmp, happly, -, hend⟩ := App.process_ok hprocess
  have htmp := App.applyMessage_sequenceOf hvm ha hn happly
  simp only [hcreates, hnonce] at htmp
  rcases hend with ⟨hhooks, -, rfl⟩ | ⟨hhooks, hfailed, rfl⟩ | ⟨hooks, receipt₀, hhooks, -, hfailed, hpost⟩
  · have hkeeps : app.Keeps res := Or.inl (by rw [hhooks]; rfl)
    simp only [hkeeps, and_true]
    exact htmp
  · have hdropped : ¬app.Keeps res := by
      rintro (hnone | hsucceeded)
      · rw [Option.isNone_iff_eq_none.mp hnone] at hhooks
        exact absurd hhooks (by simp)
      · exact absurd (hfailed.symm.trans hsucceeded) (by simp)
    rw [if_neg fun hkept => hdropped hkept.2, hn]
  · have hkeeps : app.Keeps res := Or.inr hfailed
    simp only [hkeeps, and_true]
    exact hvm.hooks hooks hhooks msg tmp receipt₀ st₁ receipt hpost a _ ha htmp

end nonces

end Smartdoge.Evm
