import Smartdoge.Ante.GasLimit

/-!
# From the mempool into a block

The same ante handler runs in CheckTx, where it decides about the mempool, and in DeliverTx. In CheckTx it
does more: `EthMempoolFeeDecorator` and `EthAccountVerificationDecorator` work there only, and the intrinsic
gas is checked there only. These are checks, with one exception. `EthAccountVerificationDecorator` makes an
account for a sender that has none, and the decorators after it need the account.

* `deductAll_delivering`, `incrementSenderSequence_withGas`: what a decorator accepts in CheckTx it accepts in
  DeliverTx from the same stores.
* `deductAll_sender`: in DeliverTx every sender needs an account; the only account made on the way is that
  of the fee collector.
* **`delivered_iff`**: a transaction that is accepted in CheckTx is accepted in DeliverTx, if and only if all
  its senders have accounts.
-/

set_option linter.unusedSectionVars false

namespace Smartdoge.Ante

open Smartdoge.Lib
open Smartdoge.Lib.Writes
open Smartdoge.Statedb
open Smartdoge.Evm

/-- The context of DeliverTx at the same height. The SDK meters the reads of the decorators, of which there
are other ones. -/
def delivering (ctx : Context) (meteredGas : UInt64) : Context :=
  { ctx with isCheckTx := false, meteredGas := meteredGas }

/-- The senders of the messages have accounts. -/
def SendersExist (app : App) (ctx : Context) (tx : CosmosTx) (st : Store) : Prop :=
  ∀ eth, Msg.ethereumTx eth ∈ tx.msgs → ∀ a, app.geth.sender ctx eth.data = some a →
    (st.accounts.get a).isSome

section modes

variable [Keccak] {app : App} {ctx : Context} {meteredGas : UInt64}

/-- The senders have accounts, said of the messages after the ante handler. -/
theorem sendersExist_iff {tx : CosmosTx} {eths : List MsgEthereumTx} {st : Store}
    (h : List.Forall₂ (Signed app ctx) tx.msgs eths) : SendersExist app ctx tx st ↔
      ∀ eth ∈ eths, ∀ a, eth.sender = some a → (st.accounts.get a).isSome := by
  unfold SendersExist
  generalize tx.msgs = msgs at h
  induction h with
  | nil => simp
  | cons hsigned _ ih =>
      obtain ⟨eth₀, rfl, hdata, hsender, -⟩ := hsigned
      rw [List.forall_mem_cons, ← ih, hsender, hdata]
      simp only [List.mem_cons, Msg.ethereumTx.injEq]
      constructor
      · intro hall
        exact ⟨hall eth₀ (Or.inl rfl), fun eth heth => hall eth (Or.inr heth)⟩
      · rintro ⟨hfirst, hrest⟩ eth (rfl | heth)
        · exact hfirst
        · exact hrest eth heth

/-! ## Decorators that demand no more in DeliverTx -/

/-- The senders are recovered alike in both modes. -/
theorem ethSigVerification_delivering
    (hsigner : ∀ data, app.geth.sender (delivering ctx meteredGas) data = app.geth.sender ctx data)
    (tx : CosmosTx) :
    ethSigVerification app (delivering ctx meteredGas) tx = ethSigVerification app ctx tx := by
  have hverify : verifySignature app (delivering ctx meteredGas) = verifySignature app ctx := by
    funext msg
    unfold verifySignature
    rw [hsigner]
    rfl
  unfold ethSigVerification
  rw [hverify]

/-- The transfers are checked alike in both modes. -/
theorem canTransfer_delivering
    (hsigner : ∀ data, app.geth.sender (delivering ctx meteredGas) data = app.geth.sender ctx data)
    (st : Store) : canTransfer app (delivering ctx meteredGas) st = canTransfer app ctx st := by
  funext msg
  unfold canTransfer App.asMessage
  rw [hsigner]
  rfl

/-- The intrinsic gas is checked in CheckTx only. -/
theorem checkIntrinsicGas_delivering {data : TxData} (h : app.checkIntrinsicGas ctx data = .ok ()) :
    app.checkIntrinsicGas (delivering ctx meteredGas) data = .ok () := by
  unfold App.checkIntrinsicGas at h ⊢
  split at h
  · exact absurd h (by simp)
  · rename_i intrinsicGas hgas
    split
    · rename_i hnone
      exact absurd (hnone.symm.trans hgas) (by simp)
    · rfl

/-- What is deducted in CheckTx is deducted in DeliverTx, which does not compare the gas limit. -/
theorem deductTxCosts_delivering {sender : Option Address} {data : TxData} {st st' : Store} {fees : ℕ}
    (h : app.deductTxCosts ctx sender data st = .ok fees st') :
    app.deductTxCosts (delivering ctx meteredGas) sender data st = .ok fees st' := by
  obtain ⟨st₁, st₂, h₁, h⟩ := bind_ok.mp h
  obtain ⟨rfl, rfl⟩ := get_ok.mp h₁
  obtain ⟨signer, st₃, h₂, h⟩ := bind_ok.mp h
  obtain ⟨hsigner, rfl⟩ := ofExcept_ok.mp h₂
  obtain ⟨⟨⟩, st₄, h₃, h⟩ := bind_ok.mp h
  obtain ⟨hgas, rfl⟩ := ofExcept_ok.mp h₃
  refine bind_ok.mpr ⟨st, st, get_ok.mpr ⟨rfl, rfl⟩, ?_⟩
  refine bind_ok.mpr ⟨signer, st, ofExcept_ok.mpr ⟨hsigner, rfl⟩, ?_⟩
  exact bind_ok.mpr ⟨(), st, ofExcept_ok.mpr ⟨checkIntrinsicGas_delivering hgas, rfl⟩, h⟩

/-- **Fees that can be deducted in CheckTx can be deducted in DeliverTx.** -/
theorem deductAll_delivering {eths : List MsgEthereumTx} {st st' : Store} {fees : List ℕ}
    (h : deductAll app ctx eths st = .ok fees st') :
    deductAll app (delivering ctx meteredGas) eths st = .ok fees st' := by
  refine mapM_ok_imp ?_ h
  intro eth _ s fee s' hdeduct
  exact adaptExcept_ok.mpr (deductTxCosts_delivering (adaptExcept_ok.mp hdeduct))

/-- **A sequence is advanced whatever the gas meter reads.** -/
theorem incrementSenderSequence_withGas {eth : MsgEthereumTx} {st st' : Store} (gas : UInt64)
    (h : incrementSenderSequence app eth st = .ok () st') :
    incrementSenderSequence app eth { st with gasConsumed := gas } =
      .ok () { st' with gasConsumed := gas } := by
  obtain ⟨sender, acct, acct', hsender, hacct, hnonce, hset, rfl⟩ := incrementSenderSequence_ok h
  refine bind_ok.mpr ⟨_, _, get_ok.mpr ⟨rfl, rfl⟩, ?_⟩
  simp only [hsender, hacct, hset, hnonce, ne_eq, not_true_eq_false, if_false]
  exact modify_ok.mpr rfl

/-- The reading of the gas meter does not matter to the sequences. -/
theorem ethIncrementSenderSequence_withGas {eths : List MsgEthereumTx} {st st' : Store} (gas : UInt64)
    (h : ethIncrementSenderSequence app eths st = .ok () st') :
    ethIncrementSenderSequence app eths { st with gasConsumed := gas } =
      .ok () { st' with gasConsumed := gas } := by
  refine forM_ok_comm (F := fun st => { st with gasConsumed := gas }) ?_ h
  intro eth _ s s'
  exact incrementSenderSequence_withGas gas

/-- Where the senders have accounts, verifying them writes nothing. -/
theorem verifyAccounts_eq {eths : List MsgEthereumTx} {st st' : Store} {us : List PUnit}
    (hexist : ∀ eth ∈ eths, ∀ a, eth.sender = some a → (st.accounts.get a).isSome)
    (h : (eths.mapM verifyAccount) st = .ok us st') : st' = st := by
  induction eths generalizing us with
  | nil => exact (mapM_nil_ok.mp h).2.symm
  | cons eth eths ih =>
      obtain ⟨u, st₁, us', hone, hrest, -⟩ := mapM_cons_ok.mp h
      obtain ⟨a, hsender, ⟨rfl, -⟩ | ⟨hnone, -⟩⟩ := verifyAccount_ok hone
      · exact ih (fun eth heth => hexist eth (List.mem_cons_of_mem _ heth)) hrest
      · have hsome := hexist eth List.mem_cons_self a hsender
        rw [hnone] at hsome
        exact absurd hsome (by simp)

/-- In CheckTx the decorator verifies the accounts. -/
theorem ethAccountVerification_check {eths : List MsgEthereumTx} {st st' : Store}
    (hcheck : ctx.isCheckTx = true) (h : ethAccountVerification ctx eths st = .ok () st') :
    ∃ us, (eths.mapM verifyAccount) st = .ok us st' := by
  unfold ethAccountVerification at h
  rw [if_pos hcheck] at h
  obtain ⟨us, st₁, hloop, h⟩ := bind_ok.mp h
  obtain ⟨-, rfl⟩ := pure_ok.mp h
  exact ⟨us, hloop⟩

/-! ## Accounts that are made on the way -/

/-- New accounts are as `NewAccountWithAddress` makes them. -/
def MakesAccounts (st st' : Store) : Prop :=
  ∀ a, st'.accounts.get a = st.accounts.get a ∨
    st.accounts.get a = none ∧ st'.accounts.get a = some newAccount

/-- The account check of a message makes at most the account of its sender. -/
theorem verifyAccount_makesAccounts {eth : MsgEthereumTx} {st st' : Store} {u : PUnit}
    (h : verifyAccount eth st = .ok u st') : MakesAccounts st st' := by
  obtain ⟨a, -, ⟨rfl, -⟩ | ⟨hnone, rfl⟩⟩ := verifyAccount_ok h
  · exact fun b => Or.inl rfl
  · intro b
    by_cases hb : b = a
    · subst hb
      exact Or.inr ⟨hnone, GoMap.get_set_self _ _ _⟩
    · exact Or.inl (GoMap.get_set_of_ne _ hb _)

/-- **A sender without an account has a new one afterwards.** -/
theorem verifyAccounts_made {eths : List MsgEthereumTx} {st st' : Store} {us : List PUnit}
    (h : (eths.mapM verifyAccount) st = .ok us st') {eth : MsgEthereumTx} (heth : eth ∈ eths) {a : Address}
    (hsender : eth.sender = some a) (hnone : st.accounts.get a = none) :
    st'.accounts.get a = some newAccount := by
  induction eths generalizing st us with
  | nil => simp at heth
  | cons eth' eths ih =>
      obtain ⟨u, st₁, us', hone, hrest, -⟩ := mapM_cons_ok.mp h
      rcases verifyAccount_makesAccounts hone a with hsame | ⟨-, hmade⟩
      · rcases List.mem_cons.mp heth with rfl | heth
        · -- The account of this sender is there now, so it cannot be as before.
          obtain ⟨b, hb, ⟨rfl, hsome⟩ | ⟨-, rfl⟩⟩ := verifyAccount_ok hone
          · obtain rfl := Option.some.inj (hsender.symm.trans hb)
            rw [hnone] at hsome
            exact absurd hsome (by simp)
          · obtain rfl := Option.some.inj (hsender.symm.trans hb)
            rw [hnone] at hsame
            exact absurd (hsame.symm.trans (GoMap.get_set_self _ _ _)) (by simp)
        · exact ih hrest heth (hsame.trans hnone)
      · have hkept := mapM_rel (R := AddsAccounts) AddsAccounts.refl AddsAccounts.trans
          (fun _ _ _ _ _ => verifyAccount_addsAccounts) hrest
        exact hkept.kept a _ hmade

/-- Nothing is deducted for a fee of zero. -/
theorem deductTxCosts_zero {sender : Option Address} {data : TxData} {st st' : Store}
    (h : app.deductTxCosts ctx sender data st = .ok 0 st') : st' = st := by
  obtain ⟨st₁, st₂, h₁, h⟩ := bind_ok.mp h
  obtain ⟨rfl, rfl⟩ := get_ok.mp h₁
  obtain ⟨signer, st₃, h₂, h⟩ := bind_ok.mp h
  obtain ⟨-, rfl⟩ := ofExcept_ok.mp h₂
  obtain ⟨⟨⟩, st₄, h₃, h⟩ := bind_ok.mp h
  obtain ⟨-, rfl⟩ := ofExcept_ok.mp h₃
  obtain ⟨feeAmt, st₅, h₄, h⟩ := bind_ok.mp h
  obtain ⟨-, rfl⟩ := ofExcept_ok.mp h₄
  have hzero : feeAmt = 0 := (App.deductFee_ok h).1.symm
  rw [App.deductFee, if_pos hzero] at h
  exact (pure_ok.mp h).2.symm

/-- **Every sender needs an account**, which it has from before, or is the fee collector and was made by a
fee that was paid. -/
theorem deductAll_sender {eths : List MsgEthereumTx} {st st' : Store} {fees : List ℕ}
    (h : deductAll app ctx eths st = .ok fees st') {eth : MsgEthereumTx} (heth : eth ∈ eths) {a : Address}
    (hsender : eth.sender = some a) :
    (st.accounts.get a).isSome ∨
      a = app.env.moduleAddress .feeCollector ∧ ∃ fee ∈ fees, 0 < fee := by
  induction eths generalizing st fees with
  | nil => simp at heth
  | cons eth' eths ih =>
      obtain ⟨fee, st₁, fees', hone, hrest, rfl⟩ := mapM_cons_ok.mp h
      have hdeduct := adaptExcept_ok.mp hone
      obtain ⟨signer, hsigner, hacct, -, -, -, hmoves⟩ := App.deductTxCosts_ok hdeduct
      rcases List.mem_cons.mp heth with rfl | heth
      · obtain rfl := Option.some.inj (hsender.symm.trans hsigner)
        exact Or.inl hacct
      · rcases ih hrest heth with hsome | ⟨hcollector, fee', hfee', hpos⟩
        · by_cases ha : a = app.env.moduleAddress .feeCollector
          · rcases Nat.eq_zero_or_pos fee with rfl | hpos
            · rw [deductTxCosts_zero hdeduct] at hsome
              exact Or.inl hsome
            · exact Or.inr ⟨ha, fee, List.mem_cons_self, hpos⟩
          · rw [hmoves.made a (by simpa using ha)] at hsome
            exact Or.inl hsome
        · exact Or.inr ⟨hcollector, fee', List.mem_cons_of_mem _ hfee', hpos⟩

/-- A fee is paid to a module account. -/
theorem deductAll_collector {eths : List MsgEthereumTx} {st st' : Store} {fees : List ℕ}
    (h : deductAll app ctx eths st = .ok fees st') {fee : ℕ} (hfee : fee ∈ fees) (hpos : 0 < fee)
    {acct : AuthAccount} (hacct : st.accounts.get (app.env.moduleAddress .feeCollector) = some acct) :
    ∃ sequence, acct = .module sequence := by
  induction eths generalizing st fees with
  | nil =>
      obtain ⟨rfl, -⟩ := mapM_nil_ok.mp h
      simp at hfee
  | cons eth eths ih =>
      obtain ⟨fee', st₁, fees', hone, hrest, rfl⟩ := mapM_cons_ok.mp h
      obtain ⟨signer, -, -, -, -, hmodule, hmoves⟩ := App.deductTxCosts_ok (adaptExcept_ok.mp hone)
      have hkept := hmoves.kept _ _ hacct
      rcases List.mem_cons.mp hfee with rfl | hfee
      · obtain ⟨sequence, hseq⟩ := hmodule hpos
        exact ⟨sequence, Option.some.inj (hkept.symm.trans hseq)⟩
      · exact ih hrest hfee hkept

/-- The fees do not depend on the mode. -/
theorem deductAll_fees {eths : List MsgEthereumTx} {st st' : Store} {fees : List ℕ}
    (h : deductAll app ctx eths st = .ok fees st') :
    fees.map (fun fee : ℕ => (Except.ok (fee : ℤ) : Except FeeError ℤ)) =
      eths.map fun eth => ctx.feeAmount eth.data := by
  refine mapM_map ?_ h
  intro eth _ s fee s' hdeduct
  obtain ⟨-, -, -, hfee, -⟩ := App.deductTxCosts_ok (adaptExcept_ok.mp hdeduct)
  exact hfee.symm

/-! ## Both modes -/

/-- **A transaction that is accepted in CheckTx is accepted in DeliverTx** from the same state at the same height,
if and only if all its senders have accounts in that state. The signer of go-ethereum depends on the height
and on the configuration of the chain; and in DeliverTx, with fewer decorators at work, the SDK meters no more
gas. -/
theorem delivered_iff {sdk : Sdk} {tx : CosmosTx} {st st' : Store} {out : EthAnte}
    (hcheck : ctx.isCheckTx = true) (hmetered : meteredGas ≤ ctx.meteredGas)
    (hsigner : ∀ data, app.geth.sender (delivering ctx meteredGas) data = app.geth.sender ctx data)
    (haccept : newEthAnteHandler app ctx sdk tx false st = .ok out st') :
    (∃ out' st'', newEthAnteHandler app (delivering ctx meteredGas) sdk tx false st = .ok out' st'') ↔
      SendersExist app ctx tx st := by
  obtain ⟨-, hprice, hbasic, hsigned, st₁, st₂, us, hverify, htransfer, hgas, hincrement, -⟩ :=
    newEthAnteHandler_iff.mp haccept
  obtain ⟨st₃, hdeduct, hpool, -, rfl⟩ := ethGasConsume_iff.mp hgas
  obtain ⟨us', hloop⟩ := ethAccountVerification_check hcheck hverify
  rw [sendersExist_iff (ethSigVerification_ok hsigned)]
  constructor
  · rintro ⟨out', st'', hdeliver⟩ eth heth a hsender
    obtain ⟨-, -, -, hsigned', st₁', st₂', -, hverify', -, hgas', -⟩ := newEthAnteHandler_iff.mp hdeliver
    rw [ethSigVerification_delivering hsigner, hsigned] at hsigned'
    rw [← Except.ok.inj hsigned'] at hverify' hgas'
    obtain ⟨st₃', hdeduct', -⟩ := ethGasConsume_iff.mp hgas'
    obtain rfl : ethSetUpContext st = st₁' := (pure_ok.mp hverify').2
    rcases deductAll_sender hdeduct' heth hsender with hsome | ⟨rfl, fee, hfee, hpos⟩
    · exact hsome
    · -- In CheckTx the same fee would have been paid to an account that is not a module account.
      have hfees : out.fees = out'.fees := by
        have hmap := (deductAll_fees hdeduct).trans (deductAll_fees hdeduct').symm
        refine List.map_injective_iff.mpr ?_ hmap
        intro m n hmn
        exact Int.natCast_inj.mp (Except.ok.inj hmn)
      by_contra hnone
      have hmade := verifyAccounts_made hloop heth hsender (Option.not_isSome_iff_eq_none.mp hnone)
      rw [← hfees] at hfee
      obtain ⟨sequence, heq⟩ := deductAll_collector hdeduct hfee hpos hmade
      exact absurd heq (by simp [newAccount])
  · intro hexist
    have hexist' : ∀ eth ∈ out.msgs, ∀ a, eth.sender = some a →
        ((ethSetUpContext st).accounts.get a).isSome := hexist
    obtain rfl := verifyAccounts_eq hexist' hloop
    have hmempool : ethMempoolFee (delivering ctx meteredGas) tx false = .ok () := rfl
    have hpool' : ¬(0 < ctx.blockGasLimit ∧ ctx.blockGasLimit < meteredGas) := by
      rintro ⟨hpos, hlt⟩
      exact hpool ⟨hpos, UInt64.lt_of_lt_of_le hlt hmetered⟩
    have hincrement' := ethIncrementSenderSequence_withGas meteredGas hincrement
    refine ⟨{ msgs := out.msgs
              gasWanted := (out.msgs.map (gasWantedOf app (delivering ctx meteredGas))).foldl (· + ·) 0
              fees := out.fees
              hashes := ethEmitEvent out.msgs { st' with gasConsumed := meteredGas } }, _,
      newEthAnteHandler_iff.mpr ⟨hmempool, hprice, hbasic, ?_, ethSetUpContext st, _, us, rfl, ?_, ?_,
        hincrement', rfl⟩⟩
    · rw [ethSigVerification_delivering hsigner]
      exact hsigned
    · rw [canTransfer_delivering hsigner]
      exact htransfer
    · exact ethGasConsume_iff.mpr ⟨st₃, deductAll_delivering hdeduct, hpool', rfl, rfl⟩

end modes

/-! ## Concrete transactions -/

/-- CheckTx in a block in which gas may be free. -/
def freeCheck : Context := { freeBlock with isCheckTx := true, meteredGas := 60000 }

/-- A message that transfers nothing. -/
def emptyTransfer (nonce : UInt64) : TxData :=
  .legacy ⟨nonce, some 0, 21000, some (.ofNat 20 2), some 0, [], [], [], []⟩

/-- The first transaction of an account that does not exist yet: accepted in CheckTx, rejected in DeliverTx. -/
theorem delivered_unknown_sender :
    letI := sampleKeccak
    let app := sampleApp (.ofNat 20 9) transferCall transferCall
    let st := beforeBatch (.ofNat 20 1)
    let tx := freeCosmosTx [emptyTransfer 0] 21000
    (∃ out st', newEthAnteHandler app freeCheck sampleSdk tx false st = .ok out st') ∧
      ∃ st', newEthAnteHandler app (delivering freeCheck 50000) sampleSdk tx false st =
        .error (.deductTxCosts .accountNotFound) st' := by
  let _ := sampleKeccak
  intro app st tx
  obtain ⟨out, st₁, hcheck, -⟩ := exists_of_endsWith (by decide +kernel :
    endsWith (newEthAnteHandler app freeCheck sampleSdk tx false st) (fun _ _ => true) = true)
  obtain ⟨err, st₂, hdeliver, herr⟩ := exists_of_failsWith (by decide +kernel :
    failsWith (newEthAnteHandler app (delivering freeCheck 50000) sampleSdk tx false st)
      (fun err => decide (err = .deductTxCosts .accountNotFound)) = true)
  obtain rfl := of_decide_eq_true herr
  exact ⟨⟨out, st₁, hcheck⟩, st₂, hdeliver⟩

/-- Two transactions of an account that exists. -/
theorem delivered_known_sender :
    letI := sampleKeccak
    let app := sampleApp (.ofNat 20 1) transferCall transferCall
    let st := beforeBatch (.ofNat 20 1)
    let tx := freeCosmosTx [emptyTransfer 3, emptyTransfer 4] 42000
    ∃ out st', newEthAnteHandler app (delivering freeCheck 50000) sampleSdk tx false st = .ok out st' := by
  let _ := sampleKeccak
  intro app st tx
  obtain ⟨out, st₁, hcheck, -⟩ := exists_of_endsWith (by decide +kernel :
    endsWith (newEthAnteHandler app freeCheck sampleSdk tx false st) (fun _ _ => true) = true)
  refine (delivered_iff rfl (by decide) (fun _ => rfl) hcheck).mpr ?_
  intro eth _ a ha
  obtain rfl := Option.some.inj ha
  decide +kernel

end Smartdoge.Ante
