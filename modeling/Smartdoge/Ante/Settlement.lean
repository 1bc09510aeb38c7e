import Smartdoge.Ante.FeePrice
import Smartdoge.Evm.Settlement

/-!
# Settling a transaction of many messages

The ante handler deducts the fees of all messages of a Cosmos transaction, with prices it computes from
the transactions; then every message is executed and its unused gas is paid back, at the price of the
core message. Where the London fork is active and the base fee enabled, the two prices are one
(`TxData.effectiveGasPrice`), and the books balance.

* `deductAll_collects`, `ante_collects`: the fee collector after the ante handler.
* `deliver_settles`: the messages, by induction. The fee collector always holds the fees of the messages
  that are still to be executed.
* **`batch_settles`**: every message pays for the gas it used, the fee collector grows by the sum of
  that, and no refund fails for lack of funds.
-/

set_option linter.unusedSectionVars false

namespace Smartdoge.Ante

open Smartdoge.Lib
open Smartdoge.Lib.Writes
open Smartdoge.Statedb
open Smartdoge.Evm

/-- What a unit of gas costs at a height with a base fee. -/
def priceAt (ctx : Context) (eth : MsgEthereumTx) : ℤ :=
  eth.data.effectiveGasPrice (ctx.feeMarketBaseFee.getD 0)

/-- The fees for the gas that was used. -/
def usedFees (ctx : Context) (eths : List MsgEthereumTx) (ress : List Response) : ℤ :=
  ((eths.zip ress).map fun executed => executed.2.gasUsed.toNat * priceAt ctx executed.1).sum

section settlement

variable [Keccak] {app : App} {ctx : Context}

/-- A message that was executed after `fee` was deducted for it. -/
structure Settled (app : App) (ctx : Context) (eth : MsgEthereumTx) (fee : ℕ) (res : Response) :
    Prop where
  /-- `fee` is what `DeductTxCostsFromUserBalance` took. -/
  deducted : ∃ st st', app.deductTxCosts ctx eth.sender eth.data st = .ok fee st'
  /-- `msg.Gas() - res.GasUsed` is a subtraction of a smaller number. -/
  noUnderflow : res.gasUsed ≤ eth.data.getGas
  /-- What `RefundGas` paid back, and what is left. -/
  net : ∃ msg st st', ∃ refund : ℕ, app.asMessage ctx eth.data ctx.getBaseFee = some msg ∧
    app.refundGas msg (msg.gas - res.gasUsed) st = .ok () st' ∧ Collects app.env (-refund) st st' ∧
    (fee : ℤ) - refund = res.gasUsed.toNat * priceAt ctx eth

/-! ## The ante handler -/

/-- A message whose gas was bought at the price it is refunded at. -/
structure Bought (app : App) (ctx : Context) (eth : MsgEthereumTx) (fee : ℕ) : Prop where
  deducted : ∃ st st', app.deductTxCosts ctx eth.sender eth.data st = .ok fee st'
  price : ∃ msg, app.asMessage ctx eth.data ctx.getBaseFee = some msg ∧
    msg.gasPrice = priceAt ctx eth ∧ (fee : ℤ) = eth.data.getGas.toNat * msg.gasPrice

/-- A message whose fee was deducted bought its gas at the effective price. -/
theorem bought_of_deducted (hlondon : ctx.isLondon = true) (henabled : ctx.isBaseFeeEnabled = true)
    {eth : MsgEthereumTx} (hsender : eth.sender = app.geth.sender ctx eth.data) {fee : ℕ}
    (h : ∃ st st', app.deductTxCosts ctx eth.sender eth.data st = .ok fee st') :
    Bought app ctx eth fee := by
  refine ⟨h, ?_⟩
  obtain ⟨st, st', hdeduct⟩ := h
  obtain ⟨signer, hsigner, -, hfee, -⟩ := App.deductTxCosts_ok hdeduct
  have hrefunds : ctx.RefundsAtPrice eth.data := Or.inr (Or.inr (Or.inr (Or.inl henabled)))
  refine ⟨eth.data.asMessage signer ctx.getBaseFee, ?_, ?_, ?_⟩
  · rw [App.asMessage, ← hsender, hsigner]
    rfl
  · rw [Context.getBaseFee, if_pos hlondon]
    exact gasPrice_effective eth.data signer _
  · exact (feeAmount_eq_iff hfee signer).mpr hrefunds

/-- **The deductions** go to the fee collector, and its account is a module account after any fee. -/
theorem deductAll_collects (hspares : app.SparesCollector ctx) {eths : List MsgEthereumTx}
    (hsenders : ∀ eth ∈ eths, eth.sender = app.geth.sender ctx eth.data) {st st' : Store}
    {fees : List ℕ} (h : deductAll app ctx eths st = .ok fees st') :
    Collects app.env fees.sum st st' ∧ (0 < fees.sum → st'.IsModule app.env.collector) := by
  induction eths generalizing st fees with
  | nil =>
      obtain ⟨rfl, rfl⟩ := mapM_nil_ok.mp h
      exact ⟨Collects.refl st, by simp⟩
  | cons eth eths ih =>
      obtain ⟨fee, st₁, fees', hone, hrest, rfl⟩ := mapM_cons_ok.mp h
      obtain ⟨signer, hsigner, -, -, -, hmodule, hmoves⟩ :=
        App.deductTxCosts_ok (adaptExcept_ok.mp hone)
      have hne : app.env.collector ≠ signer := by
        rintro rfl
        exact hspares.sender eth.data ((hsenders eth List.mem_cons_self).symm.trans hsigner)
      have hfirst : Collects app.env _ st st₁ := Collects.of_moves hmoves
      rw [amountAt_of_ne hne, amountAt_self, zero_add] at hfirst
      obtain ⟨hall, hmodule'⟩ := ih (fun eth' h' => hsenders eth' (List.mem_cons_of_mem eth h')) hrest
      rw [List.sum_cons]
      refine ⟨?_, ?_⟩
      · rw [Nat.cast_add]
        exact hfirst.trans hall
      · intro hpos
        by_cases hfee : 0 < fee
        · exact hall.isModule (hmodule hfee)
        · exact hmodule' (by omega)

/-- Advancing the sequence of another account. -/
theorem incrementSenderSequence_collects {eth : MsgEthereumTx}
    (hsender : eth.sender ≠ some app.env.collector) {st st' : Store} {u : PUnit}
    (h : incrementSenderSequence app eth st = .ok u st') : Collects app.env 0 st st' := by
  obtain ⟨sender, acct, acct', heth, -, -, -, rfl⟩ := incrementSenderSequence_ok h
  have hne : app.env.collector ≠ sender := by
    rintro rfl
    exact hsender heth
  have hsame : (st.setAuth sender acct').accounts.get app.env.collector =
      st.accounts.get app.env.collector := GoMap.get_set_of_ne _ hne _
  refine ⟨(add_zero _).symm, ?_, ?_⟩
  · rw [hsame]
    exact id
  · unfold Store.IsModule
    rw [hsame]
    exact id

/-- **The fee collector after the ante handler** has the fees of all messages. -/
theorem ante_collects (hspares : app.SparesCollector ctx) {sdk : Sdk} {tx : CosmosTx} {simulate : Bool}
    {st st' : Store} {out : EthAnte} (howned : st.CollectorOwned app.env)
    (h : newEthAnteHandler app ctx sdk tx simulate st = .ok out st') :
    Collects app.env out.fees.sum st st' ∧ (0 < out.fees.sum → st'.IsModule app.env.collector) ∧
      st'.CollectorOwned app.env := by
  obtain ⟨hsigned, st₁, st₂, hadds, hdeduct, hincrement⟩ := newEthAnteHandler_ok h
  have hsenders : ∀ eth ∈ out.msgs, eth.sender = app.geth.sender ctx eth.data :=
    fun eth heth => signed_sender hsigned heth
  have hverified : Collects app.env 0 st st₁ := by
    refine ⟨by rw [hadds.balance, add_zero], ?_, ?_⟩
    · intro hsome
      obtain ⟨acct, hacct⟩ := Option.isSome_iff_exists.mp hsome
      rw [hadds.kept _ acct hacct]
      rfl
    · rintro ⟨sequence, hacct⟩
      exact ⟨sequence, hadds.kept _ _ hacct⟩
  obtain ⟨hfees, hmodule⟩ := deductAll_collects hspares hsenders hdeduct
  have hmeter : Collects app.env 0 st₂ { st₂ with gasConsumed := ctx.meteredGas } :=
    Collects.of_accounts rfl (add_zero _).symm
  have hsequences : Collects app.env 0 { st₂ with gasConsumed := ctx.meteredGas } st' := by
    refine forM_rel (R := Collects app.env 0) Collects.refl (fun h h' => ?_) ?_ hincrement
    · have := h.trans h'
      rwa [add_zero] at this
    · intro eth heth s s' hstep
      refine incrementSenderSequence_collects ?_ hstep
      rw [hsenders eth heth]
      exact hspares.sender eth.data
  have hlast := hmeter.trans hsequences
  rw [add_zero] at hlast
  have hall := (hverified.trans hfees).trans hlast
  rw [zero_add, add_zero] at hall
  refine ⟨hall, fun hpos => hlast.isModule (hmodule hpos), ?_⟩
  by_cases hpos : 0 < out.fees.sum
  · obtain ⟨sequence, hacct⟩ := hlast.isModule (hmodule hpos)
    intro hnone
    rw [hacct] at hnone
    exact absurd hnone (by simp)
  · exact hall.owned (by omega) howned

/-! ## The messages -/

/-- One message, executed while the fee collector holds its fee and `rest`. -/
theorem settled_of_bought (hspares : app.SparesCollector ctx) (hshare : ctx.ChargesShare)
    {eth : MsgEthereumTx} {fee : ℕ} (hbought : Bought app ctx eth fee)
    (hgas : eth.data.getGas.toNat < 2 ^ 63) {st st' : Store} (howned : st.CollectorOwned app.env)
    {res : Response} (h : app.applyTransaction ctx eth.data st = .ok res st') :
    Settled app ctx eth fee res ∧
      Collects app.env (res.gasUsed.toNat * priceAt ctx eth - fee) st st' ∧
      res.gasUsed.toNat * priceAt ctx eth - fee ≤ 0 := by
  obtain ⟨msg, hmsg, hprice, hfee⟩ := hbought.price
  obtain ⟨msg', st₁, st₂, refund, hmsg', hused, hrefund, hamount, hpaid, hall⟩ :=
    App.applyTransaction_settles hspares hshare hgas howned h
  obtain rfl := Option.some.inj (hmsg.symm.trans hmsg')
  have hnet : (fee : ℤ) - refund = res.gasUsed.toNat * priceAt ctx eth := by
    have hsplit : (eth.data.getGas.toNat : ℤ) =
        (eth.data.getGas - res.gasUsed).toNat + res.gasUsed.toNat := by
      rw [UInt64.toNat_sub_of_le _ _ hused]
      rw [UInt64.le_iff_toNat_le] at hused
      omega
    rw [hfee, hamount, ← hprice, hsplit, add_mul]
    omega
  refine ⟨⟨hbought.deducted, hused, msg, st₁, st₂, refund, hmsg, hrefund, hpaid, hnet⟩, ?_, by omega⟩
  have hsame : res.gasUsed.toNat * priceAt ctx eth - fee = -(refund : ℤ) := by omega
  rw [hsame]
  exact hall

/-- **The messages of a transaction**, one after the other, while the fee collector holds their fees.
The induction is on the messages; the fees of those not yet executed stay with the fee collector. -/
theorem deliver_settles (hspares : app.SparesCollector ctx) (hshare : ctx.ChargesShare)
    {eths : List MsgEthereumTx} {fees : List ℕ} (hbought : List.Forall₂ (Bought app ctx) eths fees)
    (hgas : ∀ eth ∈ eths, eth.data.getGas.toNat < 2 ^ 63) {st : Store}
    (howned : st.CollectorOwned app.env) (hfunds : fees.sum ≤ st.balance app.env.collector)
    (hmodule : 0 < fees.sum → st.IsModule app.env.collector) :
    (∀ st', app.deliver ctx (eths.map MsgEthereumTx.data) st ≠
      .error (.refund .insufficientFunds) st') ∧
    ∀ ress st', app.deliver ctx (eths.map MsgEthereumTx.data) st = .ok ress st' →
      List.Forall₂ (fun bought res => Settled app ctx bought.1 bought.2 res) (eths.zip fees) ress ∧
      Collects app.env (usedFees ctx eths ress - fees.sum) st st' := by
  induction hbought generalizing st with
  | nil =>
      refine ⟨fun st' h => ?_, fun ress st' h => ?_⟩
      · cases h
      · obtain ⟨rfl, rfl⟩ := mapM_nil_ok.mp h
        exact ⟨List.Forall₂.nil, Collects.refl st⟩
  | @cons eth fee eths fees hone _ ih =>
      rw [List.sum_cons] at hfunds hmodule
      have hgas₁ := hgas eth List.mem_cons_self
      have hgas' : ∀ eth' ∈ eths, eth'.data.getGas.toNat < 2 ^ 63 :=
        fun eth' h' => hgas eth' (List.mem_cons_of_mem eth h')
      -- What the first message leaves is enough for the others.
      have hrest : ∀ res st₁, app.applyTransaction ctx eth.data st = .ok res st₁ →
          st₁.CollectorOwned app.env ∧ fees.sum ≤ st₁.balance app.env.collector ∧
            (0 < fees.sum → st₁.IsModule app.env.collector) := by
        intro res st₁ hrun
        obtain ⟨hsettled, hcollects, hle⟩ := settled_of_bought hspares hshare hone hgas₁ howned hrun
        have hbalance := hcollects.balance
        have hnonneg : 0 ≤ res.gasUsed.toNat * priceAt ctx eth := by
          obtain ⟨msg, s₁, s₂, refund, -, -, hpaid, hnet⟩ := hsettled.net
          obtain ⟨msg', hmsg', hprice, hfee⟩ := hone.price
          rw [← hprice]
          by_cases hp : 0 ≤ msg'.gasPrice
          · exact mul_nonneg (Int.natCast_nonneg _) hp
          · have hzero : eth.data.getGas.toNat = 0 := by
              by_contra hne
              have := mul_neg_of_pos_of_neg (Int.natCast_pos.mpr (Nat.pos_of_ne_zero hne))
                (not_le.mp hp)
              omega
            have hused := hsettled.noUnderflow
            rw [UInt64.le_iff_toNat_le, hzero, Nat.le_zero] at hused
            rw [hused]
            simp
        refine ⟨hcollects.owned hle howned, by omega, ?_⟩
        intro hpos
        exact hcollects.isModule (hmodule (by omega))
      obtain ⟨msg, hmsg, -, hfee⟩ := hone.price
      refine ⟨fun st' h => ?_, fun ress st' h => ?_⟩
      · rcases mapM_cons_error.mp h with h | ⟨res, st₁, hrun, h⟩
        · exact App.applyTransaction_funded hspares hshare hgas₁ howned hmsg hfee (by omega)
            (fun hpos => hmodule (by omega)) h
        · obtain ⟨howned', hfunds', hmodule'⟩ := hrest res st₁ hrun
          exact (ih hgas' howned' hfunds' hmodule').1 st' h
      · obtain ⟨res, st₁, ress', hrun, hothers, rfl⟩ := mapM_cons_ok.mp h
        obtain ⟨howned', hfunds', hmodule'⟩ := hrest res st₁ hrun
        obtain ⟨hsettled, hcollects, -⟩ := settled_of_bought hspares hshare hone hgas₁ howned hrun
        obtain ⟨hall, hcollects'⟩ := (ih hgas' howned' hfunds' hmodule').2 ress' st' hothers
        refine ⟨List.Forall₂.cons hsettled hall, ?_⟩
        have hsum : usedFees ctx (eth :: eths) (res :: ress') - ((fee :: fees).sum : ℕ) =
            res.gasUsed.toNat * priceAt ctx eth - fee + (usedFees ctx eths ress' - fees.sum) := by
          simp only [usedFees, List.zip_cons_cons, List.map_cons, List.sum_cons]
          rw [Nat.cast_add]
          omega
        rw [hsum]
        exact hcollects.trans hcollects'

/-- **Exact settlement.** At a height where the London fork is active and the base fee enabled, for
every transaction the ante handler accepts, of any number of messages with gas limits below `2 ^ 63`:
no refund fails for lack of funds of the fee collector; and if all messages are executed, each has paid
for the gas it used at its effective price, and the fee collector has grown by the sum of these
payments.

That the bank holds no coins for a fee collector without account is seen to by `x/auth`, which makes the
account at genesis. -/
theorem batch_settles (hspares : app.SparesCollector ctx) (hlondon : ctx.isLondon = true)
    (henabled : ctx.isBaseFeeEnabled = true) (hshare : ctx.ChargesShare) {sdk : Sdk} {tx : CosmosTx}
    {simulate : Bool} {st st₁ : Store} {out : EthAnte} (howned : st.CollectorOwned app.env)
    (hgas : ∀ eth ∈ out.msgs, eth.data.getGas.toNat < 2 ^ 63)
    (hante : newEthAnteHandler app ctx sdk tx simulate st = .ok out st₁) :
    (∀ st', app.deliver ctx (out.msgs.map MsgEthereumTx.data) st₁ ≠
      .error (.refund .insufficientFunds) st') ∧
    ∀ ress st₂, app.deliver ctx (out.msgs.map MsgEthereumTx.data) st₁ = .ok ress st₂ →
      out.fees.length = out.msgs.length ∧
      List.Forall₂ (fun bought res => Settled app ctx bought.1 bought.2 res)
        (out.msgs.zip out.fees) ress ∧
      (st₂.balance app.env.collector : ℤ) =
        st.balance app.env.collector + usedFees ctx out.msgs ress := by
  obtain ⟨hsigned, s₁, s₂, -, hdeduct, -⟩ := newEthAnteHandler_ok hante
  obtain ⟨hcollects, hmodule, howned'⟩ := ante_collects hspares howned hante
  have hdeducted := deductAll_forall₂ hdeduct
  have hbought : List.Forall₂ (Bought app ctx) out.msgs out.fees := by
    rw [List.forall₂_iff_get] at hdeducted ⊢
    refine ⟨hdeducted.1, fun i h h' => ?_⟩
    exact bought_of_deducted hlondon henabled (signed_sender hsigned (List.get_mem _ _))
      (hdeducted.2 i h h')
  have hfunds := hcollects.balance
  obtain ⟨hnofail, hrun⟩ := deliver_settles hspares hshare hbought hgas howned' (by omega) hmodule
  refine ⟨hnofail, fun ress st₂ hdeliver => ?_⟩
  obtain ⟨hall, hlast⟩ := hrun ress st₂ hdeliver
  have hbalance := hlast.balance
  exact ⟨hdeducted.length_eq.symm, hall, by omega⟩

end settlement

/-! ## A concrete run -/

/-- A transfer, where the value is not negative. -/
def paidTransfer (msg : Message) (gas : UInt64) (s : StateDB Store) : VmOutcome :=
  if 0 ≤ msg.value then transferCall msg gas s
  else ⟨[], [], gas, some "insufficient balance for transfer"⟩

/-- The sample transfer debits nobody but its sender. -/
theorem paidTransfer_debits {c : Address} {msg : Message} (hsender : msg.sender ≠ c) (gas : UInt64)
    (s : StateDB Store) : ∀ op ∈ (paidTransfer msg gas s).ops, op.debits c = false := by
  unfold paidTransfer transferCall
  split_ifs with hvalue
  · cases msg.toAddr with
    | none => simp
    | some dst => simp [Op.debits, hsender, hvalue]
  · simp

/-- Two transfers of one account, the first with a tip and a fee cap, the second with a gas price of 9.
Of each gas limit half is charged. -/
theorem batch_settles_transfers :
    letI := sampleKeccak
    let a : Address := .ofNat 20 1
    let collector := sampleEnv.collector
    let st : Store :=
      { accounts := (GoMap.empty.set a (.eth 3 emptyCodeHash)).set collector (.module 0),
        balances := GoMap.empty.set a 3000000, supply := 3000000, kv := GoMap.empty,
        transient := ⟨0, 0, 0, 0⟩ }
    let app := sampleApp a paidTransfer paidTransfer
    let tx₁ := dynamicTransfer 3 (.ofNat 20 2)
    let tx₂ : TxData := .legacy ⟨4, some 9, 50000, some (.ofNat 20 2), some 5, [], [], [], []⟩
    ∃ out st₁ ress st₂,
      newEthAnteHandler app sampleContext sampleSdk (ethCosmosTx [tx₁, tx₂] 1450000 150000) false st =
        .ok out st₁ ∧
      app.deliver sampleContext (out.msgs.map MsgEthereumTx.data) st₁ = .ok ress st₂ ∧
      out.fees = [800000, 450000] ∧ st₂.balance collector = 625000 ∧
      (st₂.balance collector : ℤ) = st.balance collector + usedFees sampleContext out.msgs ress := by
  let _ := sampleKeccak
  intro a collector st app tx₁ tx₂
  have hspares : app.SparesCollector sampleContext := by
    refine ⟨?_, ?_, ?_, ?_⟩
    · intro tx h
      exact absurd (Option.some.inj h) (by decide)
    · exact fun msg gas s hsender => paidTransfer_debits hsender gas s
    · exact fun msg gas s hsender => paidTransfer_debits hsender gas s
    · intro hooks h
      exact absurd h (by simp [app, sampleApp])
  obtain ⟨out, st₁, hante, hout⟩ := exists_of_endsWith (by decide +kernel :
    endsWith (newEthAnteHandler app sampleContext sampleSdk (ethCosmosTx [tx₁, tx₂] 1450000 150000)
        false st)
      (fun out st₁ => decide (out.fees = [800000, 450000]) &&
        decide (∀ eth ∈ out.msgs, eth.data.getGas.toNat < 2 ^ 63) &&
        endsWith (app.deliver sampleContext (out.msgs.map MsgEthereumTx.data) st₁)
          (fun _ st₂ => decide (st₂.balance collector = 625000))) = true)
  obtain ⟨⟨hfees, hgas⟩, hdeliver⟩ := by simpa only [Bool.and_eq_true, decide_eq_true_eq] using hout
  obtain ⟨ress, st₂, hrun, hbalance⟩ := exists_of_endsWith hdeliver
  have howned : st.CollectorOwned app.env := fun h => absurd h (by decide +kernel)
  have hsettles := (batch_settles hspares (by decide) (by decide) (by unfold Context.ChargesShare; decide)
    howned hgas hante).2 ress st₂ hrun
  exact ⟨out, st₁, ress, st₂, hante, hrun, hfees, of_decide_eq_true hbalance, hsettles.2.2⟩

end Smartdoge.Ante
