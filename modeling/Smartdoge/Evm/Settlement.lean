import Smartdoge.Evm.Collector
import Smartdoge.Evm.Fees

/-!
# Settling one transaction

What a transaction does to the fee collector after its fee was deducted. The gas it is charged for is at
most its gas limit (`App.process_gasUsed_le`), so the refund is at most the fee, and a fee collector
that holds the fee can pay it.

* **`App.applyTransaction_settles`**: a transaction that returned has moved its refund from the fee
  collector, and nothing else.
* **`App.applyTransaction_funded`**: the refund does not fail for lack of funds.
-/

set_option linter.unusedSectionVars false

namespace Smartdoge.Evm

open Smartdoge.Lib
open Smartdoge.Lib.Writes
open Smartdoge.Statedb

/-! ## Gas -/

/-- No more gas is used than was bought. -/
theorem temporaryGasUsed_le {ctx : Context} {gas leftoverGas refund used : UInt64}
    (h : temporaryGasUsed ctx gas leftoverGas refund = .ok used) : used ≤ gas := by
  simp only [temporaryGasUsed] at h
  split_ifs at h with hleft hrefund
  obtain rfl := Except.ok.inj h
  rw [UInt64.not_lt] at hleft hrefund
  rw [UInt64.le_iff_toNat_le, UInt64.toNat_sub_of_le _ _ hrefund, UInt64.toNat_sub_of_le _ _ hleft]
  omega

/-- The share of the gas limit that is always charged is between none and all of it. -/
def Context.ChargesShare (ctx : Context) : Prop :=
  0 ≤ ctx.feeMarketParams.minGasMultiplier.units ∧
    ctx.feeMarketParams.minGasMultiplier.units ≤ Dec.precision

/-- **The gas charged is at most the gas limit**, for a gas limit that is an `int64`. -/
theorem chargedGas_le {ctx : Context} (hshare : ctx.ChargesShare) {gas used charged : UInt64}
    (hgas : gas.toNat < 2 ^ 63) (hused : used ≤ gas) (h : chargedGas ctx gas used = .ok charged) :
    charged ≤ gas := by
  obtain ⟨hnonneg, hone⟩ := hshare
  have hpos := Dec.precision_pos
  rw [UInt64.le_iff_toNat_le] at hused
  have hgas64 : goInt64 gas = gas.toNat := if_pos hgas
  have hused64 : goInt64 used = used.toNat := if_pos (by omega)
  simp only [chargedGas, hgas64, hused64, Dec.mul_ofInt] at h
  have hcap : ∀ x : Dec, 0 ≤ x.units → x.units ≤ gas.toNat * Dec.precision →
      intUint64 x.truncateInt = .ok charged → charged ≤ gas := by
    intro x hx hle hcharged
    have hdiv : x.truncateInt = x.units / Dec.precision := Int.tdiv_eq_ediv_of_nonneg hx
    have htop : x.truncateInt ≤ gas.toNat := by
      rw [hdiv]
      exact Int.ediv_le_of_le_mul hpos hle
    have hbottom : 0 ≤ x.truncateInt := by
      rw [hdiv]
      exact Int.ediv_nonneg hx hpos.le
    unfold intUint64 at hcharged
    split_ifs at hcharged
    obtain rfl := Except.ok.inj hcharged
    rw [UInt64.le_iff_toNat_le, UInt64.toNat_ofNat']
    exact (Nat.mod_le _ _).trans (by omega)
  have hmin : gas.toNat * ctx.feeMarketParams.minGasMultiplier.units ≤ gas.toNat * Dec.precision :=
    mul_le_mul_of_nonneg_left hone (Int.natCast_nonneg _)
  have hmax : (used.toNat : ℤ) * Dec.precision ≤ gas.toNat * Dec.precision :=
    mul_le_mul_of_nonneg_right (by exact_mod_cast hused) hpos.le
  refine hcap _ ?_ ?_ h
  · unfold Dec.max Dec.ofInt
    split_ifs
    · exact mul_nonneg (Int.natCast_nonneg _) hpos.le
    · exact mul_nonneg (Int.natCast_nonneg _) hnonneg
  · unfold Dec.max Dec.ofInt
    split_ifs
    · exact hmax
    · exact hmin

section settlement

variable [Keccak] {app : App} {ctx : Context}

/-- The gas used by a message, hooks or not, is at most its gas limit. -/
theorem App.process_gasUsed_le (hshare : ctx.ChargesShare) {tx : TxData} {msg : Message}
    (hgas : msg.gas.toNat < 2 ^ 63) {cfg : EvmConfig} {txConfig : TxConfig} {st st' : Store}
    {res : Response} {receipt : Receipt}
    (h : app.process ctx tx msg cfg txConfig st = .ok (res, receipt) st') : res.gasUsed ≤ msg.gas := by
  obtain ⟨res₀, tmp, happly, hsame, -⟩ := App.process_ok h
  obtain ⟨gas, s, out, used, happlied⟩ := App.applyMessageWithConfig_ok happly
  rw [hsame]
  exact chargedGas_le hshare hgas (temporaryGasUsed_le happlied.gasUsed) happlied.charged

/-! ## Refunds that fail -/

/-- A refund that fails for lack of funds. -/
theorem App.refundGas_insufficient {msg : Message} {leftoverGas : UInt64} {st st' : Store}
    (h : app.refundGas msg leftoverGas st = .error (.refund .insufficientFunds) st') :
    ∃ amount : ℕ, (amount : ℤ) = leftoverGas.toNat * msg.gasPrice ∧ 0 < amount ∧
      st.balance app.env.collector < st.lockedCoins app.env.collector + amount := by
  simp only [refundGas] at h
  split_ifs at h with hneg hpos
  · cases h
  · rcases bind_error.mp h with h | ⟨amount, st₁, h₁, h⟩
    · obtain ⟨hint, -⟩ := ofExcept_error.mp h
      obtain ⟨p, -, hp⟩ := mapError_error.mp hint
      cases hp
    · obtain ⟨hint, rfl⟩ := ofExcept_ok.mp h₁
      have hamount : amount = leftoverGas.toNat * msg.gasPrice := by
        rw [mapError_ok, newIntFromBigInt] at hint
        split_ifs at hint
        exact (Except.ok.inj hint).symm
      obtain ⟨err, hsend, herr⟩ := adaptExcept_error.mp h
      unfold sendCoinsFromModuleToAccount at hsend
      split_ifs at hsend
      · cases hsend
        cases herr
      · exact ⟨amount.toNat, by omega, by omega, (sendCoins_error hsend).2⟩
  · cases h

/-- A transaction that fails in its refund has processed its message. -/
theorem App.applyTransaction_refund_error {tx : TxData} {st st' : Store} {err : KeeperError}
    (h : app.applyTransaction ctx tx st = .error (.refund err) st') :
    ∃ cfg msg res receipt st₁, app.asMessage ctx tx ctx.getBaseFee = some msg ∧
      app.process ctx tx msg cfg (st.txConfig ctx (app.geth.txHash tx)) st = .ok (res, receipt) st₁ ∧
      app.refundGas msg (msg.gas - res.gasUsed) st₁ = .error (.refund err) st' := by
  rcases bind_error.mp h with h | ⟨cfg, st₁, h₁, h⟩
  · obtain ⟨h, -⟩ := ofExcept_error.mp h
    unfold Context.evmConfig at h
    split at h <;> cases h
  obtain ⟨hcfg, rfl⟩ := ofExcept_ok.mp h₁
  rcases bind_error.mp h with h | ⟨st₂, st₃, h₂, h⟩
  · cases h
  obtain ⟨rfl, rfl⟩ := get_ok.mp h₂
  rcases bind_error.mp h with h | ⟨msg, st₄, h₃, h⟩
  · obtain ⟨h, -⟩ := ofExcept_error.mp h
    cases hm : app.asMessage ctx tx cfg.baseFee with
    | none =>
        rw [hm] at h
        cases h
    | some m =>
        rw [hm] at h
        cases h
  obtain ⟨hmsg, rfl⟩ := ofExcept_ok.mp h₃
  rcases bind_error.mp h with h | ⟨⟨res, receipt⟩, st₅, hprocess, h⟩
  · exact absurd (process_error h) Bool.false_ne_true
  rw [elim_error_ok, ctx.evmConfig_baseFee hcfg] at hmsg
  rcases bind_error.mp h with h | ⟨⟨⟩, st₆, -, h⟩
  · exact ⟨cfg, msg, res, receipt, st₅, hmsg, hprocess, h⟩
  rcases bind_error.mp h with h | ⟨⟨⟩, st₇, -, h⟩
  · cases h
  rcases bind_error.mp h with h | ⟨⟨⟩, st₈, -, h⟩
  · simp only [addTransientGasUsed] at h
    split_ifs at h
    cases h
  · cases h

/-! ## Transactions -/

/-- The sender of a message is not the fee collector. -/
theorem App.SparesCollector.message_sender (hspares : app.SparesCollector ctx) {tx : TxData}
    {baseFee : Option ℕ} {msg : Message} (hmsg : app.asMessage ctx tx baseFee = some msg) :
    msg.sender ≠ app.env.collector := by
  obtain ⟨sender, hsender, rfl⟩ := Option.map_eq_some_iff.mp hmsg
  rintro rfl
  exact hspares.sender tx hsender

/-- The gas of a message is the gas limit of its transaction. -/
theorem App.asMessage_gas {tx : TxData} {baseFee : Option ℕ} {msg : Message}
    (hmsg : app.asMessage ctx tx baseFee = some msg) : msg.gas = tx.getGas := by
  obtain ⟨sender, -, rfl⟩ := Option.map_eq_some_iff.mp hmsg
  rfl

/-- What a refund that returned paid, for a sender that is not the fee collector. -/
theorem App.refundGas_collects {msg : Message} (hsender : msg.sender ≠ app.env.collector)
    {leftoverGas : UInt64} {st st' : Store} (h : app.refundGas msg leftoverGas st = .ok () st') :
    ∃ refund : ℕ, (refund : ℤ) = leftoverGas.toNat * msg.gasPrice ∧
      Collects app.env (-refund) st st' := by
  obtain ⟨refund, hrefund, hmoves⟩ := refundGas_ok h
  refine ⟨refund, hrefund, ?_⟩
  have hcollects : Collects app.env _ st st' := Collects.of_moves hmoves
  rw [amountAt_self, amountAt_of_ne (Ne.symm hsender), add_zero] at hcollects
  exact hcollects

/-- **A transaction that returned** was charged for no more gas than its limit, and moved the refund
of the rest from the fee collector. -/
theorem App.applyTransaction_settles (hspares : app.SparesCollector ctx) (hshare : ctx.ChargesShare)
    {tx : TxData} (hgas : tx.getGas.toNat < 2 ^ 63) {st st' : Store}
    (howned : st.CollectorOwned app.env) {res : Response}
    (h : app.applyTransaction ctx tx st = .ok res st') :
    ∃ msg st₁ st₂, ∃ refund : ℕ, app.asMessage ctx tx ctx.getBaseFee = some msg ∧
      res.gasUsed ≤ tx.getGas ∧ app.refundGas msg (msg.gas - res.gasUsed) st₁ = .ok () st₂ ∧
      (refund : ℤ) = (tx.getGas - res.gasUsed).toNat * msg.gasPrice ∧
      Collects app.env (-refund) st₁ st₂ ∧ Collects app.env (-refund) st st' := by
  obtain ⟨cfg, msg, receipt, st₁, st₂, -, hmsg, hprocess, hrefund, hsame⟩ := applyTransaction_ok h
  have hsender := hspares.message_sender hmsg
  have hlimit := asMessage_gas hmsg
  have hused := process_gasUsed_le hshare (by rw [hlimit]; exact hgas) hprocess
  obtain ⟨refund, hamount, hpaid⟩ := refundGas_collects hsender hrefund
  rw [hlimit] at hused hamount
  refine ⟨msg, st₁, st₂, refund, hmsg, hused, hrefund, hamount, hpaid, ?_⟩
  have hall := ((process_collector hspares hsender howned hprocess).trans hpaid).trans
    (Collects.of_samePersistent hsame.toSamePersistent)
  rwa [zero_add, add_zero] at hall

/-- **A refund does not fail for lack of funds**, if the fee collector holds the fee of the
transaction. -/
theorem App.applyTransaction_funded (hspares : app.SparesCollector ctx) (hshare : ctx.ChargesShare)
    {tx : TxData} (hgas : tx.getGas.toNat < 2 ^ 63) {st st' : Store}
    (howned : st.CollectorOwned app.env) {msg : Message}
    (hmsg : app.asMessage ctx tx ctx.getBaseFee = some msg) {fee : ℕ}
    (hfee : (fee : ℤ) = tx.getGas.toNat * msg.gasPrice) (hfunds : fee ≤ st.balance app.env.collector)
    (hmodule : 0 < fee → st.IsModule app.env.collector) :
    app.applyTransaction ctx tx st ≠ .error (.refund .insufficientFunds) st' := by
  intro h
  obtain ⟨cfg, msg', res, receipt, st₁, hmsg', hprocess, hrefund⟩ := applyTransaction_refund_error h
  obtain rfl := Option.some.inj (hmsg.symm.trans hmsg')
  have hlimit := asMessage_gas hmsg
  have hused := process_gasUsed_le hshare (by rw [hlimit]; exact hgas) hprocess
  have hkept := process_collector hspares (hspares.message_sender hmsg) howned hprocess
  obtain ⟨amount, hamount, hpos, hshort⟩ := refundGas_insufficient hrefund
  rw [hlimit] at hused hamount
  -- The refund is a part of the fee.
  have hprice : 0 < msg.gasPrice := by
    by_contra hle
    have := mul_nonpos_of_nonneg_of_nonpos (Int.natCast_nonneg (tx.getGas - res.gasUsed).toNat)
      (not_lt.mp hle)
    omega
  have hpart : amount ≤ fee := by
    have hleft : (tx.getGas - res.gasUsed).toNat ≤ tx.getGas.toNat := by
      rw [UInt64.toNat_sub_of_le _ _ hused]
      omega
    have := mul_le_mul_of_nonneg_right (Int.ofNat_le.mpr hleft) hprice.le
    omega
  have hlocked := (hkept.isModule (hmodule (by omega))).lockedCoins
  have hbalance := hkept.balance
  omega

end settlement

end Smartdoge.Evm
