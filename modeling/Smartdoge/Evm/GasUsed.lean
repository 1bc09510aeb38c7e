import Smartdoge.Evm.StateTransition

/-!
# The gas that is charged

The end of `ApplyMessageWithConfig`: a share of the gas limit is charged at least, and otherwise what the
execution used after the refund. Both numbers are `uint64`, and both go through `int64` on their way into
a decimal. A gas limit of 2⁶³ or more becomes negative there. In a block such a limit can hardly be paid
for, but the gas limit of a query is whatever its caller gives.

* `temporaryGasUsed_eq`: the arithmetic before the minimum never overflows.
* `truncateInt_max`: the charge as an integer, whatever the two numbers have become.
* **`gasUsed_bounds_iff`**: the charge is the larger of the two numbers, if and only if the gas limit is
  below 2⁶³, or the gas used is, and is not less than the minimum.
-/

set_option linter.unusedSectionVars false

namespace Smartdoge.Evm

open Smartdoge.Lib
open Smartdoge.Lib.Writes
open Smartdoge.Statedb

/-! ## Without overflow -/

/-- The gas used after the refund, which is capped by a share of the gas used. -/
def netGas (gas leftoverGas refund quotient : ℕ) : ℕ :=
  gas - leftoverGas - min refund ((gas - leftoverGas) / quotient)

/-- The share of a gas limit that is charged at least, rounded down. -/
def minimumGas (multiplier : Dec) (gas : ℕ) : ℕ := multiplier.units.toNat * gas / 10 ^ 18

/-- Refunds only lower the gas that was used. -/
theorem netGas_le (gas leftoverGas refund quotient : ℕ) : netGas gas leftoverGas refund quotient ≤ gas :=
  (Nat.sub_le _ _).trans (Nat.sub_le _ _)

/-- The minimum is a share of the gas limit. -/
theorem minimumGas_le {multiplier : Dec} (h : multiplier.units ≤ Dec.precision) (gas : ℕ) :
    minimumGas multiplier gas ≤ gas := by
  have hunits : multiplier.units.toNat ≤ 10 ^ 18 := by
    unfold Dec.precision at h
    omega
  unfold minimumGas
  apply Nat.div_le_of_le_mul
  exact Nat.mul_le_mul_right gas hunits

/-! ## The code -/

/-- The refund is capped by a share of the gas that was consumed. -/
theorem gasToRefund_toNat (availableRefund gasConsumed refundQuotient : UInt64) :
    (gasToRefund availableRefund gasConsumed refundQuotient).toNat =
      min availableRefund.toNat (gasConsumed.toNat / refundQuotient.toNat) := by
  simp only [gasToRefund]
  rw [← UInt64.toNat_div]
  split_ifs with h
  · rw [UInt64.lt_iff_toNat_lt] at h
    exact (min_eq_left h.le).symm
  · rw [UInt64.lt_iff_toNat_lt, not_lt] at h
    exact (min_eq_right h).symm

/-- **The gas used after the refund.** Neither of the two checks for an overflow fails. -/
theorem temporaryGasUsed_eq (ctx : Context) {gas leftoverGas : UInt64} (refund : UInt64)
    (h : leftoverGas ≤ gas) :
    ∃ used, temporaryGasUsed ctx gas leftoverGas refund = .ok used ∧
      used.toNat = netGas gas.toNat leftoverGas.toNat refund.toNat ctx.refundQuotient.toNat := by
  have hused := UInt64.toNat_sub_of_le gas leftoverGas h
  have hrefund := gasToRefund_toNat refund (gas - leftoverGas) ctx.refundQuotient
  have hcapped : gasToRefund refund (gas - leftoverGas) ctx.refundQuotient ≤ gas - leftoverGas := by
    rw [UInt64.le_iff_toNat_le, hrefund]
    exact (min_le_right _ _).trans (Nat.div_le_self _ _)
  refine ⟨gas - leftoverGas - gasToRefund refund (gas - leftoverGas) ctx.refundQuotient, ?_, ?_⟩
  · unfold temporaryGasUsed
    rw [if_neg (UInt64.not_lt.mpr h), if_neg (UInt64.not_lt.mpr hcapped)]
  · rw [UInt64.toNat_sub_of_le _ _ hcapped, hrefund, hused]
    rfl

/-- Truncation keeps the order. -/
theorem truncateInt_max (n t : ℤ) (multiplier : Dec) :
    (((Dec.ofInt n).mul multiplier).max (Dec.ofInt t)).truncateInt =
      max ((n * multiplier.units).tdiv Dec.precision) t := by
  have hpos := Dec.precision_pos
  have hwhole : (t * Dec.precision).tdiv Dec.precision = t := Int.mul_tdiv_cancel t hpos.ne'
  rw [Dec.mul_ofInt]
  unfold Dec.max Dec.truncateInt Dec.ofInt
  split_ifs with h
  · have hle := Int.tdiv_le_tdiv hpos h.le
    rw [hwhole] at hle ⊢
    exact (max_eq_right hle).symm
  · have hle := Int.tdiv_le_tdiv hpos (not_lt.mp h)
    rw [hwhole] at hle
    exact (max_eq_left hle).symm

/-- The minimum of a gas limit that fits in an `int64`. -/
theorem tdiv_minimumGas {multiplier : Dec} (h : 0 ≤ multiplier.units) (gas : ℕ) :
    ((gas : ℤ) * multiplier.units).tdiv Dec.precision = minimumGas multiplier gas := by
  obtain ⟨units, hunits⟩ := Int.eq_ofNat_of_zero_le h
  unfold minimumGas Dec.precision
  rw [hunits, Int.tdiv_eq_ediv_of_nonneg (by positivity), mul_comm, Int.toNat_natCast]
  norm_cast

/-- The minimum of a gas limit that became negative. -/
theorem tdiv_nonpos_of_neg {multiplier : Dec} (h : 0 ≤ multiplier.units) {n : ℤ} (hn : n ≤ 0) :
    (n * multiplier.units).tdiv Dec.precision ≤ 0 := by
  have hle := Int.tdiv_le_tdiv Dec.precision_pos (mul_nonpos_of_nonpos_of_nonneg hn h)
  rwa [Int.zero_tdiv] at hle

/-- An integer that is converted to a `uint64` keeps its value, or there is a panic. -/
theorem exists_intUint64 {x : ℤ} {n : ℕ} (hn : n < 2 ^ 64) :
    (∃ y, intUint64 x = .ok y ∧ y.toNat = n) ↔ x = n := by
  unfold intUint64
  split_ifs with hx
  · have hlt : x.toNat < UInt64.size := by
      show x.toNat < 2 ^ 64
      omega
    have hnat : (UInt64.ofNat x.toNat).toNat = x.toNat := UInt64.toNat_ofNat_of_lt' hlt
    simp only [Except.ok.injEq, exists_eq_left', hnat]
    omega
  · simp only [false_and, exists_false, false_iff]
    omega

/-- **What is charged.** -/
theorem chargedGas_iff {ctx : Context} {gas used : UInt64} (hle : used ≤ gas)
    (hzero : 0 ≤ ctx.feeMarketParams.minGasMultiplier.units)
    (hone : ctx.feeMarketParams.minGasMultiplier.units ≤ Dec.precision) :
    (∃ charged, chargedGas ctx gas used = .ok charged ∧ charged.toNat =
        max (minimumGas ctx.feeMarketParams.minGasMultiplier gas.toNat) used.toNat) ↔
      gas.toNat < 2 ^ 63 ∨
        used.toNat < 2 ^ 63 ∧ minimumGas ctx.feeMarketParams.minGasMultiplier gas.toNat ≤ used.toNat := by
  have hlimit := minimumGas_le hone gas.toNat
  have hbits := gas.toNat_lt
  have hmax : max (minimumGas ctx.feeMarketParams.minGasMultiplier gas.toNat) used.toNat < 2 ^ 64 := by
    rw [UInt64.le_iff_toNat_le] at hle
    omega
  rw [UInt64.le_iff_toNat_le] at hle
  unfold chargedGas
  rw [exists_intUint64 hmax, truncateInt_max]
  by_cases hgas : gas.toNat < 2 ^ 63
  · have hused : used.toNat < 2 ^ 63 := by omega
    unfold goInt64
    rw [if_pos hgas, if_pos hused, tdiv_minimumGas hzero]
    exact iff_of_true (Nat.cast_max _ _).symm (Or.inl hgas)
  · have hminimum : (goInt64 gas * ctx.feeMarketParams.minGasMultiplier.units).tdiv Dec.precision ≤ 0 := by
      apply tdiv_nonpos_of_neg hzero
      unfold goInt64
      rw [if_neg hgas]
      omega
    by_cases hused : used.toNat < 2 ^ 63
    · have hint : goInt64 used = used.toNat := if_pos hused
      rw [hint]
      omega
    · have hint : goInt64 used < 0 := by
        unfold goInt64
        rw [if_neg hused]
        omega
      omega

section apply

variable [Keccak] {app : App} {ctx : Context}

/-- Where everything before it succeeds, `ApplyMessageWithConfig` returns if the charge can be computed. -/
theorem App.applyMessageWithConfig_charged {msg : Message} {commit : Bool} {cfg : EvmConfig}
    {txConfig : TxConfig} {st : Store} {gas used : UInt64} {s : StateDB Store} {out : VmOutcome}
    (henabled : checkEnabled cfg.params msg = .ok ()) (hgas : app.executionGas ctx msg = .ok gas)
    (hexecute : app.execute ctx msg gas txConfig st = .ok (s, out))
    (hused : temporaryGasUsed ctx msg.gas out.leftoverGas s.refund = .ok used)
    (hcommit : commit = true → ∃ st', s.commit st = .ok () st') (P : UInt64 → Prop) :
    (∃ res st', app.applyMessageWithConfig ctx msg commit cfg txConfig st = .ok res st' ∧ P res.gasUsed) ↔
      ∃ charged, chargedGas ctx msg.gas used = .ok charged ∧ P charged := by
  constructor
  · rintro ⟨res, st', h, hres⟩
    obtain ⟨⟨⟩, st₁, h₁, h⟩ := bind_ok.mp h
    obtain ⟨-, rfl⟩ := ofExcept_ok.mp h₁
    obtain ⟨gas', st₂, h₂, h⟩ := bind_ok.mp h
    obtain ⟨hgas', rfl⟩ := ofExcept_ok.mp h₂
    obtain rfl := Except.ok.inj (hgas.symm.trans hgas')
    obtain ⟨st₃, st₄, h₃, h⟩ := bind_ok.mp h
    obtain ⟨rfl, rfl⟩ := get_ok.mp h₃
    obtain ⟨⟨s', out'⟩, st₅, h₄, h⟩ := bind_ok.mp h
    obtain ⟨hexecute', rfl⟩ := ofExcept_ok.mp h₄
    obtain ⟨rfl, rfl⟩ := Prod.mk.inj (Except.ok.inj (hexecute.symm.trans (mapError_ok.mp hexecute')))
    obtain ⟨used', st₆, h₅, h⟩ := bind_ok.mp h
    obtain ⟨hused', rfl⟩ := ofExcept_ok.mp h₅
    obtain rfl := Except.ok.inj (hused.symm.trans hused')
    obtain ⟨⟨⟩, st₇, -, h⟩ := bind_ok.mp h
    obtain ⟨charged, st₈, h₇, h⟩ := bind_ok.mp h
    obtain ⟨hcharged, rfl⟩ := ofExcept_ok.mp h₇
    obtain ⟨rfl, -⟩ := pure_ok.mp h
    exact ⟨charged, mapError_ok.mp hcharged, hres⟩
  · rintro ⟨charged, hcharged, hres⟩
    obtain ⟨st₁, hst₁⟩ : ∃ st₁, (if commit then EStateM.adaptExcept .commit s.commit else pure () :
        TxM PUnit) st = .ok () st₁ := by
      cases commit with
      | false => exact ⟨st, rfl⟩
      | true =>
          obtain ⟨st₁, hst₁⟩ := hcommit rfl
          exact ⟨st₁, adaptExcept_ok.mpr hst₁⟩
    refine ⟨⟨txConfig.txHash, s.logs, out.ret, out.vmErr.getD "", charged⟩, st₁, ?_, hres⟩
    refine bind_ok.mpr ⟨(), st, ofExcept_ok.mpr ⟨henabled, rfl⟩, ?_⟩
    refine bind_ok.mpr ⟨gas, st, ofExcept_ok.mpr ⟨hgas, rfl⟩, ?_⟩
    refine bind_ok.mpr ⟨st, st, get_ok.mpr ⟨rfl, rfl⟩, ?_⟩
    refine bind_ok.mpr ⟨(s, out), st, ofExcept_ok.mpr ⟨mapError_ok.mpr hexecute, rfl⟩, ?_⟩
    refine bind_ok.mpr ⟨used, st, ofExcept_ok.mpr ⟨hused, rfl⟩, ?_⟩
    refine bind_ok.mpr ⟨(), st₁, hst₁, ?_⟩
    exact bind_ok.mpr ⟨charged, st₁, ofExcept_ok.mpr ⟨mapError_ok.mpr hcharged, rfl⟩, rfl⟩

/-- The execution gas is the gas limit without the intrinsic gas. -/
theorem App.executionGas_eq {msg : Message} {intrinsicGas : UInt64}
    (hintrinsic : app.getEthIntrinsicGas ctx msg msg.toAddr.isNone = some intrinsicGas)
    (hle : intrinsicGas ≤ msg.gas) : app.executionGas ctx msg = .ok (msg.gas - intrinsicGas) := by
  unfold executionGas
  rw [hintrinsic]
  exact if_neg (UInt64.not_lt.mpr hle)

/-- **The gas charged is within its bounds**, if and only if the gas limit is below 2⁶³, or the gas used after
the refund is and is no less than the minimum. The message is allowed, its gas limit covers the intrinsic
gas, the execution returned no more gas than it was given, and the commit succeeded if there was one. -/
theorem gasUsed_bounds_iff {msg : Message} {commit : Bool} {cfg : EvmConfig} {txConfig : TxConfig}
    {st : Store} {intrinsicGas : UInt64} {s : StateDB Store} {out : VmOutcome}
    (hzero : 0 ≤ ctx.feeMarketParams.minGasMultiplier.units)
    (hone : ctx.feeMarketParams.minGasMultiplier.units ≤ Dec.precision)
    (henabled : checkEnabled cfg.params msg = .ok ())
    (hintrinsic : app.getEthIntrinsicGas ctx msg msg.toAddr.isNone = some intrinsicGas)
    (hlimit : intrinsicGas ≤ msg.gas)
    (hexecute : app.execute ctx msg (msg.gas - intrinsicGas) txConfig st = .ok (s, out))
    (hleftover : out.leftoverGas ≤ msg.gas - intrinsicGas)
    (hcommit : commit = true → ∃ st', s.commit st = .ok () st') :
    let minimum := minimumGas ctx.feeMarketParams.minGasMultiplier msg.gas.toNat
    let net := netGas msg.gas.toNat out.leftoverGas.toNat s.refund.toNat ctx.refundQuotient.toNat
    (∃ res st', app.applyMessageWithConfig ctx msg commit cfg txConfig st = .ok res st' ∧
        res.gasUsed.toNat = max minimum net ∧ res.gasUsed ≤ msg.gas) ↔
      msg.gas.toNat < 2 ^ 63 ∨ net < 2 ^ 63 ∧ minimum ≤ net := by
  intro minimum net
  have hgas := UInt64.toNat_sub_of_le msg.gas intrinsicGas hlimit
  have hle : out.leftoverGas ≤ msg.gas := by
    rw [UInt64.le_iff_toNat_le] at hleftover ⊢
    omega
  obtain ⟨used, hused, hnet⟩ := temporaryGasUsed_eq ctx s.refund hle
  have hnetLe : net ≤ msg.gas.toNat := netGas_le _ _ _ _
  have hminimumLe : minimum ≤ msg.gas.toNat := minimumGas_le hone _
  have husedLe : used ≤ msg.gas := by
    rw [UInt64.le_iff_toNat_le, hnet]
    exact hnetLe
  rw [App.applyMessageWithConfig_charged henabled (App.executionGas_eq hintrinsic hlimit) hexecute hused
    hcommit (fun charged => charged.toNat = max minimum net ∧ charged ≤ msg.gas)]
  have hcharged := chargedGas_iff husedLe hzero hone
  rw [hnet] at hcharged
  rw [← hcharged]
  refine exists_congr ?_
  intro charged
  refine and_congr_right ?_
  intro _
  refine and_iff_left_of_imp ?_
  intro hmax
  rw [UInt64.le_iff_toNat_le, hmax]
  exact max_le hminimumLe hnetLe

end apply

/-- A call that returns none of its gas. -/
def burningCall (_ : Message) (_ : UInt64) (_ : StateDB Store) : VmOutcome where
  ops := []
  ret := []
  leftoverGas := 0
  vmErr := some "out of gas"

/-- A message to an account without code, from a query. -/
def sampleCallMessage (gas : UInt64) : Message where
  sender := .ofNat 20 1
  toAddr := some (.ofNat 20 2)
  nonce := 0
  value := 0
  gas := gas
  gasPrice := 0
  gasFeeCap := 0
  gasTipCap := 0
  data := []
  accessList := []

/-- With a gas limit of 2⁶³ and half of it charged at least, a transfer is charged 21000; and the query panics
if the call uses up its gas. -/
theorem gasUsed_out_of_bounds :
    letI := sampleKeccak
    let msg := sampleCallMessage (.ofNat (2 ^ 63))
    let cfg : EvmConfig := ⟨sampleContext.params, .ofNat 20 50, some 7⟩
    let txConfig : TxConfig := .newEmpty (.zero 32)
    minimumGas sampleContext.feeMarketParams.minGasMultiplier msg.gas.toNat = 2 ^ 62 ∧
      (∃ res st', (sampleApp msg.sender transferCall transferCall).applyMessageWithConfig sampleContext msg
        false cfg txConfig emptyStore = .ok res st' ∧ res.gasUsed = 21000) ∧
      ∃ st', (sampleApp msg.sender burningCall burningCall).applyMessageWithConfig sampleContext msg false cfg
        txConfig emptyStore = .error (.panic .uint64OutOfBounds) st' := by
  let _ := sampleKeccak
  intro msg cfg txConfig
  obtain ⟨res, st', hrun, hres⟩ := exists_of_endsWith (by decide +kernel :
    endsWith ((sampleApp msg.sender transferCall transferCall).applyMessageWithConfig sampleContext msg false
      cfg txConfig emptyStore) (fun res _ => decide (res.gasUsed = 21000)) = true)
  obtain ⟨err, st₁, hfail, herr⟩ := exists_of_failsWith (by decide +kernel :
    failsWith ((sampleApp msg.sender burningCall burningCall).applyMessageWithConfig sampleContext msg false
      cfg txConfig emptyStore) (fun err => decide (err = .panic .uint64OutOfBounds)) = true)
  obtain rfl := of_decide_eq_true herr
  exact ⟨by decide +kernel, ⟨res, st', hrun, of_decide_eq_true hres⟩, st₁, hfail⟩

/-- A transfer with a gas limit of 100000 is charged half of it. -/
theorem gasUsed_bounds_transfer :
    letI := sampleKeccak
    let msg := sampleCallMessage 100000
    ∃ res st', (sampleApp msg.sender transferCall transferCall).applyMessageWithConfig sampleContext msg false
      ⟨sampleContext.params, .ofNat 20 50, some 7⟩ (.newEmpty (.zero 32)) emptyStore = .ok res st' ∧
      res.gasUsed.toNat = 50000 ∧ res.gasUsed ≤ msg.gas := by
  let _ := sampleKeccak
  intro msg
  obtain ⟨s, out, hexecute, hrefund, hleftover⟩ : ∃ s out,
      (sampleApp msg.sender transferCall transferCall).execute sampleContext msg (msg.gas - 21000)
        (.newEmpty (.zero 32)) emptyStore = .ok (s, out) ∧ s.refund = 0 ∧ out.leftoverGas = 79000 :=
    ⟨_, _, rfl, by decide +kernel, by decide +kernel⟩
  have henabled : checkEnabled (EvmConfig.mk sampleContext.params (.ofNat 20 50) (some 7)).params msg =
      .ok () := by decide
  have hintrinsic : (sampleApp msg.sender transferCall transferCall).getEthIntrinsicGas sampleContext msg
      msg.toAddr.isNone = some 21000 := by decide +kernel
  have hleft : out.leftoverGas ≤ msg.gas - 21000 := by
    rw [hleftover]
    decide
  have hcommit : false = true → ∃ st', s.commit emptyStore = .ok () st' := by simp
  obtain ⟨res, st', hrun, hused, hle⟩ := (gasUsed_bounds_iff (by decide) (by decide) henabled hintrinsic
    (by decide) hexecute hleft hcommit).mpr (Or.inl (by decide))
  refine ⟨res, st', hrun, ?_, hle⟩
  rw [hused, hrefund, hleftover]
  decide +kernel

end Smartdoge.Evm
