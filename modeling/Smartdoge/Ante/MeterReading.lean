import Smartdoge.Ante.Block
import Smartdoge.Evm.GasTotals

/-!
# The reading of the gas meter

The messages of a Cosmos transaction share a counter of the gas used in the transient store. The ante handler
sets it to zero, also where an earlier transaction of the block was aborted and left it behind, and every
message adds to it and sets the gas meter.

* `newEthAnteHandler_gasUsed`: the counter after the ante handler.
* `runEthMsgs_gasUsed`: the counter and the meter after some messages.
* **`meter_reads_total`**: for every transaction of every block, after each message.
-/

set_option linter.unusedSectionVars false

namespace Smartdoge.Ante

open Smartdoge.Lib
open Smartdoge.Lib.Writes
open Smartdoge.Evm

section meter

variable [Keccak] {app : App} {json : LogJson} {sdk : Sdk} {ctx : Context}

/-- **The ante handler** sets the counter to zero. -/
theorem newEthAnteHandler_gasUsed {tx : CosmosTx} {simulate : Bool} {st st' : Store} {out : EthAnte}
    (h : newEthAnteHandler app ctx sdk tx simulate st = .ok out st') : st'.transient.gasUsed = 0 := by
  rw [newEthAnteHandler_transient h]
  rfl

/-- The gas that messages used, added without a bound. -/
def totalGasUsed (results : List (Response × List Event)) : ℕ :=
  (results.map fun r => r.1.gasUsed.toNat).sum

/-- **The counter and the meter after some messages.** -/
theorem runEthMsgs_gasUsed (hhooks : app.HooksKeepGasUsed) {b : BlockTx} {eths : List MsgEthereumTx}
    {st st' : Store} {results : List (Response × List Event)}
    (h : runEthMsgs app json b eths st = .ok results st') :
    st'.transient.gasUsed.toNat = st.transient.gasUsed.toNat + totalGasUsed results ∧
      (eths ≠ [] → st'.gasConsumed = st'.transient.gasUsed) := by
  induction eths generalizing st results with
  | nil =>
      obtain ⟨rfl, rfl⟩ := mapM_nil_ok.mp h
      exact ⟨rfl, fun hne => absurd rfl hne⟩
  | cons eth eths ih =>
      obtain ⟨⟨response, events⟩, st₁, results', hone, hrest, rfl⟩ := mapM_cons_ok.mp h
      obtain ⟨happly, -⟩ := App.ethereumTx_ok.mp hone
      obtain ⟨htotal, hmeter⟩ := App.applyTransaction_total hhooks happly
      obtain ⟨hcounter, hlast⟩ := ih hrest
      constructor
      · have hcons : totalGasUsed ((response, events) :: results') =
            response.gasUsed.toNat + totalGasUsed results' := List.sum_cons
        rw [hcounter, htotal, hcons, Nat.add_assoc]
      · intro _
        cases eths with
        | nil =>
            obtain ⟨-, rfl⟩ := mapM_nil_ok.mp hrest
            exact hmeter
        | cons eth' eths => exact hlast (by simp)

/-- **The gas meter reads the sum of the gas used.** This is for every block and every transaction after some
others, whatever these left behind, for every number of its messages. The meter reads the sum whatever the SDK
had metered before it was set. The next message returns `ErrGasOverflow` for the totals if and only if the sum
with the gas it used does not fit in a `uint64`. -/
theorem meter_reads_total (hhooks : app.HooksKeepGasUsed) {bs : List BlockTx} {b : BlockTx} {st st₁ : Store}
    {out : EthAnte} (hante : newEthAnteHandler app b.ctx sdk b.tx false
      (deliverBlock app json sdk bs st).2 = .ok out st₁)
    {j : ℕ} (hj : j ≤ out.msgs.length) {results : List (Response × List Event)} {st₂ : Store}
    (hrun : runEthMsgs app json b (out.msgs.take j) st₁ = .ok results st₂) :
    (0 < j → st₂.gasConsumed.toNat = totalGasUsed results ∧
      ∀ meter, resetGasMeterAndConsumeGas meter st₂.transient.gasUsed =
        .ok { meter with consumed := st₂.gasConsumed }) ∧
    ∀ eth, out.msgs[j]? = some eth →
      ((∃ st₃, app.applyTransaction b.ctx eth.data st₂ = .error .transientGasOverflow st₃) ↔
        ∃ res st₃, app.applyBeforeTotals b.ctx eth.data st₂ = .ok res st₃ ∧
          2 ^ 64 ≤ totalGasUsed results + res.gasUsed.toNat) := by
  obtain ⟨hcounter, hmeter⟩ := runEthMsgs_gasUsed hhooks hrun
  rw [newEthAnteHandler_gasUsed hante, UInt64.toNat_zero, Nat.zero_add] at hcounter
  constructor
  · intro hpos
    have hne : out.msgs.take j ≠ [] := by
      rw [← List.length_pos_iff, List.length_take]
      omega
    rw [hmeter hne]
    exact ⟨hcounter, fun meter => resetGasMeterAndConsumeGas_eq meter _⟩
  · intro eth _
    rw [← hcounter]
    exact App.applyTransaction_overflow_iff hhooks

end meter

/-- Two messages, in a block whose first transaction was aborted after its message. -/
theorem meter_reads_total_batch :
    letI := sampleKeccak
    let a : Address := .ofNat 20 1
    let app := sampleApp a transferCall transferCall
    let st : Store :=
      { beforeBatch a with
        balances := (GoMap.empty.set a 4000000).set (sampleEnv.moduleAddress .feeCollector) 1800000
        transient := ⟨0, 0, 0, 77⟩ }
    let bs := [sampleBlockTx (legacyTx 3 (some (.ofNat 20 2))) (.aborts 1 .other)]
    let b : BlockTx :=
      { ctx := { sampleContext with meteredGas := 5000 }
        tx := ethCosmosTx [legacyTx 4 (some (.ofNat 20 2)), legacyTx 5 (some (.ofNat 20 2))] 1800000 200000
        txHash := none
        fate := .completes }
    ∃ out st₁ results st₂,
      newEthAnteHandler app b.ctx sampleSdk b.tx false
        (deliverBlock app (sampleJson []) sampleSdk bs st).2 = .ok out st₁ ∧
      st₁.gasConsumed = 5000 ∧
      runEthMsgs app (sampleJson []) b (out.msgs.take 2) st₁ = .ok results st₂ ∧
      totalGasUsed results = 100000 ∧ st₂.gasConsumed.toNat = totalGasUsed results := by
  let _ := sampleKeccak
  intro a app st bs b
  obtain ⟨out, st₁, hante, hmetered⟩ := exists_of_endsWith (by decide +kernel :
    endsWith (newEthAnteHandler app b.ctx sampleSdk b.tx false
      (deliverBlock app (sampleJson []) sampleSdk bs st).2) (fun out st₁ =>
        decide (st₁.gasConsumed = 5000 ∧ out.msgs.length = 2) &&
        endsWith (runEthMsgs app (sampleJson []) b (out.msgs.take 2) st₁) (fun results _ =>
          decide (totalGasUsed results = 100000))) = true)
  rw [Bool.and_eq_true] at hmetered
  obtain ⟨hmeter, hlength⟩ := of_decide_eq_true hmetered.1
  obtain ⟨results, st₂, hrun, htotal⟩ := exists_of_endsWith hmetered.2
  obtain ⟨hreads, -⟩ := meter_reads_total (App.hooksKeepGasUsed_of_none rfl) hante (by omega) hrun
  exact ⟨out, st₁, results, st₂, hante, hmeter, hrun, of_decide_eq_true htotal, (hreads (by omega)).1⟩

end Smartdoge.Ante
