import Smartdoge.Evm.TxArgs

/-!
# Defaults of transactions

`rpc/backend/utils.go` `SetTxDefaults`: what a client left out of a transaction is filled in, from the latest
header, the account of the sender and an estimate of the gas. The fee cap is filled in as the tip and twice the
base fee, without a bound.

* **`setTxDefaults_completed`**: nothing is missing after it.
* **`sameMessages_iff`**: the simulated message of complete arguments and that of their transaction are made and
  are the same, if and only if the integers fit.
* `sameMessages_feeCap`: the fee cap of a large tip does not fit, and `ToTransaction` panics.
-/

set_option linter.unusedSectionVars false

namespace Smartdoge.Rpc

open Smartdoge.Evm
open Smartdoge.Lib.Writes

/-- The node and the chain, as far as the defaults are taken from them. -/
structure TxBackend where
  /-- `CurrentHeader()`, if there is one, with its base fee. -/
  currentHeader : Option (Option ℤ)
  /-- `SuggestGasTipCap(baseFee)`. -/
  suggestGasTipCap : Option ℤ → Except String ℤ
  /-- `getAccountNonce(accAddr, true, 0, logger)`, whose error is ignored. -/
  getAccountNonce : Address → UInt64
  /-- `EstimateGas(args, &blockNr)`. -/
  estimateGas : TransactionArgs → Except String UInt64
  chainID : ℤ

/-- Why the defaults could not be set. -/
inductive DefaultsError where
  /-- "both gasPrice and (maxFeePerGas or maxPriorityFeePerGas) specified". -/
  | bothFeeStyles
  /-- "latest header is nil". -/
  | noHeader
  | suggestGasTipCap (err : String)
  /-- "maxFeePerGas (%v) < maxPriorityFeePerGas (%v)". -/
  | feeCapBelowTip (feeCap tip : ℤ)
  /-- "maxFeePerGas or maxPriorityFeePerGas specified but london is not active yet". -/
  | londonNotActive
  /-- "both 'data' and 'input' are set and not equal. Please use 'input' to pass transaction call data". -/
  | dataAndInput
  /-- "contract creation without any data provided". -/
  | noData
  | estimateGas (err : String)
  | panic (p : Panic)
deriving DecidableEq

variable (b : TxBackend)

/-- Source: `SetTxDefaults`, `args.MaxPriorityFeePerGas == nil` -/
def defaultTip (baseFee : ℤ) (args : TransactionArgs) : Except DefaultsError ℤ :=
  match args.maxPriorityFeePerGas with
  | some tip => .ok tip
  | none => (b.suggestGasTipCap (some baseFee)).mapError .suggestGasTipCap

/-- The tip and the fee cap, where one of them is missing.
Source: `SetTxDefaults`, `head.BaseFee != nil && args.GasPrice == nil` -/
def defaultDynamicFees (baseFee : ℤ) (args : TransactionArgs) : Except DefaultsError TransactionArgs := do
  let tip ← defaultTip b baseFee args
  let feeCap := args.maxFeePerGas.getD (tip + baseFee * 2)
  if feeCap < tip then .error (.feeCapBelowTip feeCap tip)
  else .ok { args with maxPriorityFeePerGas := some tip, maxFeePerGas := some feeCap }

/-- The gas price.
Source: `SetTxDefaults`, the branch with one gas price -/
def defaultGasPrice (headBaseFee : Option ℤ) (args : TransactionArgs) :
    Except DefaultsError TransactionArgs := do
  if args.maxFeePerGas.isSome ∨ args.maxPriorityFeePerGas.isSome then .error .londonNotActive
  else
    match args.gasPrice with
    | some _ => .ok args
    | none =>
      let price ← (b.suggestGasTipCap headBaseFee).mapError .suggestGasTipCap
      .ok { args with gasPrice := some (price + headBaseFee.getD 0) }

/-- Source: `SetTxDefaults`, the fees -/
def defaultFees (headBaseFee : Option ℤ) (args : TransactionArgs) : Except DefaultsError TransactionArgs :=
  match args.maxPriorityFeePerGas, args.maxFeePerGas with
  | some tip, some feeCap => if feeCap < tip then .error (.feeCapBelowTip feeCap tip) else .ok args
  | _, _ =>
    match headBaseFee, args.gasPrice with
    | some baseFee, none => defaultDynamicFees b baseFee args
    | _, _ => defaultGasPrice b headBaseFee args

/-- Source: `SetTxDefaults`, `args.Nonce == nil` -/
def defaultNonce (args : TransactionArgs) : Except DefaultsError TransactionArgs :=
  match args.nonce, args.sender with
  | some _, _ => .ok args
  | none, some sender => .ok { args with nonce := some (b.getAccountNonce sender) }
  | none, none => .error (.panic .nilDereference)

/-- Source: `SetTxDefaults`, the data -/
def checkData (args : TransactionArgs) : Except DefaultsError PUnit :=
  let differ : Bool :=
    match args.data, args.input with
    | some data, some input => data ≠ input
    | _, _ => false
  if differ then .error .dataAndInput
  else if args.toAddr.isNone ∧ (args.data.or args.input).getD [] = [] then .error .noData
  else .ok ()

/-- Source: `SetTxDefaults`, `args.Gas == nil` -/
def defaultGas (args : TransactionArgs) : Except DefaultsError TransactionArgs :=
  match args.gas with
  | some _ => .ok args
  | none => do
    let callArgs : TransactionArgs :=
      { args with nonce := none, data := args.input.or args.data, input := none, chainID := none }
    let estimated ← (b.estimateGas callArgs).mapError .estimateGas
    .ok { args with gas := some estimated }

/-- Source: `SetTxDefaults` -/
def setTxDefaults (args : TransactionArgs) : Except DefaultsError TransactionArgs :=
  if args.gasPrice.isSome ∧ (args.maxFeePerGas.isSome ∨ args.maxPriorityFeePerGas.isSome) then
    .error .bothFeeStyles
  else
    match b.currentHeader with
    | none => .error .noHeader
    | some headBaseFee => do
      let args ← defaultFees b headBaseFee args
      let args : TransactionArgs := { args with value := some (args.value.getD 0) }
      let args ← defaultNonce b args
      checkData args
      let args ← defaultGas b args
      .ok { args with chainID := some (args.chainID.getD b.chainID) }

variable {b}

/-! ## What is filled in -/

/-- The fees are of one style, and complete. -/
def FeesComplete (args : TransactionArgs) : Prop :=
  (args.gasPrice.isSome ∧ args.maxFeePerGas = none ∧ args.maxPriorityFeePerGas = none) ∨
    (args.gasPrice = none ∧ args.maxFeePerGas.isSome ∧ args.maxPriorityFeePerGas.isSome)

/-- The dynamic fees are filled in. -/
theorem defaultDynamicFees_complete {baseFee : ℤ} {args args' : TransactionArgs} (hprice : args.gasPrice = none)
    (h : defaultDynamicFees b baseFee args = .ok args') : FeesComplete args' := by
  obtain ⟨tip, -, h⟩ := except_bind_ok.mp h
  dsimp only at h
  split_ifs at h
  obtain rfl := Except.ok.inj h
  exact Or.inr ⟨hprice, rfl, rfl⟩

/-- So is the gas price. -/
theorem defaultGasPrice_complete {headBaseFee : Option ℤ} {args args' : TransactionArgs}
    (h : defaultGasPrice b headBaseFee args = .ok args') : FeesComplete args' := by
  unfold defaultGasPrice at h
  split_ifs at h with hdynamic
  simp only [not_or, Bool.not_eq_true, Option.isSome_eq_false_iff, Option.isNone_iff_eq_none] at hdynamic
  obtain ⟨hfee, htip⟩ := hdynamic
  split at h
  · rename_i price hprice
    obtain rfl := Except.ok.inj h
    exact Or.inl ⟨by rw [hprice]; rfl, hfee, htip⟩
  · obtain ⟨price, -, h⟩ := except_bind_ok.mp h
    obtain rfl := Except.ok.inj h
    exact Or.inl ⟨rfl, hfee, htip⟩

/-- **The fees are complete** after their defaults, unless both styles were given. -/
theorem defaultFees_complete {headBaseFee : Option ℤ} {args args' : TransactionArgs}
    (hstyles : ¬(args.gasPrice.isSome ∧ (args.maxFeePerGas.isSome ∨ args.maxPriorityFeePerGas.isSome)))
    (h : defaultFees b headBaseFee args = .ok args') : FeesComplete args' := by
  unfold defaultFees at h
  split at h
  · rename_i tip feeCap htip hfee
    split_ifs at h
    obtain rfl := Except.ok.inj h
    have hprice : args.gasPrice = none := by
      rw [← Option.not_isSome_iff_eq_none]
      intro hsome
      exact hstyles ⟨hsome, Or.inl (by rw [hfee]; rfl)⟩
    exact Or.inr ⟨hprice, by rw [hfee]; rfl, by rw [htip]; rfl⟩
  · split at h
    · rename_i baseFee hprice
      exact defaultDynamicFees_complete hprice h
    · exact defaultGasPrice_complete h

/-- A nonce is filled in, and nothing else. -/
theorem defaultNonce_ok {args args' : TransactionArgs} (h : defaultNonce b args = .ok args') :
    ∃ nonce, args' = { args with nonce := some nonce } := by
  unfold defaultNonce at h
  split at h
  · rename_i nonce hnonce
    obtain rfl := Except.ok.inj h
    exact ⟨nonce, by rw [← hnonce]⟩
  · obtain rfl := Except.ok.inj h
    exact ⟨_, rfl⟩
  · exact absurd h (by simp)

/-- A gas limit is filled in, and nothing else. -/
theorem defaultGas_ok {args args' : TransactionArgs} (h : defaultGas b args = .ok args') :
    ∃ gas, args' = { args with gas := some gas } := by
  unfold defaultGas at h
  split at h
  · rename_i gas hgas
    obtain rfl := Except.ok.inj h
    exact ⟨gas, by rw [← hgas]⟩
  · obtain ⟨estimated, -, h⟩ := except_bind_ok.mp h
    obtain rfl := Except.ok.inj h
    exact ⟨estimated, rfl⟩

/-- **Nothing is missing** after the defaults have been set. -/
theorem setTxDefaults_completed {args args' : TransactionArgs} (h : setTxDefaults b args = .ok args') :
    args'.Completed := by
  unfold setTxDefaults at h
  split_ifs at h with hstyles
  split at h
  · exact absurd h (by simp)
  · obtain ⟨args₁, hfees, h⟩ := except_bind_ok.mp h
    obtain ⟨args₂, hnonce, h⟩ := except_bind_ok.mp h
    obtain ⟨-, -, h⟩ := except_bind_ok.mp h
    obtain ⟨args₃, hgas, h⟩ := except_bind_ok.mp h
    obtain rfl := Except.ok.inj h
    obtain ⟨nonce, rfl⟩ := defaultNonce_ok hnonce
    obtain ⟨gas, rfl⟩ := defaultGas_ok hgas
    have hcomplete := defaultFees_complete hstyles hfees
    exact ⟨rfl, rfl, rfl, rfl, hcomplete⟩

/-! ## Both messages -/

section messages

variable [Keccak]

/-- Both conversions return, and the messages differ in the sender at most: that of the transaction is recovered
from the signature. -/
def SameMessages (args : TransactionArgs) (gasCap : UInt64) (baseFee : ℕ) : Prop :=
  ∃ simulated msg, args.toMessage gasCap (some baseFee) = .ok simulated ∧ args.toTransaction = .ok msg ∧
    ∀ sender, { simulated with sender := sender } =
      msg.data.asTransaction.asMessage sender (some baseFee)

/-- **Simulated and real messages coincide**, if and only if the integers of the arguments fit in those of the
SDK. This is for all arguments that are complete, every base fee, and a gas cap that is zero or large enough. -/
theorem sameMessages_iff {args : TransactionArgs} (hargs : args.Completed) {gasCap : UInt64}
    (hcap : gasCap = 0 ∨ args.gas.getD 0 ≤ gasCap) (baseFee : ℕ) :
    SameMessages args gasCap baseFee ↔ args.IntsFit := by
  constructor
  · rintro ⟨simulated, msg, -, hmsg, -⟩
    exact TransactionArgs.intsFit_of_ok hmsg
  · intro hfits
    obtain ⟨msg, hmsg, hdata⟩ := TransactionArgs.toTransaction_ok hfits
    refine ⟨_, msg, TransactionArgs.toMessage_eq hargs hcap baseFee, hmsg, ?_⟩
    intro sender
    rw [asMessage_newTx, hdata]
    rfl

end messages

/-! ## Concrete arguments -/

/-- A node at a base fee of 7. -/
def sampleBackend : TxBackend where
  currentHeader := some (some 7)
  suggestGasTipCap _ := .ok 0
  getAccountNonce _ := 3
  estimateGas _ := .ok 21000
  chainID := 9000

/-- A transfer with a tip, and everything else left out. -/
def transferArgs (tip : ℤ) : TransactionArgs where
  sender := some (.ofNat 20 1)
  toAddr := some (.ofNat 20 2)
  gas := none
  gasPrice := none
  maxFeePerGas := none
  maxPriorityFeePerGas := some tip
  value := none
  nonce := none
  data := none
  input := none
  accessList := none
  chainID := none

/-- The same with the defaults filled in. -/
def completedArgs (tip : ℤ) : TransactionArgs :=
  { transferArgs tip with
    gas := some 21000
    maxFeePerGas := some (tip + 7 * 2)
    value := some 0
    nonce := some 3
    chainID := some 9000 }

/-- A tip of 1, with the fee cap of 15 that is filled in. -/
theorem sameMessages_transfer :
    letI := sampleKeccak
    let args := completedArgs 1
    setTxDefaults sampleBackend (transferArgs 1) = .ok args ∧ args.Completed ∧ SameMessages args 25000 7 := by
  let _ := sampleKeccak
  intro args
  have hdefaults : setTxDefaults sampleBackend (transferArgs 1) = .ok args := by decide +kernel
  have hargs : args.Completed := setTxDefaults_completed hdefaults
  refine ⟨hdefaults, hargs, (sameMessages_iff hargs ?_ 7).mpr ?_⟩
  · right
    decide
  · simp only [TransactionArgs.IntsFit, TransactionArgs.ints, List.forall_mem_cons]
    refine ⟨?_, ?_, ?_, ?_, ?_, ?_⟩
    · rintro n ⟨⟩
      decide
    · rintro n ⟨⟩
    · rintro n ⟨⟩
      decide
    · rintro n ⟨⟩
      decide
    · rintro n ⟨⟩
      decide
    · simp

/-- The largest tip that a client can give. The fee cap that is filled in has 257 bits: the simulated message is
made, the transaction panics. -/
theorem sameMessages_feeCap :
    letI := sampleKeccak
    let args := completedArgs (2 ^ 256 - 1)
    setTxDefaults sampleBackend (transferArgs (2 ^ 256 - 1)) = .ok args ∧
      (∃ msg, args.toMessage 0 (some 7) = .ok msg ∧ msg.gasFeeCap = 2 ^ 256 + 13) ∧
      args.toTransaction = .error .newIntFromBigInt ∧ ¬SameMessages args 0 7 := by
  let _ := sampleKeccak
  intro args
  have hpanic : args.toTransaction = .error .newIntFromBigInt := by decide +kernel
  refine ⟨by decide +kernel, ⟨_, rfl, by decide +kernel⟩, hpanic, ?_⟩
  rintro ⟨simulated, msg, -, hmsg, -⟩
  rw [hpanic] at hmsg
  cases hmsg

end Smartdoge.Rpc
