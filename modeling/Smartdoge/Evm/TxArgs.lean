import Smartdoge.Evm.Oversized
import Smartdoge.Lib.Writes

/-!
# Arguments of calls and transactions

`x/evm/types/tx_args.go`: the arguments that a client gives for a call or a transaction, where every field may be
missing. `ToMessage` makes the message of a simulated execution of them. `ToTransaction` makes a transaction to be
signed, whose message is made by go-ethereum later. They pick the type of the transaction and the fees by case
splits of their own, and only the second goes through the integers of the SDK.

* `toTransaction_ok`, `intsFit_of_ok`: the transaction is made if and only if the integers fit, and then it is
  the one the arguments describe (`TransactionArgs.txData`).
* **`toMessage_eq`**: the simulated message is the message of that transaction.
-/

set_option linter.unusedSectionVars false

namespace Smartdoge.Evm

open Smartdoge.Lib.Writes

/-- Source: `tx_args.go` `TransactionArgs` -/
structure TransactionArgs where
  /-- `From`. -/
  sender : Option Address
  toAddr : Option Address
  gas : Option UInt64
  gasPrice : Option ℤ
  maxFeePerGas : Option ℤ
  maxPriorityFeePerGas : Option ℤ
  value : Option ℤ
  nonce : Option UInt64
  data : Option Bytes
  input : Option Bytes
  accessList : Option (List AccessTuple)
  chainID : Option ℤ
deriving DecidableEq

/-- Why no message is made of the arguments. -/
inductive ArgsError where
  /-- "both gasPrice and (maxFeePerGas or maxPriorityFeePerGas) specified". -/
  | bothFeeStyles
deriving DecidableEq

/-- The message that `ToTransaction` makes, without signature and hash. -/
structure UnsignedMsg where
  data : ProtoTxData
  sender : String
deriving DecidableEq

namespace TransactionArgs

/-- Source: `GetFrom` -/
def getFrom (args : TransactionArgs) : Address := args.sender.getD (.zero 20)

/-- `input` is preferred.
Source: `GetData` -/
def getData (args : TransactionArgs) : Bytes :=
  match args.input with
  | some input => input
  | none => args.data.getD []

/-! ## The simulated message -/

/-- Source: `ToMessage`, `gas` -/
def messageGas (args : TransactionArgs) (globalGasCap : UInt64) : UInt64 :=
  let gas := if globalGasCap = 0 then 9223372036854775807 else globalGasCap
  let gas := args.gas.getD gas
  if globalGasCap ≠ 0 ∧ globalGasCap < gas then globalGasCap else gas

/-- The gas price, the fee cap and the tip cap.
Source: `ToMessage`, `if baseFee == nil` -/
def messageFees (args : TransactionArgs) (baseFee : Option ℕ) : ℤ × ℤ × ℤ :=
  match baseFee with
  | none =>
    -- There is no base fee: an execution before EIP-1559.
    let gasPrice := args.gasPrice.getD 0
    (gasPrice, gasPrice, gasPrice)
  | some baseFee =>
    match args.gasPrice with
    | some gasPrice => (gasPrice, gasPrice, gasPrice)
    | none =>
      let gasFeeCap := args.maxFeePerGas.getD 0
      let gasTipCap := args.maxPriorityFeePerGas.getD 0
      -- The gas price is filled in, unless all are zero.
      let gasPrice := if gasFeeCap ≠ 0 ∨ gasTipCap ≠ 0 then min (gasTipCap + baseFee) gasFeeCap else 0
      (gasPrice, gasFeeCap, gasTipCap)

/-- Source: `ToMessage` -/
def toMessage (args : TransactionArgs) (globalGasCap : UInt64) (baseFee : Option ℕ) : Except ArgsError Message :=
  if args.gasPrice.isSome ∧ (args.maxFeePerGas.isSome ∨ args.maxPriorityFeePerGas.isSome) then
    .error .bothFeeStyles
  else
    let (gasPrice, gasFeeCap, gasTipCap) := args.messageFees baseFee
    .ok
      { sender := args.getFrom
        toAddr := args.toAddr
        nonce := args.nonce.getD 0
        value := args.value.getD 0
        gas := args.messageGas globalGasCap
        gasPrice := gasPrice
        gasFeeCap := gasFeeCap
        gasTipCap := gasTipCap
        data := args.getData
        accessList := args.accessList.getD [] }

end TransactionArgs

/-! ## The transaction -/

/-- An integer that may be missing. An `sdk.Int` that was not set has a `nil` in it, which the getters return. -/
def newIntOf : Option ℤ → Except EncodeError (Option SdkInt)
  | none => .ok none
  | some x => some <$> newIntFromBigInt x

/-- An argument is converted if it fits, and keeps its value. -/
theorem newIntOf_ok_iff {x : Option ℤ} {y : Option SdkInt} :
    newIntOf x = .ok y ↔ (∀ n, x = some n → FitsSdk n) ∧ y.map SdkInt.toInt = x := by
  cases x with
  | none =>
      refine ⟨?_, ?_⟩
      · intro h
        obtain rfl := Except.ok.inj h
        exact ⟨by simp, rfl⟩
      · rintro ⟨-, hnone⟩
        rw [Option.map_eq_none_iff.mp hnone]
        rfl
  | some n =>
      by_cases hfits : FitsSdk n
      · have hok : newIntOf (some n) = .ok (some ⟨n, hfits⟩) := by
          show some <$> newIntFromBigInt n = _
          rw [newIntFromBigInt_ok hfits]
          rfl
        rw [hok, Except.ok.injEq]
        refine ⟨?_, ?_⟩
        · rintro rfl
          refine ⟨?_, rfl⟩
          rintro m ⟨⟩
          exact hfits
        · rintro ⟨-, hmap⟩
          obtain ⟨i, rfl, rfl⟩ := Option.map_eq_some_iff.mp hmap
          rfl
      · have herror : newIntOf (some n) = .error .newIntFromBigInt := by
          show some <$> newIntFromBigInt n = _
          rw [newIntFromBigInt_error hfits]
          rfl
        rw [herror]
        exact iff_of_false (by rintro ⟨⟩) fun h => hfits (h.1 n rfl)

section transaction

variable [Keccak]

namespace TransactionArgs

/-- Source: `ToTransaction` -/
def toTransaction (args : TransactionArgs) : Except EncodeError UnsignedMsg := do
  let chainID ← newIntOf args.chainID
  let gasPrice ← newIntOf args.gasPrice
  let maxFeePerGas ← newIntOf args.maxFeePerGas
  let maxPriorityFeePerGas ← newIntOf args.maxPriorityFeePerGas
  let value ← newIntOf args.value
  let nonce := args.nonce.getD 0
  let gas := args.gas.getD 0
  let data : ProtoTxData :=
    match args.maxFeePerGas, args.accessList with
    | some _, accessList => .dynamicFee
      { chainID := chainID, nonce := nonce, gasTipCap := maxPriorityFeePerGas, gasFeeCap := maxFeePerGas,
        gasLimit := gas, toAddr := toText args.toAddr, amount := value, data := args.getData,
        accesses := some (newAccessList (accessList.getD [])), v := [], r := [], s := [] }
    | none, some accessList => .accessList
      { chainID := chainID, nonce := nonce, gasPrice := gasPrice, gasLimit := gas,
        toAddr := toText args.toAddr, amount := value, data := args.getData,
        accesses := some (newAccessList accessList), v := [], r := [], s := [] }
    | none, none => .legacy
      { nonce := nonce, gasPrice := gasPrice, gasLimit := gas, toAddr := toText args.toAddr, amount := value,
        data := args.getData, v := [], r := [], s := [] }
  pure ⟨data, toText args.sender⟩

/-- The transaction that the arguments describe, in integers without a bound. -/
def txData (args : TransactionArgs) : TxData :=
  match args.maxFeePerGas, args.accessList with
  | some feeCap, accessList => .dynamicFee
    { chainID := args.chainID, nonce := args.nonce.getD 0, gasTipCap := args.maxPriorityFeePerGas,
      gasFeeCap := some feeCap, gasLimit := args.gas.getD 0, toAddr := args.toAddr, amount := args.value,
      data := args.getData, accesses := some (accessList.getD []), v := [], r := [], s := [] }
  | none, some accessList => .accessList
    { chainID := args.chainID, nonce := args.nonce.getD 0, gasPrice := args.gasPrice,
      gasLimit := args.gas.getD 0, toAddr := args.toAddr, amount := args.value, data := args.getData,
      accesses := some accessList, v := [], r := [], s := [] }
  | none, none => .legacy
    { nonce := args.nonce.getD 0, gasPrice := args.gasPrice, gasLimit := args.gas.getD 0,
      toAddr := args.toAddr, amount := args.value, data := args.getData, v := [], r := [], s := [] }

/-- The integers that go through the SDK. -/
def ints (args : TransactionArgs) : List (Option ℤ) :=
  [args.chainID, args.gasPrice, args.maxFeePerGas, args.maxPriorityFeePerGas, args.value]

/-- They fit. -/
def IntsFit (args : TransactionArgs) : Prop := ∀ x ∈ args.ints, ∀ n, x = some n → FitsSdk n

/-- The numbers of arguments that become a transaction fit. -/
theorem intsFit_of_ok {args : TransactionArgs} {msg : UnsignedMsg} (h : args.toTransaction = .ok msg) :
    args.IntsFit := by
  obtain ⟨chainID, hchain, h⟩ := except_bind_ok.mp h
  obtain ⟨gasPrice, hprice, h⟩ := except_bind_ok.mp h
  obtain ⟨maxFee, hfee, h⟩ := except_bind_ok.mp h
  obtain ⟨maxTip, htip, h⟩ := except_bind_ok.mp h
  obtain ⟨value, hvalue, -⟩ := except_bind_ok.mp h
  simp only [IntsFit, ints, List.forall_mem_cons]
  exact ⟨(newIntOf_ok_iff.mp hchain).1, (newIntOf_ok_iff.mp hprice).1, (newIntOf_ok_iff.mp hfee).1,
    (newIntOf_ok_iff.mp htip).1, (newIntOf_ok_iff.mp hvalue).1, by simp⟩

/-- **The transaction is made** if the integers fit, and it is the one that is described. -/
theorem toTransaction_ok {args : TransactionArgs} (hfits : args.IntsFit) :
    ∃ msg, args.toTransaction = .ok msg ∧ msg.data.txData = args.txData := by
  have hconverts : ∀ x ∈ args.ints, ∃ y : Option SdkInt, newIntOf x = .ok y ∧ y.map SdkInt.toInt = x := by
    intro x hx
    cases x with
    | none => exact ⟨none, rfl, rfl⟩
    | some n =>
        refine ⟨some ⟨n, hfits _ hx n rfl⟩, newIntOf_ok_iff.mpr ⟨?_, rfl⟩, rfl⟩
        exact hfits _ hx
  simp only [ints, List.forall_mem_cons] at hconverts
  obtain ⟨⟨chainID, hchain, hchain'⟩, ⟨gasPrice, hprice, hprice'⟩, ⟨maxFee, hfee, hfee'⟩,
    ⟨maxTip, htip, htip'⟩, ⟨value, hvalue, hvalue'⟩, -⟩ := hconverts
  unfold toTransaction
  rw [hchain, hprice, hfee, htip, hvalue]
  refine ⟨_, rfl, ?_⟩
  unfold txData
  cases hcase : args.maxFeePerGas with
  | some feeCap =>
      rw [hcase] at hfee'
      simp [ProtoTxData.txData, hchain', hfee', htip', hvalue']
  | none =>
      cases hlist : args.accessList with
      | some accessList => simp [ProtoTxData.txData, hchain', hprice', hvalue']
      | none => simp [ProtoTxData.txData, hprice', hvalue']

/-! ## Both messages -/

/-- What `SetTxDefaults` leaves: nothing is missing, and the fees are of one style. -/
structure Completed (args : TransactionArgs) : Prop where
  nonce : args.nonce.isSome
  gas : args.gas.isSome
  value : args.value.isSome
  chainID : args.chainID.isSome
  fees : (args.gasPrice.isSome ∧ args.maxFeePerGas = none ∧ args.maxPriorityFeePerGas = none) ∨
    (args.gasPrice = none ∧ args.maxFeePerGas.isSome ∧ args.maxPriorityFeePerGas.isSome)

/-- A gas cap that is zero or large enough leaves the gas limit alone. -/
theorem messageGas_eq {args : TransactionArgs} (hgas : args.gas.isSome) {gasCap : UInt64}
    (hcap : gasCap = 0 ∨ args.gas.getD 0 ≤ gasCap) : args.messageGas gasCap = args.gas.getD 0 := by
  obtain ⟨gas, hsome⟩ := Option.isSome_iff_exists.mp hgas
  simp only [messageGas, hsome, Option.getD_some] at hcap ⊢
  rw [if_neg]
  rintro ⟨hne, hlt⟩
  rcases hcap with hzero | hle
  · exact hne hzero
  · exact absurd hle (UInt64.not_le.mpr hlt)

/-- **The simulated message** is the message of the transaction that is described. -/
theorem toMessage_eq {args : TransactionArgs} (hargs : args.Completed) {gasCap : UInt64}
    (hcap : gasCap = 0 ∨ args.gas.getD 0 ≤ gasCap) (baseFee : ℕ) :
    args.toMessage gasCap (some baseFee) = .ok (args.txData.asMessage args.getFrom (some baseFee)) := by
  have hgas := messageGas_eq hargs.gas hcap
  rcases hargs.fees with ⟨hprice, hfee, htip⟩ | ⟨hprice, hfee, htip⟩
  · -- One gas price, which the base fee does not change.
    obtain ⟨price, hsome⟩ := Option.isSome_iff_exists.mp hprice
    cases hlist : args.accessList with
    | some accessList =>
        simp [toMessage, messageFees, txData, TxData.asMessage, TxData.getTo, TxData.getNonce, TxData.getValue,
          TxData.getGas, TxData.getGasTipCap, TxData.getGasFeeCap, TxData.getData, TxData.getAccessList, hsome,
          hfee, htip, hlist, hgas]
    | none =>
        simp [toMessage, messageFees, txData, TxData.asMessage, TxData.getTo, TxData.getNonce, TxData.getValue,
          TxData.getGas, TxData.getGasTipCap, TxData.getGasFeeCap, TxData.getData, TxData.getAccessList, hsome,
          hfee, htip, hlist, hgas]
  · -- The effective gas price; zero fees are not filled in, which makes no difference.
    obtain ⟨feeCap, hcapSome⟩ := Option.isSome_iff_exists.mp hfee
    obtain ⟨tip, htipSome⟩ := Option.isSome_iff_exists.mp htip
    have hfilled : (if feeCap ≠ 0 ∨ tip ≠ 0 then min (tip + baseFee) feeCap else 0) =
        min (tip + baseFee) feeCap := by
      split_ifs with hzero
      · rfl
      · push Not at hzero
        obtain ⟨rfl, rfl⟩ := hzero
        exact (min_eq_right (by omega)).symm
    simp only [toMessage, messageFees, txData, TxData.asMessage, TxData.getTo, TxData.getNonce, TxData.getValue,
      TxData.getGas, TxData.getGasTipCap, TxData.getGasFeeCap, TxData.getData, TxData.getAccessList, hprice,
      hcapSome, htipSome, hgas, hfilled, Option.getD_some, Option.isSome_none, Bool.false_eq_true, false_and,
      if_false]

end TransactionArgs

end transaction

end Smartdoge.Evm
