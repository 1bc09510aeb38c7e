import Smartdoge.Types.Bytes
import Smartdoge.Types.Panic

/-!
# Ethereum transactions

`x/evm/types/legacy_tx.go`, `access_list_tx.go`, `dynamic_fee_tx.go`: the three transaction types
inside a `MsgEthereumTx`, with the fees each computes, and the `core.Message` that go-ethereum makes
of a transaction.

Integers that are pointers in Go are `Option ℤ` here. Arithmetic on a `nil` one panics, so the fee
functions return `Except Panic ℤ`. go-ethereum on the other hand copies a transaction and turns
`nil` into zero, so a `Message` has no `nil` in it.

* `gasPrice_of_static`: for the two types with a gas price, the message has that gas price, whatever
  the base fee.
* `gasPrice_effective`: where there is a base fee, the gas price of the message by transaction type.
-/

set_option linter.unusedSectionVars false

namespace Smartdoge.Evm

/-- Source: go-ethereum `types.AccessTuple` -/
abbrev AccessTuple := Address × List Hash

/-- Source: `legacy_tx.go` `LegacyTx` -/
structure LegacyTx where
  nonce : UInt64
  gasPrice : Option ℤ
  gasLimit : UInt64
  toAddr : Option Address
  amount : Option ℤ
  data : Bytes
  v : Bytes
  r : Bytes
  s : Bytes
deriving DecidableEq

/-- Source: `access_list_tx.go` `AccessListTx` -/
structure AccessListTx where
  chainID : Option ℤ
  nonce : UInt64
  gasPrice : Option ℤ
  gasLimit : UInt64
  toAddr : Option Address
  amount : Option ℤ
  data : Bytes
  accesses : Option (List AccessTuple)
  v : Bytes
  r : Bytes
  s : Bytes
deriving DecidableEq

/-- Source: `dynamic_fee_tx.go` `DynamicFeeTx` -/
structure DynamicFeeTx where
  chainID : Option ℤ
  nonce : UInt64
  gasTipCap : Option ℤ
  gasFeeCap : Option ℤ
  gasLimit : UInt64
  toAddr : Option Address
  amount : Option ℤ
  data : Bytes
  accesses : Option (List AccessTuple)
  v : Bytes
  r : Bytes
  s : Bytes
deriving DecidableEq

/-- Source: `tx_data.go` `TxData` and its three implementations -/
inductive TxData where
  | legacy (tx : LegacyTx)
  | accessList (tx : AccessListTx)
  | dynamicFee (tx : DynamicFeeTx)
deriving DecidableEq

/-- Source: go-ethereum `LegacyTxType`, `AccessListTxType`, `DynamicFeeTxType` -/
inductive TxType where
  | legacy
  | accessList
  | dynamicFee
deriving DecidableEq

/-- `gasPrice * gasLimit`; a `nil` price panics.
Source: `tx_data.go` `fee` -/
def fee (gasPrice : Option ℤ) (gas : UInt64) : Except Panic ℤ :=
  match gasPrice with
  | some gasPrice => .ok (gasPrice * gas.toNat)
  | none => .error .nilDereference

/-- Source: `tx_data.go` `cost` -/
def cost (fee : ℤ) (value : Option ℤ) : ℤ :=
  match value with
  | some value => fee + value
  | none => fee

/-- The cost is the fee and the value, where there is one. -/
theorem cost_eq (fee : ℤ) (value : Option ℤ) : cost fee value = fee + value.getD 0 := by
  cases value with
  | none => exact (add_zero fee).symm
  | some value => rfl

/-- Source: `dynamic_fee_tx.go` `GetEffectiveGasPrice` -/
def DynamicFeeTx.getEffectiveGasPrice (tx : DynamicFeeTx) (baseFee : Option ℕ) : Except Panic ℤ :=
  match tx.gasTipCap, baseFee, tx.gasFeeCap with
  | some tip, some baseFee, some feeCap => .ok (min (tip + baseFee) feeCap)
  | _, _, _ => .error .nilDereference

namespace TxData

/-! ## Getters -/

/-- Source: `TxType` -/
def txType : TxData → TxType
  | .legacy _ => .legacy
  | .accessList _ => .accessList
  | .dynamicFee _ => .dynamicFee

/-- Source: `GetAccessList` -/
def getAccessList : TxData → List AccessTuple
  | .legacy _ => []
  | .accessList tx => tx.accesses.getD []
  | .dynamicFee tx => tx.accesses.getD []

/-- Source: `GetData` -/
def getData : TxData → Bytes
  | .legacy tx => tx.data
  | .accessList tx => tx.data
  | .dynamicFee tx => tx.data

/-- Source: `GetNonce` -/
def getNonce : TxData → UInt64
  | .legacy tx => tx.nonce
  | .accessList tx => tx.nonce
  | .dynamicFee tx => tx.nonce

/-- Source: `GetGas` -/
def getGas : TxData → UInt64
  | .legacy tx => tx.gasLimit
  | .accessList tx => tx.gasLimit
  | .dynamicFee tx => tx.gasLimit

/-- Source: `GetGasPrice` -/
def getGasPrice : TxData → Option ℤ
  | .legacy tx => tx.gasPrice
  | .accessList tx => tx.gasPrice
  | .dynamicFee tx => tx.gasFeeCap

/-- Source: `GetGasTipCap` -/
def getGasTipCap : TxData → Option ℤ
  | .legacy tx => tx.gasPrice
  | .accessList tx => tx.gasPrice
  | .dynamicFee tx => tx.gasTipCap

/-- Source: `GetGasFeeCap` -/
def getGasFeeCap : TxData → Option ℤ
  | .legacy tx => tx.gasPrice
  | .accessList tx => tx.gasPrice
  | .dynamicFee tx => tx.gasFeeCap

/-- Source: `GetValue` -/
def getValue : TxData → Option ℤ
  | .legacy tx => tx.amount
  | .accessList tx => tx.amount
  | .dynamicFee tx => tx.amount

/-- Source: `GetTo` -/
def getTo : TxData → Option Address
  | .legacy tx => tx.toAddr
  | .accessList tx => tx.toAddr
  | .dynamicFee tx => tx.toAddr

/-! ## Fees -/

/-- Source: `Fee` -/
def fee (data : TxData) : Except Panic ℤ := Evm.fee data.getGasPrice data.getGas

/-- Source: `Cost` -/
def cost (data : TxData) : Except Panic ℤ := do
  let fee ← data.fee
  .ok (Evm.cost fee data.getValue)

/-- Source: `EffectiveFee` -/
def effectiveFee (data : TxData) (baseFee : Option ℕ) : Except Panic ℤ :=
  match data with
  | .dynamicFee tx => do
    let price ← tx.getEffectiveGasPrice baseFee
    Evm.fee (some price) tx.gasLimit
  | _ => data.fee

/-- Source: `EffectiveCost` -/
def effectiveCost (data : TxData) (baseFee : Option ℕ) : Except Panic ℤ :=
  match data with
  | .dynamicFee tx => do
    let fee ← (TxData.dynamicFee tx).effectiveFee baseFee
    .ok (Evm.cost fee tx.amount)
  | _ => data.cost

end TxData

/-! ## Messages -/

/-- Source: go-ethereum `types.Message` -/
structure Message where
  sender : Address
  toAddr : Option Address
  nonce : UInt64
  value : ℤ
  gas : UInt64
  gasPrice : ℤ
  gasFeeCap : ℤ
  gasTipCap : ℤ
  data : Bytes
  accessList : List AccessTuple
deriving DecidableEq

/-- The message of a transaction, with its effective gas price where there is a base fee.
Source: `msg.go` `AsTransaction`, then go-ethereum `Transaction.AsMessage` -/
def TxData.asMessage (data : TxData) (sender : Address) (baseFee : Option ℕ) : Message where
  sender := sender
  toAddr := data.getTo
  nonce := data.getNonce
  value := data.getValue.getD 0
  gas := data.getGas
  gasPrice :=
    match baseFee with
    | none => data.getGasPrice.getD 0
    | some baseFee => min (data.getGasTipCap.getD 0 + baseFee) (data.getGasFeeCap.getD 0)
  gasFeeCap := data.getGasFeeCap.getD 0
  gasTipCap := data.getGasTipCap.getD 0
  data := data.getData
  accessList := data.getAccessList

/-- A transaction with one gas price keeps it. -/
theorem gasPrice_of_static {data : TxData} (h : data.txType ≠ .dynamicFee) (sender : Address)
    (baseFee : Option ℕ) : (data.asMessage sender baseFee).gasPrice = data.getGasPrice.getD 0 := by
  have hmin : ∀ p : ℤ, ∀ b : ℕ, min (p + b) p = p := by
    intro p b
    exact min_eq_right (by omega)
  cases data with
  | legacy tx =>
      cases baseFee with
      | none => rfl
      | some b => exact hmin _ b
  | accessList tx =>
      cases baseFee with
      | none => rfl
      | some b => exact hmin _ b
  | dynamicFee tx => exact absurd rfl h

/-- What a unit of gas costs where there is a base fee: the gas price, or for a dynamic-fee transaction
the tip over the base fee, up to the fee cap. -/
def TxData.effectiveGasPrice (baseFee : ℕ) : TxData → ℤ
  | .legacy tx => tx.gasPrice.getD 0
  | .accessList tx => tx.gasPrice.getD 0
  | .dynamicFee tx => min (tx.gasTipCap.getD 0 + baseFee) (tx.gasFeeCap.getD 0)

/-- A message made with a base fee has the effective gas price. -/
theorem gasPrice_effective (data : TxData) (sender : Address) (baseFee : ℕ) :
    (data.asMessage sender (some baseFee)).gasPrice = data.effectiveGasPrice baseFee := by
  cases data with
  | legacy tx => exact gasPrice_of_static (by simp [TxData.txType]) sender _
  | accessList tx => exact gasPrice_of_static (by simp [TxData.txType]) sender _
  | dynamicFee tx => rfl

end Smartdoge.Evm
