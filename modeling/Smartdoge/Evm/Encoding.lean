import Mathlib.Data.Nat.Digits.Lemmas
import Smartdoge.Evm.TxData
import Smartdoge.Types.Text

/-!
# Encoding transactions

A transaction of go-ethereum is put into a `MsgEthereumTx` as one of three protobuf types, and taken out of
it again. In protobuf addresses and storage keys are text, signature values are big-endian bytes without
leading zeros, and integers are those of the SDK. `TxData` has what the getters read from this.

* `asMessage_newTx`: the transaction that is taken out has the message of the `TxData`.
* `newTx_newTxDataFromTx`: what was encoded is decoded.
* **`encoding_round_trips`**: for every transaction whose integers fit, and for every protobuf data.
-/

set_option linter.unusedSectionVars false

namespace Smartdoge.Evm

/-! ## Integers -/

/-- An integer of the SDK. Its constructor and its decoder refuse more than 256 bits.
Source: cosmos-sdk `types.Int` -/
@[ext] structure SdkInt where
  /-- `BigInt()`. -/
  toInt : ℤ
  bits : toInt.natAbs < 2 ^ 256
deriving DecidableEq

/-- What ends an encoding without a result. -/
inductive EncodeError where
  /-- "big int out of bound: %s". -/
  | outOfBound (x : ℤ)
  /-- The panic "NewIntFromBigInt() out of bound". -/
  | newIntFromBigInt
deriving DecidableEq

/-- Source: cosmos-sdk `types.NewIntFromBigInt` -/
def newIntFromBigInt (x : ℤ) : Except EncodeError SdkInt :=
  if h : x.natAbs < 2 ^ 256 then .ok ⟨x, h⟩ else .error .newIntFromBigInt

/-- Source: `types/utils.go` `IsValidInt256`, on an integer that is not `nil` -/
def isValidInt256 (x : ℤ) : Bool := x.natAbs < 2 ^ 256

/-- Source: `types/utils.go` `SafeNewIntFromBigInt` -/
def safeNewIntFromBigInt (x : ℤ) : Except EncodeError SdkInt :=
  if isValidInt256 x then newIntFromBigInt x else .error (.outOfBound x)

/-- A number of at most 256 bits is converted. -/
theorem newIntFromBigInt_ok {x : ℤ} (h : x.natAbs < 2 ^ 256) : newIntFromBigInt x = .ok ⟨x, h⟩ := dif_pos h

/-- The checked conversion returns the same number. -/
theorem safeNewIntFromBigInt_ok {x : ℤ} (h : x.natAbs < 2 ^ 256) : safeNewIntFromBigInt x = .ok ⟨x, h⟩ := by
  have hvalid : isValidInt256 x = true := decide_eq_true h
  unfold safeNewIntFromBigInt
  rw [if_pos hvalid]
  exact newIntFromBigInt_ok h

/-- `big.Int.Bytes()`: the bytes of the absolute value, the most significant first, and none for zero. -/
def bigBytes (x : ℤ) : Bytes := ((Nat.digits 256 x.natAbs).map UInt8.ofNat).reverse

/-- `big.Int.SetBytes(b)`. -/
def setBytes (b : Bytes) : ℤ := (Nat.ofDigits 256 (b.reverse.map UInt8.toNat) : ℕ)

/-- Bytes are read as a number that is not negative. -/
theorem setBytes_nonneg (b : Bytes) : 0 ≤ setBytes b := Int.natCast_nonneg _

/-- **An integer that is not negative is read back from its bytes.** -/
theorem setBytes_bigBytes {x : ℤ} (h : 0 ≤ x) : setBytes (bigBytes x) = x := by
  have hdigits : ((Nat.digits 256 x.natAbs).map UInt8.ofNat).map UInt8.toNat = Nat.digits 256 x.natAbs := by
    rw [List.map_map]
    conv_rhs => rw [← List.map_id (Nat.digits 256 x.natAbs)]
    refine List.map_congr_left ?_
    intro d hd
    exact UInt8.toNat_ofNat_of_lt' (Nat.digits_lt_base (by norm_num) hd)
  unfold setBytes bigBytes
  rw [List.reverse_reverse, hdigits, Nat.ofDigits_digits]
  exact Int.natAbs_of_nonneg h

/-- Source: `tx_data.go` `rawSignatureValues`, one of the values -/
def rawSignatureValue (b : Bytes) : Option ℤ := if b.length > 0 then some (setBytes b) else none

/-- A copy of a signature value, where `nil` becomes zero. -/
theorem rawSignatureValue_getD (b : Bytes) : (rawSignatureValue b).getD 0 = setBytes b := by
  unfold rawSignatureValue
  split_ifs with h
  · rfl
  · obtain rfl : b = [] := List.eq_nil_of_length_eq_zero (by omega)
    rfl

/-! ## Access lists -/

/-- Source: `types/evm.pb.go` `AccessTuple` -/
structure ProtoAccessTuple where
  address : String
  storageKeys : List String
deriving DecidableEq

section encoding

variable [Keccak]

/-- Source: `access_list.go` `NewAccessList` -/
def newAccessList (al : List AccessTuple) : List ProtoAccessTuple :=
  al.map fun tuple => ⟨addressHex tuple.1, tuple.2.map hashHex⟩

/-- Source: `access_list.go` `ToEthAccessList` -/
def toEthAccessList (al : List ProtoAccessTuple) : List AccessTuple :=
  al.map fun tuple => (hexToAddress tuple.address, tuple.storageKeys.map hexToHash)

/-- **An access list is read back.** -/
@[simp] theorem toEthAccessList_newAccessList (al : List AccessTuple) :
    toEthAccessList (newAccessList al) = al := by
  unfold toEthAccessList newAccessList
  rw [List.map_map]
  refine List.map_id'' ?_ al
  intro tuple
  have hkeys : (tuple.2.map hashHex).map hexToHash = tuple.2 := by
    rw [List.map_map]
    exact List.map_id'' hexToHash_hashHex tuple.2
  simp only [Function.comp_apply, hexToAddress_addressHex, hkeys]

/-- The slice is `nil` if it has no elements.
Source: `GetAccessList` -/
def getAccessListText (accesses : Option (List ProtoAccessTuple)) : Option (List AccessTuple) :=
  accesses.bind fun al =>
    match toEthAccessList al with
    | [] => none
    | tuple :: rest => some (tuple :: rest)

/-- A missing access list is read as an empty one, before or after the conversion. -/
theorem getAccessListText_getD (accesses : Option (List ProtoAccessTuple)) :
    (getAccessListText accesses).getD [] = (accesses.map toEthAccessList).getD [] := by
  cases accesses with
  | none => rfl
  | some al =>
      unfold getAccessListText
      simp only [Option.bind_some, Option.map_some, Option.getD_some]
      split
      · rename_i h
        exact h.symm
      · rename_i h
        exact h.symm

/-! ## Recipients -/

/-- The text of a recipient. -/
def toText (toAddr : Option Address) : String := (toAddr.map addressHex).getD ""

/-- Source: `GetTo` -/
def getToText (text : String) : Option Address := if text = "" then none else some (hexToAddress text)

/-- **A recipient is read back.** -/
@[simp] theorem getToText_toText (toAddr : Option Address) : getToText (toText toAddr) = toAddr := by
  cases toAddr with
  | none => rfl
  | some a =>
      have hne : addressHex a ≠ "" := by
        intro h
        have hlist := congrArg String.toList h
        rw [addressHex, String.toList_ofList] at hlist
        exact absurd hlist (by simp)
      show getToText (addressHex a) = some a
      unfold getToText
      rw [if_neg hne, hexToAddress_addressHex]

end encoding

/-! ## Transactions of go-ethereum

Before go-ethereum copies them, integers and access lists may be `nil`; the types are for both. -/

/-- Source: go-ethereum `types.LegacyTx` -/
structure EthLegacyTx (I : Type) where
  nonce : UInt64
  gasPrice : I
  gas : UInt64
  toAddr : Option Address
  value : I
  data : Bytes
  v : I
  r : I
  s : I
deriving DecidableEq

/-- Source: go-ethereum `types.AccessListTx` -/
structure EthAccessListTx (I : Type) where
  chainID : I
  nonce : UInt64
  gasPrice : I
  gas : UInt64
  toAddr : Option Address
  value : I
  data : Bytes
  accessList : Option (List AccessTuple)
  v : I
  r : I
  s : I
deriving DecidableEq

/-- Source: go-ethereum `types.DynamicFeeTx` -/
structure EthDynamicFeeTx (I : Type) where
  chainID : I
  nonce : UInt64
  gasTipCap : I
  gasFeeCap : I
  gas : UInt64
  toAddr : Option Address
  value : I
  data : Bytes
  accessList : Option (List AccessTuple)
  v : I
  r : I
  s : I
deriving DecidableEq

/-- Source: go-ethereum `types.TxData` -/
inductive EthTxData (I : Type) where
  | legacy (tx : EthLegacyTx I)
  | accessList (tx : EthAccessListTx I)
  | dynamicFee (tx : EthDynamicFeeTx I)
deriving DecidableEq

/-- The integers of a transaction are not `nil`.
Source: go-ethereum `types.Transaction` -/
abbrev Transaction := EthTxData ℤ

/-- The copy of the data, where a `nil` integer becomes zero and a `nil` access list an empty one.
Source: go-ethereum `types.NewTx`, and `copy` of the three types -/
def newTx : EthTxData (Option ℤ) → Transaction
  | .legacy tx => .legacy
    { nonce := tx.nonce, gasPrice := tx.gasPrice.getD 0, gas := tx.gas, toAddr := tx.toAddr,
      value := tx.value.getD 0, data := tx.data, v := tx.v.getD 0, r := tx.r.getD 0, s := tx.s.getD 0 }
  | .accessList tx => .accessList
    { chainID := tx.chainID.getD 0, nonce := tx.nonce, gasPrice := tx.gasPrice.getD 0, gas := tx.gas,
      toAddr := tx.toAddr, value := tx.value.getD 0, data := tx.data,
      accessList := some (tx.accessList.getD []), v := tx.v.getD 0, r := tx.r.getD 0, s := tx.s.getD 0 }
  | .dynamicFee tx => .dynamicFee
    { chainID := tx.chainID.getD 0, nonce := tx.nonce, gasTipCap := tx.gasTipCap.getD 0,
      gasFeeCap := tx.gasFeeCap.getD 0, gas := tx.gas, toAddr := tx.toAddr, value := tx.value.getD 0,
      data := tx.data, accessList := some (tx.accessList.getD []), v := tx.v.getD 0, r := tx.r.getD 0,
      s := tx.s.getD 0 }

namespace Transaction

/-- A `nil` access list is taken for an empty one; they are encoded and hashed alike. -/
def normal : Transaction → Transaction
  | .legacy tx => .legacy tx
  | .accessList tx => .accessList { tx with accessList := some (tx.accessList.getD []) }
  | .dynamicFee tx => .dynamicFee { tx with accessList := some (tx.accessList.getD []) }

/-- An integer that is not negative and has at most 256 bits. -/
def Fits (x : ℤ) : Prop := 0 ≤ x ∧ x < 2 ^ 256

/-- A number that fits into 256 bits can be converted. -/
theorem Fits.natAbs_lt {x : ℤ} (h : Fits x) : x.natAbs < 2 ^ 256 := by
  have hle := h.1
  have hlt := h.2
  omega

instance (x : ℤ) : Decidable (Fits x) := inferInstanceAs (Decidable (_ ∧ _))

/-- All integers of the transaction fit. -/
def InRange : Transaction → Prop
  | .legacy tx => Fits tx.gasPrice ∧ Fits tx.value ∧ Fits tx.v ∧ Fits tx.r ∧ Fits tx.s
  | .accessList tx =>
    Fits tx.chainID ∧ Fits tx.gasPrice ∧ Fits tx.value ∧ Fits tx.v ∧ Fits tx.r ∧ Fits tx.s
  | .dynamicFee tx =>
    Fits tx.chainID ∧ Fits tx.gasTipCap ∧ Fits tx.gasFeeCap ∧ Fits tx.value ∧ Fits tx.v ∧ Fits tx.r ∧ Fits tx.s

end Transaction

/-! ## Transactions in protobuf -/

/-- Source: `types/tx.pb.go` `LegacyTx` -/
structure ProtoLegacyTx where
  nonce : UInt64
  gasPrice : Option SdkInt
  gasLimit : UInt64
  toAddr : String
  amount : Option SdkInt
  data : Bytes
  v : Bytes
  r : Bytes
  s : Bytes
deriving DecidableEq

/-- Source: `types/tx.pb.go` `AccessListTx` -/
structure ProtoAccessListTx where
  chainID : Option SdkInt
  nonce : UInt64
  gasPrice : Option SdkInt
  gasLimit : UInt64
  toAddr : String
  amount : Option SdkInt
  data : Bytes
  accesses : Option (List ProtoAccessTuple)
  v : Bytes
  r : Bytes
  s : Bytes
deriving DecidableEq

/-- Source: `types/tx.pb.go` `DynamicFeeTx` -/
structure ProtoDynamicFeeTx where
  chainID : Option SdkInt
  nonce : UInt64
  gasTipCap : Option SdkInt
  gasFeeCap : Option SdkInt
  gasLimit : UInt64
  toAddr : String
  amount : Option SdkInt
  data : Bytes
  accesses : Option (List ProtoAccessTuple)
  v : Bytes
  r : Bytes
  s : Bytes
deriving DecidableEq

/-- Source: `tx_data.go` `TxData`, as it stands in a message -/
inductive ProtoTxData where
  | legacy (tx : ProtoLegacyTx)
  | accessList (tx : ProtoAccessListTx)
  | dynamicFee (tx : ProtoDynamicFeeTx)
deriving DecidableEq

section encoding

variable [Keccak]

/-- Source: `AsEthereumData` of the three types -/
def ProtoTxData.asEthereumData : ProtoTxData → EthTxData (Option ℤ)
  | .legacy tx => .legacy
    { nonce := tx.nonce, gasPrice := tx.gasPrice.map SdkInt.toInt, gas := tx.gasLimit,
      toAddr := getToText tx.toAddr, value := tx.amount.map SdkInt.toInt, data := tx.data,
      v := rawSignatureValue tx.v, r := rawSignatureValue tx.r, s := rawSignatureValue tx.s }
  | .accessList tx => .accessList
    { chainID := tx.chainID.map SdkInt.toInt, nonce := tx.nonce, gasPrice := tx.gasPrice.map SdkInt.toInt,
      gas := tx.gasLimit, toAddr := getToText tx.toAddr, value := tx.amount.map SdkInt.toInt, data := tx.data,
      accessList := getAccessListText tx.accesses,
      v := rawSignatureValue tx.v, r := rawSignatureValue tx.r, s := rawSignatureValue tx.s }
  | .dynamicFee tx => .dynamicFee
    { chainID := tx.chainID.map SdkInt.toInt, nonce := tx.nonce, gasTipCap := tx.gasTipCap.map SdkInt.toInt,
      gasFeeCap := tx.gasFeeCap.map SdkInt.toInt, gas := tx.gasLimit, toAddr := getToText tx.toAddr,
      value := tx.amount.map SdkInt.toInt, data := tx.data, accessList := getAccessListText tx.accesses,
      v := rawSignatureValue tx.v, r := rawSignatureValue tx.r, s := rawSignatureValue tx.s }

/-- Source: `msg.go` `AsTransaction` -/
def ProtoTxData.asTransaction (d : ProtoTxData) : Transaction := newTx d.asEthereumData

/-- The chain id of a legacy transaction is part of `v`, so that it is not set.
Source: `legacy_tx.go` `newLegacyTx`, `SetSignatureValues` -/
def newLegacyTx (tx : EthLegacyTx ℤ) : Except EncodeError ProtoLegacyTx := do
  let amount ← safeNewIntFromBigInt tx.value
  let gasPrice ← safeNewIntFromBigInt tx.gasPrice
  pure
    { nonce := tx.nonce, gasPrice := some gasPrice, gasLimit := tx.gas, toAddr := toText tx.toAddr,
      amount := some amount, data := tx.data, v := bigBytes tx.v, r := bigBytes tx.r, s := bigBytes tx.s }

/-- Source: `access_list_tx.go` `newAccessListTx`, `SetSignatureValues` -/
def newAccessListTx (tx : EthAccessListTx ℤ) : Except EncodeError ProtoAccessListTx := do
  let amount ← safeNewIntFromBigInt tx.value
  let gasPrice ← safeNewIntFromBigInt tx.gasPrice
  let chainID ← newIntFromBigInt tx.chainID
  pure
    { chainID := some chainID, nonce := tx.nonce, gasPrice := some gasPrice, gasLimit := tx.gas,
      toAddr := toText tx.toAddr, amount := some amount, data := tx.data,
      accesses := tx.accessList.map newAccessList,
      v := bigBytes tx.v, r := bigBytes tx.r, s := bigBytes tx.s }

/-- Source: `dynamic_fee_tx.go` `newDynamicFeeTx`, `SetSignatureValues` -/
def newDynamicFeeTx (tx : EthDynamicFeeTx ℤ) : Except EncodeError ProtoDynamicFeeTx := do
  let amount ← safeNewIntFromBigInt tx.value
  let gasFeeCap ← safeNewIntFromBigInt tx.gasFeeCap
  let gasTipCap ← safeNewIntFromBigInt tx.gasTipCap
  let chainID ← newIntFromBigInt tx.chainID
  pure
    { chainID := some chainID, nonce := tx.nonce, gasTipCap := some gasTipCap, gasFeeCap := some gasFeeCap,
      gasLimit := tx.gas, toAddr := toText tx.toAddr, amount := some amount, data := tx.data,
      accesses := tx.accessList.map newAccessList,
      v := bigBytes tx.v, r := bigBytes tx.r, s := bigBytes tx.s }

/-- Source: `tx_data.go` `NewTxDataFromTx` -/
def newTxDataFromTx : Transaction → Except EncodeError ProtoTxData
  | .dynamicFee tx => ProtoTxData.dynamicFee <$> newDynamicFeeTx tx
  | .accessList tx => ProtoTxData.accessList <$> newAccessListTx tx
  | .legacy tx => ProtoTxData.legacy <$> newLegacyTx tx

/-! ## Decoding what was encoded -/

/-- The integers of the transaction can be encoded: those of the SDK have at most 256 bits, and signature values
are not negative. -/
def Transaction.Encodes : Transaction → Prop
  | .legacy tx =>
    tx.gasPrice.natAbs < 2 ^ 256 ∧ tx.value.natAbs < 2 ^ 256 ∧ 0 ≤ tx.v ∧ 0 ≤ tx.r ∧ 0 ≤ tx.s
  | .accessList tx =>
    tx.chainID.natAbs < 2 ^ 256 ∧ tx.gasPrice.natAbs < 2 ^ 256 ∧ tx.value.natAbs < 2 ^ 256 ∧
      0 ≤ tx.v ∧ 0 ≤ tx.r ∧ 0 ≤ tx.s
  | .dynamicFee tx =>
    tx.chainID.natAbs < 2 ^ 256 ∧ tx.gasTipCap.natAbs < 2 ^ 256 ∧ tx.gasFeeCap.natAbs < 2 ^ 256 ∧
      tx.value.natAbs < 2 ^ 256 ∧ 0 ≤ tx.v ∧ 0 ≤ tx.r ∧ 0 ≤ tx.s

/-- A transaction whose numbers are in range can be encoded. -/
theorem Transaction.InRange.encodes {t : Transaction} (h : t.InRange) : t.Encodes := by
  cases t with
  | legacy tx =>
      obtain ⟨hprice, hvalue, hv, hr, hs⟩ := h
      exact ⟨hprice.natAbs_lt, hvalue.natAbs_lt, hv.1, hr.1, hs.1⟩
  | accessList tx =>
      obtain ⟨hchain, hprice, hvalue, hv, hr, hs⟩ := h
      exact ⟨hchain.natAbs_lt, hprice.natAbs_lt, hvalue.natAbs_lt, hv.1, hr.1, hs.1⟩
  | dynamicFee tx =>
      obtain ⟨hchain, htip, hcap, hvalue, hv, hr, hs⟩ := h
      exact ⟨hchain.natAbs_lt, htip.natAbs_lt, hcap.natAbs_lt, hvalue.natAbs_lt, hv.1, hr.1, hs.1⟩

/-- A signature value is read back. -/
theorem rawSignatureValue_bigBytes {x : ℤ} (h : 0 ≤ x) : (rawSignatureValue (bigBytes x)).getD 0 = x := by
  rw [rawSignatureValue_getD, setBytes_bigBytes h]

/-- An access list is read back, `nil` as an empty one. -/
theorem getAccessListText_newAccessList (accessList : Option (List AccessTuple)) :
    (getAccessListText (accessList.map newAccessList)).getD [] = accessList.getD [] := by
  rw [getAccessListText_getD]
  cases accessList with
  | none => rfl
  | some al => exact toEthAccessList_newAccessList al

/-- The legacy transaction that is built when the numbers are converted. -/
theorem newLegacyTx_ok {tx : EthLegacyTx ℤ} (hprice : tx.gasPrice.natAbs < 2 ^ 256)
    (hvalue : tx.value.natAbs < 2 ^ 256) :
    newLegacyTx tx = .ok
      { nonce := tx.nonce, gasPrice := some ⟨tx.gasPrice, hprice⟩, gasLimit := tx.gas,
        toAddr := toText tx.toAddr, amount := some ⟨tx.value, hvalue⟩, data := tx.data,
        v := bigBytes tx.v, r := bigBytes tx.r, s := bigBytes tx.s } := by
  unfold newLegacyTx
  rw [safeNewIntFromBigInt_ok hvalue, safeNewIntFromBigInt_ok hprice]
  rfl

/-- The same for a transaction with an access list. -/
theorem newAccessListTx_ok {tx : EthAccessListTx ℤ} (hchain : tx.chainID.natAbs < 2 ^ 256)
    (hprice : tx.gasPrice.natAbs < 2 ^ 256) (hvalue : tx.value.natAbs < 2 ^ 256) :
    newAccessListTx tx = .ok
      { chainID := some ⟨tx.chainID, hchain⟩, nonce := tx.nonce, gasPrice := some ⟨tx.gasPrice, hprice⟩,
        gasLimit := tx.gas, toAddr := toText tx.toAddr, amount := some ⟨tx.value, hvalue⟩, data := tx.data,
        accesses := tx.accessList.map newAccessList,
        v := bigBytes tx.v, r := bigBytes tx.r, s := bigBytes tx.s } := by
  unfold newAccessListTx
  rw [safeNewIntFromBigInt_ok hvalue, safeNewIntFromBigInt_ok hprice, newIntFromBigInt_ok hchain]
  rfl

/-- The same for a transaction with a dynamic fee. -/
theorem newDynamicFeeTx_ok {tx : EthDynamicFeeTx ℤ} (hchain : tx.chainID.natAbs < 2 ^ 256)
    (htip : tx.gasTipCap.natAbs < 2 ^ 256) (hcap : tx.gasFeeCap.natAbs < 2 ^ 256)
    (hvalue : tx.value.natAbs < 2 ^ 256) :
    newDynamicFeeTx tx = .ok
      { chainID := some ⟨tx.chainID, hchain⟩, nonce := tx.nonce, gasTipCap := some ⟨tx.gasTipCap, htip⟩,
        gasFeeCap := some ⟨tx.gasFeeCap, hcap⟩, gasLimit := tx.gas, toAddr := toText tx.toAddr,
        amount := some ⟨tx.value, hvalue⟩, data := tx.data, accesses := tx.accessList.map newAccessList,
        v := bigBytes tx.v, r := bigBytes tx.r, s := bigBytes tx.s } := by
  unfold newDynamicFeeTx
  rw [safeNewIntFromBigInt_ok hvalue, safeNewIntFromBigInt_ok hcap, safeNewIntFromBigInt_ok htip,
    newIntFromBigInt_ok hchain]
  rfl

/-- **What was encoded is decoded.** -/
theorem newTx_newTxDataFromTx {t : Transaction} (h : t.Encodes) :
    ∃ d, newTxDataFromTx t = .ok d ∧ d.asTransaction = t.normal := by
  cases t with
  | legacy tx =>
      obtain ⟨hprice, hvalue, hv, hr, hs⟩ := h
      refine ⟨_, congrArg (ProtoTxData.legacy <$> ·) (newLegacyTx_ok hprice hvalue), ?_⟩
      simp [ProtoTxData.asTransaction, ProtoTxData.asEthereumData, newTx, Transaction.normal,
        rawSignatureValue_bigBytes hv, rawSignatureValue_bigBytes hr, rawSignatureValue_bigBytes hs]
  | accessList tx =>
      obtain ⟨hchain, hprice, hvalue, hv, hr, hs⟩ := h
      refine ⟨_, congrArg (ProtoTxData.accessList <$> ·) (newAccessListTx_ok hchain hprice hvalue), ?_⟩
      simp [ProtoTxData.asTransaction, ProtoTxData.asEthereumData, newTx, Transaction.normal,
        getAccessListText_newAccessList, rawSignatureValue_bigBytes hv, rawSignatureValue_bigBytes hr,
        rawSignatureValue_bigBytes hs]
  | dynamicFee tx =>
      obtain ⟨hchain, htip, hcap, hvalue, hv, hr, hs⟩ := h
      refine ⟨_, congrArg (ProtoTxData.dynamicFee <$> ·) (newDynamicFeeTx_ok hchain htip hcap hvalue), ?_⟩
      simp [ProtoTxData.asTransaction, ProtoTxData.asEthereumData, newTx, Transaction.normal,
        getAccessListText_newAccessList, rawSignatureValue_bigBytes hv, rawSignatureValue_bigBytes hr,
        rawSignatureValue_bigBytes hs]

/-! ## Transactions that were taken out -/

/-- An `sdk.Int` has at most 256 bits, and a missing one counts as zero. -/
theorem sdkInt_natAbs_lt (x : Option SdkInt) : ((x.map SdkInt.toInt).getD 0).natAbs < 2 ^ 256 := by
  cases x with
  | none => exact Nat.two_pow_pos 256
  | some x => exact x.bits

/-- The values of a signature are not negative. -/
theorem rawSignatureValue_nonneg (b : Bytes) : 0 ≤ (rawSignatureValue b).getD 0 := by
  rw [rawSignatureValue_getD]
  exact setBytes_nonneg b

/-- A transaction that was taken out of a message can be encoded. -/
theorem asTransaction_encodes (d : ProtoTxData) : d.asTransaction.Encodes := by
  cases d with
  | legacy tx =>
      exact ⟨sdkInt_natAbs_lt _, sdkInt_natAbs_lt _, rawSignatureValue_nonneg _, rawSignatureValue_nonneg _,
        rawSignatureValue_nonneg _⟩
  | accessList tx =>
      exact ⟨sdkInt_natAbs_lt _, sdkInt_natAbs_lt _, sdkInt_natAbs_lt _, rawSignatureValue_nonneg _,
        rawSignatureValue_nonneg _, rawSignatureValue_nonneg _⟩
  | dynamicFee tx =>
      exact ⟨sdkInt_natAbs_lt _, sdkInt_natAbs_lt _, sdkInt_natAbs_lt _, sdkInt_natAbs_lt _,
        rawSignatureValue_nonneg _, rawSignatureValue_nonneg _, rawSignatureValue_nonneg _⟩

/-- Its access list is not `nil`. -/
theorem asTransaction_normal (d : ProtoTxData) : d.asTransaction.normal = d.asTransaction := by
  cases d <;> rfl

/-! ## Messages -/

/-- What the getters read. -/
def ProtoTxData.txData : ProtoTxData → TxData
  | .legacy tx => .legacy
    { nonce := tx.nonce, gasPrice := tx.gasPrice.map SdkInt.toInt, gasLimit := tx.gasLimit,
      toAddr := getToText tx.toAddr, amount := tx.amount.map SdkInt.toInt, data := tx.data,
      v := tx.v, r := tx.r, s := tx.s }
  | .accessList tx => .accessList
    { chainID := tx.chainID.map SdkInt.toInt, nonce := tx.nonce, gasPrice := tx.gasPrice.map SdkInt.toInt,
      gasLimit := tx.gasLimit, toAddr := getToText tx.toAddr, amount := tx.amount.map SdkInt.toInt,
      data := tx.data, accesses := tx.accesses.map toEthAccessList, v := tx.v, r := tx.r, s := tx.s }
  | .dynamicFee tx => .dynamicFee
    { chainID := tx.chainID.map SdkInt.toInt, nonce := tx.nonce, gasTipCap := tx.gasTipCap.map SdkInt.toInt,
      gasFeeCap := tx.gasFeeCap.map SdkInt.toInt, gasLimit := tx.gasLimit, toAddr := getToText tx.toAddr,
      amount := tx.amount.map SdkInt.toInt, data := tx.data, accesses := tx.accesses.map toEthAccessList,
      v := tx.v, r := tx.r, s := tx.s }

/-- Source: go-ethereum `Transaction.AsMessage` -/
def Transaction.asMessage (sender : Address) (baseFee : Option ℕ) : Transaction → Message
  | .legacy tx =>
    message tx.toAddr tx.nonce tx.value tx.gas tx.gasPrice tx.gasPrice tx.gasPrice tx.data []
  | .accessList tx =>
    message tx.toAddr tx.nonce tx.value tx.gas tx.gasPrice tx.gasPrice tx.gasPrice tx.data (tx.accessList.getD [])
  | .dynamicFee tx =>
    message tx.toAddr tx.nonce tx.value tx.gas tx.gasFeeCap tx.gasFeeCap tx.gasTipCap tx.data
      (tx.accessList.getD [])
where
  message (toAddr : Option Address) (nonce : UInt64) (value : ℤ) (gas : UInt64) (gasPrice gasFeeCap gasTipCap : ℤ)
      (data : Bytes) (accessList : List AccessTuple) : Message :=
    { sender := sender, toAddr := toAddr, nonce := nonce, value := value, gas := gas
      gasPrice := match baseFee with
        | none => gasPrice
        | some baseFee => min (gasTipCap + baseFee) gasFeeCap
      gasFeeCap := gasFeeCap, gasTipCap := gasTipCap, data := data, accessList := accessList }

/-- **The transaction that is taken out of a message has the message of the getters.** -/
theorem asMessage_newTx (d : ProtoTxData) (sender : Address) (baseFee : Option ℕ) :
    d.asTransaction.asMessage sender baseFee = d.txData.asMessage sender baseFee := by
  cases d with
  | legacy tx => rfl
  | accessList tx =>
      have hlist := getAccessListText_getD tx.accesses
      simp only [ProtoTxData.asTransaction, ProtoTxData.asEthereumData, newTx, Transaction.asMessage,
        Transaction.asMessage.message, Option.getD_some, hlist]
      rfl
  | dynamicFee tx =>
      have hlist := getAccessListText_getD tx.accesses
      simp only [ProtoTxData.asTransaction, ProtoTxData.asEthereumData, newTx, Transaction.asMessage,
        Transaction.asMessage.message, Option.getD_some, hlist]
      rfl

/-! ## Round trips -/

/-- The hash of a transaction and the hash that is signed, by code outside this repository. They are of an
encoding in which a `nil` access list is an empty one. -/
structure TxHashing where
  hash : Transaction → Hash
  signingHash : Transaction → Hash
  hash_normal : ∀ t : Transaction, hash t.normal = hash t
  signingHash_normal : ∀ t : Transaction, signingHash t.normal = signingHash t

/-- The fields of a `MsgEthereumTx` that are set from a transaction. -/
structure EncodedMsg where
  data : ProtoTxData
  hash : String
deriving DecidableEq

/-- Source: `msg.go` `FromEthereumTx` -/
def fromEthereumTx (hashing : TxHashing) (tx : Transaction) : Except EncodeError EncodedMsg := do
  let data ← newTxDataFromTx tx
  pure ⟨data, hashHex (hashing.hash tx)⟩

/-- **The encoding of transactions round-trips.** A transaction whose integers fit is encoded, and what is
decoded has the same type and fields, with a `nil` access list taken for an empty one, and the same hashes.
Data in protobuf, whether or not `Validate` accepts it, has a transaction that is encoded in a canonical form;
the canonical form has the same transaction, and is its own canonical form. -/
theorem encoding_round_trips (hashing : TxHashing) :
    (∀ t : Transaction, t.InRange → ∃ msg, fromEthereumTx hashing t = .ok msg ∧
      msg.data.asTransaction = t.normal ∧
      hashing.hash msg.data.asTransaction = hashing.hash t ∧
      hashing.signingHash msg.data.asTransaction = hashing.signingHash t ∧
      msg.hash = hashHex (hashing.hash msg.data.asTransaction)) ∧
    ∀ d : ProtoTxData, ∃ c, newTxDataFromTx d.asTransaction = .ok c ∧ c.asTransaction = d.asTransaction ∧
      newTxDataFromTx c.asTransaction = .ok c := by
  constructor
  · intro t hrange
    obtain ⟨d, hencode, hdecode⟩ := newTx_newTxDataFromTx hrange.encodes
    refine ⟨⟨d, hashHex (hashing.hash t)⟩, ?_, hdecode, ?_, ?_, ?_⟩
    · unfold fromEthereumTx
      rw [hencode]
      rfl
    · rw [hdecode, hashing.hash_normal]
    · rw [hdecode, hashing.signingHash_normal]
    · rw [hdecode, hashing.hash_normal]
  · intro d
    obtain ⟨c, hencode, hdecode⟩ := newTx_newTxDataFromTx (asTransaction_encodes d)
    rw [asTransaction_normal] at hdecode
    exact ⟨c, hencode, hdecode, by rw [hdecode]; exact hencode⟩

end encoding

/-- An encoding of the fields of a transaction, for concrete runs. -/
def sampleHashing : TxHashing where
  hash t :=
    match t.normal with
    | .legacy tx => .ofNat 32 tx.nonce.toNat
    | .accessList tx => .ofNat 32 (1000 + tx.nonce.toNat + (tx.accessList.getD []).length)
    | .dynamicFee tx => .ofNat 32 (2000 + tx.nonce.toNat + (tx.accessList.getD []).length)
  signingHash _ := .zero 32
  hash_normal t := by cases t <;> rfl
  signingHash_normal _ := rfl

/-- A signed transaction with a fee cap of 256 bits, an access list and no recipient; and data with a text of an
address that is not in the case of EIP-55, no amount, and a signature value with a leading zero. -/
theorem encoding_round_trips_signed :
    letI := sampleKeccak
    let t : Transaction := .dynamicFee
      { chainID := 9000, nonce := 7, gasTipCap := 2, gasFeeCap := 2 ^ 256 - 1, gas := 21000, toAddr := none,
        value := 0, data := [1, 0], accessList := some [(.ofNat 20 5, [.ofNat 32 6])], v := 1, r := 256, s := 0 }
    let d : ProtoTxData := .legacy
      ⟨3, some ⟨9, by decide⟩, 21000, "00000000000000000000000000000000000000AB", none, [], [0, 27], [1], [2]⟩
    (∃ msg, fromEthereumTx sampleHashing t = .ok msg ∧ msg.data.asTransaction = t ∧
      msg.hash = hashHex (sampleHashing.hash t)) ∧
    ∃ c, newTxDataFromTx d.asTransaction = .ok c ∧ c ≠ d ∧ c.asTransaction = d.asTransaction := by
  let _ := sampleKeccak
  intro t d
  have hrange : t.InRange := by
    refine ⟨?_, ?_, ?_, ?_, ?_, ?_, ?_⟩ <;> decide +kernel
  obtain ⟨hencodes, hcanonical⟩ := encoding_round_trips sampleHashing
  obtain ⟨msg, hmsg, hdecode, hhash, -, htext⟩ := hencodes t hrange
  obtain ⟨c, hc, hsame, -⟩ := hcanonical d
  refine ⟨⟨msg, hmsg, hdecode, by rw [htext, hhash]⟩, c, hc, ?_, hsame⟩
  -- The canonical form has an amount.
  rintro rfl
  have hne : newTxDataFromTx d.asTransaction ≠ .ok d := by decide +kernel
  exact hne hc

end Smartdoge.Evm
