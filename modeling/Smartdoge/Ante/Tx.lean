import Smartdoge.Evm.Fees

/-!
# Cosmos transactions

The transactions the ante handler sees. A message is an Ethereum transaction, a `MsgExec` of the authz
module with messages of its own, or any other message. Messages therefore form trees, of which
`GetMsgs` returns the roots.

`Sdk` is the code of the Cosmos SDK and of the other modules that the ante handlers call. It is
outside this repository.
-/

set_option linter.unusedSectionVars false

namespace Smartdoge.Ante

open Smartdoge.Lib
open Smartdoge.Evm

/-- Source: `x/evm/types/tx.pb.go` `MsgEthereumTx` -/
structure MsgEthereumTx where
  data : TxData
  /-- `From`, set by the ante handler; `none` is the empty string. -/
  sender : Option Address
  hash : String
deriving DecidableEq

/-- An `sdk.Msg`. -/
inductive Msg where
  | ethereumTx (msg : MsgEthereumTx)
  /-- `authz.MsgExec`. -/
  | exec (grantee : Address) (msgs : List Msg)
  | other (typeURL : String) (signers : List Address)

/-- An `sdk.Tx` with its body, `AuthInfo` and signatures. -/
structure CosmosTx where
  msgs : List Msg
  /-- The type URLs of `Body.ExtensionOptions`. -/
  extensionOptions : List String
  nonCriticalExtensionOptions : List String
  memo : String
  timeoutHeight : UInt64
  signerInfos : ℕ
  /-- `AuthInfo.Fee.Amount`. -/
  feeAmount : List (String × ℤ)
  /-- `AuthInfo.Fee.GasLimit`. -/
  gasLimit : UInt64
  payer : String
  granter : String
  signatures : ℕ

/-- Why an ante handler rejected a transaction. -/
inductive AnteError where
  /-- "invalid message type %T, expected %T". -/
  | unknownRequest
  /-- "eth tx is not replay-protected". -/
  | notProtected
  /-- "insufficient fees; got: %s required: %s". -/
  | insufficientFees
  /-- "provided fee < minimum global fee (%s < %s)". -/
  | belowMinimumGlobalFee
  /-- "tx basic validation failed". -/
  | basicValidation
  /-- "for eth tx body Memo TimeoutHeight NonCriticalExtensionOptions should be empty". -/
  | bodyNotEmpty
  /-- "for eth tx length of ExtensionOptions should be 1". -/
  | extensionOptions
  /-- `types.ErrCreateDisabled`. -/
  | createDisabled
  /-- `types.ErrCallDisabled`. -/
  | callDisabled
  /-- "dynamic fee tx not supported". -/
  | txTypeNotSupported
  /-- "for eth tx AuthInfo SignerInfos should be empty". -/
  | signerInfosNotEmpty
  /-- "for eth tx AuthInfo Fee payer and granter should be empty". -/
  | payerNotEmpty
  /-- "invalid AuthInfo Fee Amount (%s != %s)". -/
  | feeAmount
  /-- "invalid AuthInfo Fee GasLimit (%d != %d)". -/
  | feeGasLimit
  /-- "for eth tx Signatures should be empty". -/
  | signaturesNotEmpty
  /-- "couldn't retrieve sender address ('%s') from the ethereum transaction: %s". -/
  | invalidSigner
  /-- "from address cannot be empty". -/
  | invalidAddress
  /-- "the sender is not EOA: address %s, codeHash <%s>". -/
  | senderNotEOA
  /-- "failed to check sender balance". -/
  | senderBalance (err : FeeError)
  /-- "failed to create an ethereum core.Message from signer %T". -/
  | noCoreMessage
  /-- "failed to transfer %s from address %s using the EVM block context transfer function". -/
  | insufficientFunds
  /-- "base fee is supported but evm block context value is nil". -/
  | invalidBaseFee
  /-- "max fee per gas less than block base fee (%s < %s)". -/
  | feeCapBelowBaseFee
  /-- "failed to deduct transaction costs from user balance". -/
  | deductTxCosts (err : FeeError)
  /-- "account %s is nil". -/
  | unknownAddress
  /-- "invalid nonce; got %d, expected %d". -/
  | invalidSequence
  /-- "failed to set sequence to %d". -/
  | setSequence (err : Statedb.KeeperError)
  /-- "MsgEthereumTx needs to be contained within a tx with 'ExtensionOptionsEthereumTx' option". -/
  | needsExtensionOption
  /-- "rejecting tx with unsupported extension option: %s". -/
  | unknownExtensionOptions (typeURL : String)
  /-- A decorator of the SDK rejected the transaction. -/
  | sdk (reason : String)
  /-- The handler panicked, which `Recover` turns into an error. -/
  | panic (p : Panic)
deriving DecidableEq

/-- A step of an ante handler, over the stores. -/
abbrev AnteM := EStateM AnteError Store

/-- Code outside this repository that the ante handlers call. -/
structure Sdk where
  /-- Whether `tx.ValidateBasic()` returns `nil` or `ErrNoSignatures`. -/
  validateBasic : CosmosTx → Bool
  /-- The decorators of a Cosmos transaction after `RejectMessagesDecorator`. -/
  cosmosDecorators : Context → CosmosTx → Bool → AnteM PUnit
  /-- The same for a transaction with an EIP-712 signature. -/
  eip712Decorators : Context → CosmosTx → Bool → AnteM PUnit

/-- `msg.(*evmtypes.MsgEthereumTx)`, with the error the decorators return. -/
def Msg.asEthereumTx : Msg → Except AnteError MsgEthereumTx
  | .ethereumTx msg => .ok msg
  | _ => .error .unknownRequest

/-! ## Senders -/

/-- The messages an account sends. -/
def sentBy (a : Address) (eths : List MsgEthereumTx) : List MsgEthereumTx :=
  eths.filter fun eth => eth.sender = some a

/-- A message of the account comes first. -/
theorem sentBy_cons_self {a : Address} {eth : MsgEthereumTx} (h : eth.sender = some a)
    (eths : List MsgEthereumTx) : sentBy a (eth :: eths) = eth :: sentBy a eths := by
  simp [sentBy, h]

/-- A message of another account does not count. -/
theorem sentBy_cons_of_ne {a : Address} {eth : MsgEthereumTx} (h : eth.sender ≠ some a)
    (eths : List MsgEthereumTx) : sentBy a (eth :: eths) = sentBy a eths := by
  simp [sentBy, h]

/-! ## For concrete runs -/

/-- An SDK that lets every transaction through whose gas limit fits in an `int64`. -/
def sampleSdk : Sdk where
  validateBasic tx := tx.gasLimit.toNat < 2 ^ 63
  cosmosDecorators _ _ _ := pure ()
  eip712Decorators _ _ _ := pure ()

/-- The Cosmos transaction around Ethereum messages with the given sum of fees and gas limits.
Source: `x/evm/types/msg.go` `BuildTx` -/
def ethCosmosTx (txs : List TxData) (fee : ℕ) (gasLimit : UInt64) : CosmosTx where
  msgs := txs.map fun data => .ethereumTx ⟨data, none, ""⟩
  extensionOptions := ["/smartdoge.evm.v1.ExtensionOptionsEthereumTx"]
  nonCriticalExtensionOptions := []
  memo := ""
  timeoutHeight := 0
  signerInfos := 0
  feeAmount := [("asdoge", fee)]
  gasLimit := gasLimit
  payer := ""
  granter := ""
  signatures := 0

/-- A legacy transaction of 5 coins with a gas price of 9. -/
def legacyTx (nonce : UInt64) (dst : Option Address) : TxData :=
  .legacy ⟨nonce, some 9, 100000, dst, some 5, [], [], [], []⟩

/-- The stores before: the account `a` with sequence 3, and a fee collector that has been paid. -/
def beforeBatch [Keccak] (a : Address) : Store where
  accounts := (GoMap.empty.set a (.eth 3 emptyCodeHash)).set (sampleEnv.moduleAddress .feeCollector) (.module 0)
  balances := (GoMap.empty.set a 100).set (sampleEnv.moduleAddress .feeCollector) 1800000
  supply := 1800100
  kv := GoMap.empty
  transient := ⟨0, 0, 0, 0⟩

end Smartdoge.Ante
