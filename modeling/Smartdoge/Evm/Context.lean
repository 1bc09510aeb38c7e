import Smartdoge.Evm.Bank
import Smartdoge.Evm.TxData
import Smartdoge.Statedb.StateDB
import Smartdoge.Types.Dec

/-!
# Parameters, contexts and the code around the module

What a transaction runs under. `Context` is an `sdk.Context` without its stores, together with the
parameters that stay fixed while a transaction runs: those of the EVM module, and those of the fee
market, which is code outside this repository and answers with the values given here.

`Geth` is go-ethereum as far as the keeper calls it. The virtual machine is a function from
everything it can see to a `VmOutcome`: the calls it makes on the `StateDB`, in their order, and what
it returns. Any deterministic execution is of this form.

`App` is what is fixed when the application is put together: the environment of the SDK, go-ethereum
and the hooks.
-/

set_option linter.unusedSectionVars false

namespace Smartdoge.Evm

open Smartdoge.Statedb (StateDB Op Log)

/-! ## Parameters -/

/-- The forks the modelled code asks for.
Source: `types/chain_config.go` `ChainConfig` -/
structure ChainConfig where
  homesteadBlock : Option ℤ
  istanbulBlock : Option ℤ
  berlinBlock : Option ℤ
  londonBlock : Option ℤ
deriving DecidableEq

/-- Source: `types/chain_config.go` `getBlockValue` -/
def getBlockValue : Option ℤ → Option ℤ
  | none => none
  | some block => if block < 0 then none else some block

/-- Source: go-ethereum `isForked` -/
def isForked (s : Option ℤ) (head : ℤ) : Bool :=
  match s with
  | none => false
  | some s => s ≤ head

/-- Source: `types/params.go` `Params` -/
structure Params where
  evmDenom : String
  enableCreate : Bool
  enableCall : Bool
  chainConfig : ChainConfig
  rejectUnprotectedTx : Bool
deriving DecidableEq

/-- Source: `x/feemarket` `Params` -/
structure FeeMarketParams where
  noBaseFee : Bool
  enableHeight : ℤ
  minGasPrice : Dec
  minGasMultiplier : Dec
deriving DecidableEq

/-- Source: `x/feemarket` `Params.IsBaseFeeEnabled` -/
def FeeMarketParams.isBaseFeeEnabled (p : FeeMarketParams) (height : ℤ) : Bool :=
  !p.noBaseFee && p.enableHeight ≤ height

/-! ## Contexts -/

/-- An `sdk.Context` without its stores. -/
structure Context where
  blockHeight : ℤ
  headerHash : Bytes
  isCheckTx : Bool
  isReCheckTx : Bool
  /-- The gas that the SDK has metered when the gas pool is checked. -/
  meteredGas : UInt64
  /-- The limit of the block gas meter, where there is one. -/
  blockGasMeter : Option UInt64
  /-- `ConsensusParams().Block.MaxGas`, where it is set. -/
  maxGas : Option ℤ
  /-- `MinGasPrices().AmountOf(evmDenom)`. -/
  minGasPrice : Dec
  /-- The operator of the block proposer, if the proposer is a validator.
  Source: `state_transition.go` `GetCoinbaseAddress` -/
  coinbase : Option Address
  /-- `GetParams(ctx)`. -/
  params : Params
  /-- `feeMarketKeeper.GetParams(ctx)`. -/
  feeMarketParams : FeeMarketParams
  /-- `feeMarketKeeper.GetBaseFee(ctx)`; `none` is `nil`. -/
  feeMarketBaseFee : Option ℕ
deriving DecidableEq

namespace Context

/-- `ethCfg.IsHomestead(blockHeight)`. -/
def isHomestead (ctx : Context) : Bool :=
  isForked (getBlockValue ctx.params.chainConfig.homesteadBlock) ctx.blockHeight

/-- `ethCfg.IsIstanbul(blockHeight)`. -/
def isIstanbul (ctx : Context) : Bool :=
  isForked (getBlockValue ctx.params.chainConfig.istanbulBlock) ctx.blockHeight

/-- `ethCfg.Rules(blockHeight, ..).IsBerlin`. -/
def isBerlin (ctx : Context) : Bool :=
  isForked (getBlockValue ctx.params.chainConfig.berlinBlock) ctx.blockHeight

/-- Source: `types/params.go` `IsLondon` -/
def isLondon (ctx : Context) : Bool :=
  isForked (getBlockValue ctx.params.chainConfig.londonBlock) ctx.blockHeight

/-- `feeMktParams.IsBaseFeeEnabled(ctx.BlockHeight())`. -/
def isBaseFeeEnabled (ctx : Context) : Bool := ctx.feeMarketParams.isBaseFeeEnabled ctx.blockHeight

/-- `nil` before the London fork; zero where the fee market has no base fee.
Source: `keeper.go` `GetBaseFee` -/
def getBaseFee (ctx : Context) : Option ℕ :=
  if ctx.isLondon then some (ctx.feeMarketBaseFee.getD 0) else none

/-- Source: `types/block.go` `BlockGasLimit` -/
def blockGasLimit (ctx : Context) : UInt64 :=
  let fromConsensus : UInt64 :=
    match ctx.maxGas with
    | none => 0
    | some maxGas => if 0 < maxGas then .ofNat maxGas.toNat else 0
  match ctx.blockGasMeter with
  | none => fromConsensus
  | some limit => if limit ≠ 0 then limit else fromConsensus

end Context

/-! ## go-ethereum -/

/-- What an execution of the virtual machine did and returned. -/
structure VmOutcome where
  /-- The calls it made on the `StateDB`. -/
  ops : List Op
  ret : Bytes
  leftoverGas : UInt64
  /-- The text of the error, if there is one. -/
  vmErr : Option String

/-- The functions of go-ethereum that the modelled code calls. -/
structure Geth where
  /-- `Transaction.Hash()`. -/
  txHash : TxData → Hash
  /-- `Transaction.Protected()`. -/
  isProtected : TxData → Bool
  /-- `signer.Sender(tx)`, with the signer `MakeSigner` gives for the block; `none` is an error. -/
  sender : Context → TxData → Option Address
  /-- `core.IntrinsicGas(data, accessList, isContractCreation, homestead, istanbul)`; `none` is an
  error. -/
  intrinsicGas : Bytes → List AccessTuple → Bool → Bool → Bool → Option UInt64
  /-- `vm.ActivePrecompiles(rules)`. -/
  activePrecompiles : Context → List Address
  /-- `crypto.CreateAddress`. -/
  createAddress : Address → UInt64 → Address
  /-- `types.LogsBloom`, as a number. -/
  logsBloom : List Log → ℕ
  /-- `evm.Create(sender, data, gas, value)`. -/
  create : Context → Message → UInt64 → StateDB Store → VmOutcome
  /-- `evm.Call(sender, to, data, gas, value)`. -/
  call : Context → Message → UInt64 → StateDB Store → VmOutcome

/-! ## Hooks -/

/-- Source: go-ethereum `types.Receipt` -/
structure Receipt where
  type : TxType
  cumulativeGasUsed : UInt64
  bloom : ℕ
  logs : List Log
  txHash : Hash
  contractAddress : Address
  gasUsed : UInt64
  blockHash : Hash
  blockNumber : ℤ
  transactionIndex : ℕ
  /-- `ReceiptStatusSuccessful`. -/
  successful : Bool
deriving DecidableEq

/-- A hook may write to the stores and to the receipt, which it is given as a pointer, and may fail
after it did.
Source: `types/interfaces.go` `EvmHooks` -/
abbrev Hook := Message → EStateM String (Store × Receipt) PUnit

/-- Source: `hooks.go` `MultiEvmHooks.PostTxProcessing` -/
def multiPostTxProcessing (hooks : List Hook) (msg : Message) :
    EStateM String (Store × Receipt) PUnit :=
  hooks.forM fun hook => hook msg

/-- What is fixed when the application is put together. -/
structure App where
  env : Env
  geth : Geth
  /-- `cumulativeGasUsed` of a receipt, from the gas used. The code adds what the block gas meter has
  consumed and caps the sum in `float64` arithmetic, which is not modelled. -/
  cumulativeGasUsed : Context → UInt64 → UInt64
  /-- The registered hooks; `none` is `nil`. -/
  hooks : Option (List Hook)
  /-- `options.MaxTxGasWanted`. -/
  maxTxGasWanted : UInt64

/-! ## For concrete runs -/

/-- A block at which all forks are active and the base fee is 7. Half of the gas limit is always
charged. -/
def sampleContext : Context where
  blockHeight := 10
  headerHash := []
  isCheckTx := false
  isReCheckTx := false
  meteredGas := 0
  blockGasMeter := none
  maxGas := none
  minGasPrice := ⟨0⟩
  coinbase := some (.ofNat 20 50)
  params := ⟨"asdoge", true, true, ⟨some 0, some 0, some 0, some 0⟩, true⟩
  feeMarketParams := ⟨false, 0, ⟨0⟩, ⟨5 * 10 ^ 17⟩⟩
  feeMarketBaseFee := some 7

/-- Source: go-ethereum `core.IntrinsicGas` -/
def sampleIntrinsicGas (data : Bytes) (accessList : List AccessTuple)
    (isContractCreation homestead istanbul : Bool) : Option UInt64 :=
  let base := if isContractCreation && homestead then 53000 else 21000
  let perByte (byte : UInt8) := if byte = 0 then 4 else if istanbul then 16 else 68
  let gas := base + (data.map perByte).sum +
    (accessList.map fun tuple => 2400 + 1900 * tuple.2.length).sum
  if gas < 2 ^ 64 then some (.ofNat gas) else none

/-- `evm.Call` of an account without code: a transfer. -/
def transferCall (msg : Message) (gas : UInt64) (_ : StateDB Store) : VmOutcome where
  ops :=
    match msg.toAddr with
    | none => []
    | some dst => [.getBalance msg.sender, .snapshot, .exist dst, .subBalance msg.sender msg.value,
        .addBalance dst msg.value, .getCode dst]
  ret := []
  leftoverGas := gas
  vmErr := none

/-- go-ethereum with one account that signs, and a given virtual machine. -/
def sampleGeth (sender : Address) (create call : Message → UInt64 → StateDB Store → VmOutcome) :
    Geth where
  txHash _ := .zero 32
  isProtected _ := true
  sender _ _ := some sender
  intrinsicGas := sampleIntrinsicGas
  activePrecompiles _ := (List.range 9).map fun i => .ofNat 20 (i + 1)
  createAddress _ nonce := .ofNat 20 (1000 + nonce.toNat)
  logsBloom _ := 0
  create _ := create
  call _ := call

/-- An application without hooks around a virtual machine. -/
def sampleApp (sender : Address) (create call : Message → UInt64 → StateDB Store → VmOutcome) :
    App where
  env := sampleEnv
  geth := sampleGeth sender create call
  cumulativeGasUsed _ gasUsed := gasUsed
  hooks := none
  maxTxGasWanted := 0

end Smartdoge.Evm
