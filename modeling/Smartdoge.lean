import Smartdoge.Lib.Bloom
import Smartdoge.Lib.GoMap
import Smartdoge.Lib.Loop
import Smartdoge.Lib.Quantile
import Smartdoge.Lib.Runs
import Smartdoge.Lib.Search
import Smartdoge.Lib.Timer
import Smartdoge.Lib.UndoLog
import Smartdoge.Lib.Writes
import Smartdoge.Types.Bytes
import Smartdoge.Types.Dec
import Smartdoge.Types.GasMeter
import Smartdoge.Types.GasAccounting
import Smartdoge.Types.Int64
import Smartdoge.Types.Panic
import Smartdoge.Types.Text
import Smartdoge.Statedb.StateObject
import Smartdoge.Statedb.AccessList
import Smartdoge.Statedb.StateDB
import Smartdoge.Statedb.Lawful
import Smartdoge.Statedb.View
import Smartdoge.Statedb.Steps
import Smartdoge.Statedb.Snapshot
import Smartdoge.Statedb.Commit
import Smartdoge.Statedb.Revisions
import Smartdoge.Statedb.Heads
import Smartdoge.Statedb.Balances
import Smartdoge.Statedb.Quiet
import Smartdoge.Statedb.AccessSets
import Smartdoge.Statedb.Logs
import Smartdoge.Statedb.Persist
import Smartdoge.Statedb.Recreate
import Smartdoge.Statedb.Restamp
import Smartdoge.Evm.Bank
import Smartdoge.Evm.TxData
import Smartdoge.Evm.Context
import Smartdoge.Evm.Keeper
import Smartdoge.Evm.Slots
import Smartdoge.Evm.Genesis
import Smartdoge.Evm.GenesisValidate
import Smartdoge.Evm.Cleared
import Smartdoge.Evm.StateTransition
import Smartdoge.Evm.GasUsed
import Smartdoge.Evm.Fees
import Smartdoge.Evm.Events
import Smartdoge.Evm.CommitLedger
import Smartdoge.Evm.FailedTx
import Smartdoge.Evm.Logs
import Smartdoge.Evm.GasTotals
import Smartdoge.Evm.Block
import Smartdoge.Evm.Nonces
import Smartdoge.Evm.Collector
import Smartdoge.Evm.Settlement
import Smartdoge.Evm.Accounts
import Smartdoge.Evm.CommittedCode
import Smartdoge.Evm.BinSearch
import Smartdoge.Evm.EstimateGas
import Smartdoge.Evm.Encoding
import Smartdoge.Evm.Oversized
import Smartdoge.Evm.TxArgs
import Smartdoge.Evm.Trace
import Smartdoge.Evm.TraceAgreement
import Smartdoge.Evm.TraceErrors
import Smartdoge.Evm.Validate
import Smartdoge.Ante.Tx
import Smartdoge.Ante.Eth
import Smartdoge.Ante.Announce
import Smartdoge.Ante.Block
import Smartdoge.Ante.MeterReading
import Smartdoge.Ante.FeePrice
import Smartdoge.Ante.MinimumFee
import Smartdoge.Ante.GasLimit
import Smartdoge.Ante.Mempool
import Smartdoge.Ante.BlockGas
import Smartdoge.Ante.Routes
import Smartdoge.Ante.Sequences
import Smartdoge.Ante.Settlement
import Smartdoge.Eip712.Types
import Smartdoge.Rpc.EventSystem
import Smartdoge.Rpc.Subscriptions
import Smartdoge.Rpc.Events
import Smartdoge.Rpc.Lookup
import Smartdoge.Rpc.Filters
import Smartdoge.Rpc.TxDefaults
import Smartdoge.Rpc.BlockNumber
import Smartdoge.Rpc.Debug
import Smartdoge.Rpc.GetLogs
import Smartdoge.Rpc.FilterApi
import Smartdoge.Rpc.Polling
import Smartdoge.Rpc.Replayed
import Smartdoge.Rpc.Receipts
import Smartdoge.Rpc.ReportedBlock
import Smartdoge.Rpc.BlockReceipts
import Smartdoge.Rpc.FeeHistory
import Smartdoge.Rpc.Rewards
