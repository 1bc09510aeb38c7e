import Smartdoge.Ante.Tx

/-!
# The ante handler of Ethereum transactions

`app/ante/eth.go`, `fees.go` and `newEthAnteHandler` of `handler_options.go`: the decorators in the
order of the chain. Each walks the messages of the transaction and rejects a message that is not a
`MsgEthereumTx`. Writes are kept in the stores; the context itself changes in its gas meter only.

`EthAnte` is what the chain leaves to the execution: the messages with `From` set, the limit of the
gas meter, and the fees and hashes it emitted as events.

* `newEthAnteHandler_ok`: what a chain that accepted a transaction did: it recovered the senders,
  deducted the fee of every message, and then advanced the sequences.
-/

set_option linter.unusedSectionVars false

namespace Smartdoge.Ante

open Smartdoge.Lib
open Smartdoge.Lib.Writes
open Smartdoge.Statedb
open Smartdoge.Evm

/-- What the chain of decorators leaves behind besides its writes. -/
structure EthAnte where
  /-- The messages, with `From` set. -/
  msgs : List MsgEthereumTx
  /-- The limit of the gas meter of the transaction. -/
  gasWanted : UInt64
  /-- The `fee` attributes of the events, one for each message. -/
  fees : List ℕ
  /-- The `ethereumTxHash` and `txIndex` attributes of the events, one for each message. -/
  hashes : List (String × ℕ)

/-- A computation that may panic. -/
def orPanic {α : Type} (x : Except Panic α) : Except AnteError α := x.mapError .panic

/-- Run the body of a loop over the messages of a transaction.
Source: `for _, msg := range tx.GetMsgs()`, with the type assertion of each loop -/
def forEthMsgs {α : Type} (msgs : List Msg) (body : MsgEthereumTx → Except AnteError α) :
    Except AnteError (List α) :=
  msgs.mapM fun msg => do
    let msgEthTx ← msg.asEthereumTx
    body msgEthTx

/-- A loop over the messages succeeds if and only if they are all Ethereum messages and the body succeeds
for each. -/
theorem forEthMsgs_iff {α : Type} {msgs : List Msg} {body : MsgEthereumTx → Except AnteError α} :
    (∃ as, forEthMsgs msgs body = .ok as) ↔
      ∀ msg ∈ msgs, ∃ eth a, msg = .ethereumTx eth ∧ body eth = .ok a := by
  unfold forEthMsgs
  rw [except_mapM_ok_iff]
  refine forall₂_congr fun msg _ => ?_
  constructor
  · rintro ⟨a, h⟩
    obtain ⟨eth, hcast, hbody⟩ := except_bind_ok.mp h
    cases msg with
    | ethereumTx eth' =>
        obtain rfl := Except.ok.inj hcast
        exact ⟨eth', a, rfl, hbody⟩
    | exec grantee inner => exact absurd hcast (by simp [Msg.asEthereumTx])
    | other typeURL signers => exact absurd hcast (by simp [Msg.asEthereumTx])
  · rintro ⟨eth, a, rfl, hbody⟩
    exact ⟨a, except_bind_ok.mpr ⟨eth, rfl, hbody⟩⟩

/-! ## The decorators -/

/-- Source: `EthSetupContextDecorator` -/
def ethSetUpContext (st : Store) : Store :=
  { st with transient := { st.transient with gasUsed := 0 }, gasConsumed := 0 }

/-- Source: `EthMempoolFeeDecorator`, the body of the loop -/
def checkMempoolFee (ctx : Context) (msg : MsgEthereumTx) : Except AnteError PUnit := do
  let feeAmt ← orPanic msg.data.fee
  let requiredFee := ctx.minGasPrice.mul (Dec.ofInt (goInt64 msg.data.getGas))
  if (Dec.ofInt feeAmt).lt requiredFee then .error .insufficientFees else .ok ()

/-- Source: `EthMempoolFeeDecorator` -/
def ethMempoolFee (ctx : Context) (tx : CosmosTx) (simulate : Bool) : Except AnteError PUnit :=
  if ctx.isCheckTx && !simulate && ctx.getBaseFee.isNone then do
    let _ ← forEthMsgs tx.msgs (checkMempoolFee ctx)
    .ok ()
  else .ok ()

/-- Source: `EthMinGasPriceDecorator`, the body of the loop -/
def checkMinGasPrice (ctx : Context) (msg : MsgEthereumTx) : Except AnteError PUnit := do
  let feeAmt ← orPanic msg.data.fee
  let feeAmt ←
    if msg.data.txType = .legacy then .ok feeAmt
    else orPanic (msg.data.effectiveFee ctx.getBaseFee)
  let requiredFee := ctx.feeMarketParams.minGasPrice.mul (Dec.ofInt msg.data.getGas.toNat)
  if (Dec.ofInt feeAmt).lt requiredFee then .error .belowMinimumGlobalFee else .ok ()

/-- Source: `EthMinGasPriceDecorator` -/
def ethMinGasPrice (ctx : Context) (tx : CosmosTx) : Except AnteError PUnit :=
  if ctx.feeMarketParams.minGasPrice.isZero then .ok ()
  else do
    let _ ← forEthMsgs tx.msgs (checkMinGasPrice ctx)
    .ok ()

/-- The gas limit and the fee of one message.
Source: `EthValidateBasicDecorator`, the body of the loop -/
def validateMsg (ctx : Context) (msg : MsgEthereumTx) : Except AnteError (UInt64 × ℕ) :=
  if !ctx.params.enableCreate && msg.data.getTo.isNone then .error .createDisabled
  else if !ctx.params.enableCall && msg.data.getTo.isSome then .error .callDisabled
  else if ctx.getBaseFee.isNone && msg.data.txType = .dynamicFee then .error .txTypeNotSupported
  else do
    let feeAmt ← orPanic msg.data.fee
    let amount ← orPanic (newIntFromBigInt feeAmt)
    let fee ← orPanic (newCoin amount)
    .ok (msg.data.getGas, fee)

/-- The coins of an amount; zero coins are removed.
Source: `sdk.Coins.Add` -/
def coinsOf (denom : String) (amount : ℕ) : List (String × ℤ) :=
  if amount = 0 then [] else [(denom, amount)]

/-- The sum of the gas limits wraps, as `uint64` does.
Source: `EthValidateBasicDecorator` -/
def ethValidateBasic (sdk : Sdk) (ctx : Context) (tx : CosmosTx) : Except AnteError PUnit :=
  if ctx.isReCheckTx then .ok ()
  else if !sdk.validateBasic tx then .error .basicValidation
  else if tx.memo ≠ "" ∨ tx.timeoutHeight ≠ 0 ∨ tx.nonCriticalExtensionOptions ≠ [] then
    .error .bodyNotEmpty
  else if tx.extensionOptions.length ≠ 1 then .error .extensionOptions
  else do
    let msgs ← forEthMsgs tx.msgs (validateMsg ctx)
    let txGasLimit := (msgs.map Prod.fst).foldl (· + ·) 0
    let txFee := coinsOf ctx.params.evmDenom (msgs.map Prod.snd).sum
    if tx.signerInfos ≠ 0 then .error .signerInfosNotEmpty
    else if tx.payer ≠ "" ∨ tx.granter ≠ "" then .error .payerNotEmpty
    else if tx.feeAmount ≠ txFee then .error .feeAmount
    else if tx.gasLimit ≠ txGasLimit then .error .feeGasLimit
    else if tx.signatures ≠ 0 then .error .signaturesNotEmpty
    else .ok ()

section decorators

variable [Keccak] (app : App) (ctx : Context)

/-- The message with `From` set.
Source: `EthSigVerificationDecorator`, the body of the loop -/
def verifySignature (msg : MsgEthereumTx) : Except AnteError MsgEthereumTx :=
  if ctx.params.rejectUnprotectedTx && !app.geth.isProtected msg.data then .error .notProtected
  else
    match app.geth.sender ctx msg.data with
    | none => .error .invalidSigner
    | some sender => .ok { msg with sender := some sender }

/-- Source: `EthSigVerificationDecorator` -/
def ethSigVerification (tx : CosmosTx) : Except AnteError (List MsgEthereumTx) :=
  forEthMsgs tx.msgs (verifySignature app ctx)

/-- The account of the sender, made if there is none.
Source: `EthAccountVerificationDecorator`, the body of the loop -/
def verifyAccount (msg : MsgEthereumTx) : AnteM PUnit :=
  match msg.sender with
  | none => throw .invalidAddress
  | some fromAddr => do
    let st ← get
    match st.getAccount fromAddr with
    | none => do
      modify fun st => st.setAuth fromAddr newAccount
      ofExcept ((checkSenderBalance 0 msg.data).mapError .senderBalance)
    | some acct =>
      if acct.isContract then throw .senderNotEOA
      else ofExcept ((checkSenderBalance acct.balance msg.data).mapError .senderBalance)

/-- Source: `EthAccountVerificationDecorator` -/
def ethAccountVerification (msgs : List MsgEthereumTx) : AnteM PUnit :=
  if ctx.isCheckTx then do
    let _ ← msgs.mapM verifyAccount
  else pure ()

/-- Source: go-ethereum `core.CanTransfer`, on a fresh `StateDB` -/
def coreCanTransfer (st : Store) (a : Address) (amount : ℤ) : Bool :=
  let stateDB := StateDB.new st (evmKeeper app.env) (.newEmpty (bytesToHash ctx.headerHash))
  amount ≤ (stateDB.getBalance a).1

/-- Source: `CanTransferDecorator`, the body of the loop -/
def canTransfer (st : Store) (msg : MsgEthereumTx) : Except AnteError PUnit :=
  match app.asMessage ctx msg.data ctx.getBaseFee with
  | none => .error .noCoreMessage
  | some coreMsg =>
    if 0 < coreMsg.value && !coreCanTransfer app ctx st coreMsg.sender coreMsg.value then
      .error .insufficientFunds
    else if ctx.isLondon then
      match ctx.getBaseFee with
      | none => .error .invalidBaseFee
      | some baseFee => if coreMsg.gasFeeCap < baseFee then .error .feeCapBelowBaseFee else .ok ()
    else .ok ()

/-- What a message counts for the limit of the gas meter.
Source: `EthGasConsumeDecorator`, `gasWanted` -/
def gasWantedOf (msg : MsgEthereumTx) : UInt64 :=
  if ctx.isCheckTx then
    if app.maxTxGasWanted < msg.data.getGas then app.maxTxGasWanted else msg.data.getGas
  else msg.data.getGas

/-- Deduct the fee of every message.
Source: `EthGasConsumeDecorator`, the loop -/
def deductAll (msgs : List MsgEthereumTx) : AnteM (List ℕ) :=
  msgs.mapM fun msg =>
    EStateM.adaptExcept .deductTxCosts (app.deductTxCosts ctx msg.sender msg.data)

/-- The gas wanted, which wraps as `uint64` does, and the fees.
Source: `EthGasConsumeDecorator` -/
def ethGasConsume (msgs : List MsgEthereumTx) : AnteM (UInt64 × List ℕ) := do
  let fees ← deductAll app ctx msgs
  let blockGasLimit := ctx.blockGasLimit
  if 0 < blockGasLimit ∧ blockGasLimit < ctx.meteredGas then throw (.panic .outOfGas)
  else do
    modify fun st => { st with gasConsumed := ctx.meteredGas }
    pure ((msgs.map (gasWantedOf app ctx)).foldl (· + ·) 0, fees)

/-- Source: `EthIncrementSenderSequenceDecorator`, the body of the loop -/
def incrementSenderSequence (msg : MsgEthereumTx) : AnteM PUnit := do
  let st ← get
  match msg.sender with
  | none => throw .unknownAddress
  | some sender =>
    match st.accounts.get sender with
    | none => throw .unknownAddress
    | some acc =>
      let nonce := acc.sequence
      if msg.data.getNonce ≠ nonce then throw .invalidSequence
      else
        match acc.setSequence app.env (nonce + 1) with
        | .error err => throw (.setSequence err)
        | .ok acc => modify fun st => st.setAuth sender acc

/-- Source: `EthIncrementSenderSequenceDecorator` -/
def ethIncrementSenderSequence (msgs : List MsgEthereumTx) : AnteM PUnit :=
  msgs.forM (incrementSenderSequence app)

/-- Source: `EthEmitEventDecorator` -/
def ethEmitEvent (msgs : List MsgEthereumTx) (st : Store) : List (String × ℕ) :=
  msgs.zipIdx.map fun (msg, i) => (msg.hash, st.transient.txIndex + i)

/-- The chain of decorators. `GasWantedDecorator` writes to the fee market only.
Source: `newEthAnteHandler` -/
def newEthAnteHandler (sdk : Sdk) (tx : CosmosTx) (simulate : Bool) : AnteM EthAnte := do
  modify ethSetUpContext
  ofExcept (ethMempoolFee ctx tx simulate)
  ofExcept (ethMinGasPrice ctx tx)
  ofExcept (ethValidateBasic sdk ctx tx)
  let msgs ← ofExcept (ethSigVerification app ctx tx)
  ethAccountVerification ctx msgs
  let st ← get
  let _ ← ofExcept (msgs.mapM (canTransfer app ctx st))
  let (gasWanted, fees) ← ethGasConsume app ctx msgs
  ethIncrementSenderSequence app msgs
  let st ← get
  pure { msgs := msgs, gasWanted := gasWanted, fees := fees, hashes := ethEmitEvent msgs st }

/-! ## What an accepted transaction went through -/

variable {app ctx}

/-- A message after the ante handler: the same, with the recovered sender. -/
def Signed (app : App) (ctx : Context) (msg : Msg) (eth : MsgEthereumTx) : Prop :=
  ∃ eth₀ : MsgEthereumTx, msg = .ethereumTx eth₀ ∧ eth.data = eth₀.data ∧
    eth.sender = app.geth.sender ctx eth.data ∧ eth.sender.isSome

omit [Keccak] in
/-- A message whose signature was verified has its sender filled in. -/
theorem verifySignature_ok {msg eth : MsgEthereumTx} (h : verifySignature app ctx msg = .ok eth) :
    Signed app ctx (.ethereumTx msg) eth := by
  unfold verifySignature at h
  split_ifs at h
  split at h
  · exact absurd h (by simp)
  · rename_i sender hsender
    obtain rfl := Except.ok.inj h
    exact ⟨msg, rfl, rfl, hsender.symm, rfl⟩

omit [Keccak] in
/-- All messages of a transaction have their senders filled in. -/
theorem ethSigVerification_ok {tx : CosmosTx} {eths : List MsgEthereumTx}
    (h : ethSigVerification app ctx tx = .ok eths) :
    List.Forall₂ (Signed app ctx) tx.msgs eths := by
  refine except_mapM_forall₂ ?_ h
  intro msg _ eth hmsg
  obtain ⟨msg', hcast, hverify⟩ := except_bind_ok.mp hmsg
  cases msg with
  | ethereumTx m =>
      obtain rfl := Except.ok.inj hcast
      exact verifySignature_ok hverify
  | exec grantee inner => exact absurd hcast (by simp [Msg.asEthereumTx])
  | other typeURL signers => exact absurd hcast (by simp [Msg.asEthereumTx])

/-- Balances are the same, and accounts may have been made where there were none. -/
structure AddsAccounts (st st' : Store) : Prop where
  balance : ∀ a, st'.balance a = st.balance a
  kept : ∀ a acct, st.accounts.get a = some acct → st'.accounts.get a = some acct

/-- Doing nothing adds no account. -/
theorem AddsAccounts.refl (st : Store) : AddsAccounts st st := ⟨fun _ => rfl, fun _ _ h => h⟩

/-- Accounts that are added stay. -/
theorem AddsAccounts.trans {st st₁ st' : Store} (h : AddsAccounts st st₁) (h' : AddsAccounts st₁ st') :
    AddsAccounts st st' :=
  ⟨fun a => (h'.balance a).trans (h.balance a), fun a acct hacct => h'.kept a acct (h.kept a acct hacct)⟩

/-- Verifying an account makes it if there is none, and writes nothing else. -/
theorem verifyAccount_ok {msg : MsgEthereumTx} {st st' : Store} {u : PUnit}
    (h : verifyAccount msg st = .ok u st') : ∃ a, msg.sender = some a ∧
      (st' = st ∧ (st.accounts.get a).isSome ∨
        st.accounts.get a = none ∧ st' = st.setAuth a newAccount) := by
  cases hsender : msg.sender with
  | none =>
      simp only [verifyAccount, hsender] at h
      exact absurd h (by simp)
  | some fromAddr =>
      refine ⟨fromAddr, rfl, ?_⟩
      simp only [verifyAccount, hsender] at h
      obtain ⟨st₁, st₂, h₁, h⟩ := bind_ok.mp h
      obtain ⟨rfl, rfl⟩ := get_ok.mp h₁
      cases hacct : st.getAccount fromAddr with
      | none =>
          simp only [hacct] at h
          obtain ⟨⟨⟩, st₃, h₂, h⟩ := bind_ok.mp h
          obtain rfl := modify_ok.mp h₂
          obtain ⟨-, rfl⟩ := ofExcept_ok.mp h
          exact Or.inr ⟨by simpa [Store.getAccount] using hacct, rfl⟩
      | some acct =>
          simp only [hacct] at h
          split_ifs at h
          · exact absurd h (by simp)
          · obtain ⟨-, rfl⟩ := ofExcept_ok.mp h
            refine Or.inl ⟨rfl, Option.isSome_iff_ne_none.mpr ?_⟩
            intro hnone
            simp [Store.getAccount, hnone] at hacct

/-- The account check of one message makes at most an account. -/
theorem verifyAccount_addsAccounts {msg : MsgEthereumTx} {st st' : Store} {u : PUnit}
    (h : verifyAccount msg st = .ok u st') : AddsAccounts st st' := by
  obtain ⟨a, -, ⟨rfl, -⟩ | ⟨hnone, rfl⟩⟩ := verifyAccount_ok h
  · exact AddsAccounts.refl st'
  · have hmoves := moves_setAuth hnone (Or.inl rfl : newAccount = newAccount ∨ _)
    exact ⟨fun _ => rfl, hmoves.kept⟩

/-- The account check makes accounts and nothing else. -/
theorem ethAccountVerification_addsAccounts {msgs : List MsgEthereumTx} {st st' : Store} {u : PUnit}
    (h : ethAccountVerification ctx msgs st = .ok u st') : AddsAccounts st st' := by
  unfold ethAccountVerification at h
  split_ifs at h
  · obtain ⟨us, st₁, h₁, h₂⟩ := bind_ok.mp h
    obtain ⟨-, rfl⟩ := pure_ok.mp h₂
    exact mapM_rel (R := AddsAccounts) AddsAccounts.refl AddsAccounts.trans
      (fun _ _ _ _ _ => verifyAccount_addsAccounts) h₁
  · obtain ⟨-, rfl⟩ := pure_ok.mp h
    exact AddsAccounts.refl st

/-- **An accepted sequence**: the nonce of the message is the sequence of its sender, which is advanced
by one. -/
theorem incrementSenderSequence_ok {eth : MsgEthereumTx} {st st' : Store} {u : PUnit}
    (h : incrementSenderSequence app eth st = .ok u st') :
    ∃ sender acct acct', eth.sender = some sender ∧ st.accounts.get sender = some acct ∧
      eth.data.getNonce = acct.sequence ∧
      acct.setSequence app.env (acct.sequence + 1) = .ok acct' ∧ st' = st.setAuth sender acct' := by
  obtain ⟨st₁, st₂, h₁, h⟩ := bind_ok.mp h
  obtain ⟨rfl, rfl⟩ := get_ok.mp h₁
  cases heth : eth.sender with
  | none =>
      simp only [heth] at h
      exact absurd h (by simp)
  | some sender =>
      simp only [heth] at h
      cases hacct : st.accounts.get sender with
      | none =>
          simp only [hacct] at h
          exact absurd h (by simp)
      | some acct =>
          simp only [hacct] at h
          split_ifs at h with hnonce
          · exact absurd h (by simp)
          · cases hset : acct.setSequence app.env (acct.sequence + 1) with
            | error err =>
                simp only [hset] at h
                exact absurd h (by simp)
            | ok acct' =>
                simp only [hset] at h
                obtain rfl := modify_ok.mp h
                exact ⟨sender, acct, acct', rfl, hacct, not_not.mp hnonce, hset, rfl⟩

/-- **The chain accepts a transaction** if and only if its decorators do, one after the other. -/
theorem newEthAnteHandler_iff {sdk : Sdk} {tx : CosmosTx} {simulate : Bool} {st st' : Store}
    {out : EthAnte} : newEthAnteHandler app ctx sdk tx simulate st = .ok out st' ↔
      ethMempoolFee ctx tx simulate = .ok () ∧ ethMinGasPrice ctx tx = .ok () ∧
      ethValidateBasic sdk ctx tx = .ok () ∧ ethSigVerification app ctx tx = .ok out.msgs ∧
      ∃ st₁ st₂ us, ethAccountVerification ctx out.msgs (ethSetUpContext st) = .ok () st₁ ∧
        out.msgs.mapM (canTransfer app ctx st₁) = .ok us ∧
        ethGasConsume app ctx out.msgs st₁ = .ok (out.gasWanted, out.fees) st₂ ∧
        ethIncrementSenderSequence app out.msgs st₂ = .ok () st' ∧
        out.hashes = ethEmitEvent out.msgs st' := by
  constructor
  · intro h
    obtain ⟨⟨⟩, st₁, h₁, h⟩ := bind_ok.mp h
    obtain rfl := modify_ok.mp h₁
    obtain ⟨⟨⟩, st₂, h₂, h⟩ := bind_ok.mp h
    obtain ⟨hmempool, rfl⟩ := ofExcept_ok.mp h₂
    obtain ⟨⟨⟩, st₃, h₃, h⟩ := bind_ok.mp h
    obtain ⟨hprice, rfl⟩ := ofExcept_ok.mp h₃
    obtain ⟨⟨⟩, st₄, h₄, h⟩ := bind_ok.mp h
    obtain ⟨hbasic, rfl⟩ := ofExcept_ok.mp h₄
    obtain ⟨msgs, st₅, h₅, h⟩ := bind_ok.mp h
    obtain ⟨hsigned, rfl⟩ := ofExcept_ok.mp h₅
    obtain ⟨⟨⟩, st₆, hverify, h⟩ := bind_ok.mp h
    obtain ⟨st₇, st₈, h₇, h⟩ := bind_ok.mp h
    obtain ⟨rfl, rfl⟩ := get_ok.mp h₇
    obtain ⟨us, st₉, h₈, h⟩ := bind_ok.mp h
    obtain ⟨htransfer, rfl⟩ := ofExcept_ok.mp h₈
    obtain ⟨⟨gasWanted, fees⟩, st₁₀, hgas, h⟩ := bind_ok.mp h
    obtain ⟨⟨⟩, st₁₁, hincrement, h⟩ := bind_ok.mp h
    obtain ⟨st₁₂, st₁₃, h₁₀, h⟩ := bind_ok.mp h
    obtain ⟨rfl, rfl⟩ := get_ok.mp h₁₀
    obtain ⟨rfl, rfl⟩ := pure_ok.mp h
    exact ⟨hmempool, hprice, hbasic, hsigned, st₆, st₁₀, us, hverify, htransfer, hgas, hincrement, rfl⟩
  · obtain ⟨msgs, gasWanted, fees, hashes⟩ := out
    rintro ⟨hmempool, hprice, hbasic, hsigned, st₁, st₂, us, hverify, htransfer, hgas, hincrement, hhashes⟩
    obtain rfl : hashes = ethEmitEvent msgs st' := hhashes
    refine bind_ok.mpr ⟨(), ethSetUpContext st, modify_ok.mpr rfl, ?_⟩
    refine bind_ok.mpr ⟨(), _, ofExcept_ok.mpr ⟨hmempool, rfl⟩, ?_⟩
    refine bind_ok.mpr ⟨(), _, ofExcept_ok.mpr ⟨hprice, rfl⟩, ?_⟩
    refine bind_ok.mpr ⟨(), _, ofExcept_ok.mpr ⟨hbasic, rfl⟩, ?_⟩
    refine bind_ok.mpr ⟨msgs, _, ofExcept_ok.mpr ⟨hsigned, rfl⟩, ?_⟩
    refine bind_ok.mpr ⟨(), st₁, hverify, ?_⟩
    refine bind_ok.mpr ⟨st₁, st₁, get_ok.mpr ⟨rfl, rfl⟩, ?_⟩
    refine bind_ok.mpr ⟨us, st₁, ofExcept_ok.mpr ⟨htransfer, rfl⟩, ?_⟩
    refine bind_ok.mpr ⟨(gasWanted, fees), st₂, hgas, ?_⟩
    refine bind_ok.mpr ⟨(), st', hincrement, ?_⟩
    exact bind_ok.mpr ⟨st', st', get_ok.mpr ⟨rfl, rfl⟩, rfl⟩

/-- **The steps of a chain that accepted a transaction**, but for the checks that keep nothing. -/
theorem newEthAnteHandler_steps {sdk : Sdk} {tx : CosmosTx} {simulate : Bool} {st st' : Store}
    {out : EthAnte} (h : newEthAnteHandler app ctx sdk tx simulate st = .ok out st') :
    ∃ st₁ st₂, ethSigVerification app ctx tx = .ok out.msgs ∧
      ethAccountVerification ctx out.msgs (ethSetUpContext st) = .ok () st₁ ∧
      ethGasConsume app ctx out.msgs st₁ = .ok (out.gasWanted, out.fees) st₂ ∧
      ethIncrementSenderSequence app out.msgs st₂ = .ok () st' ∧
      out.hashes = ethEmitEvent out.msgs st' := by
  obtain ⟨-, -, -, hsigned, st₁, st₂, us, hverify, -, hgas, hincrement, hhashes⟩ :=
    newEthAnteHandler_iff.mp h
  exact ⟨st₁, st₂, hsigned, hverify, hgas, hincrement, hhashes⟩

/-- **Consuming the gas** deducts the fees and sets the gas meter. It succeeds unless more than the block gas
limit has been metered; the gas limits of the messages are not compared with it. -/
theorem ethGasConsume_iff {msgs : List MsgEthereumTx} {gasWanted : UInt64} {fees : List ℕ}
    {st st' : Store} : ethGasConsume app ctx msgs st = .ok (gasWanted, fees) st' ↔
      ∃ st₁, deductAll app ctx msgs st = .ok fees st₁ ∧
        ¬(0 < ctx.blockGasLimit ∧ ctx.blockGasLimit < ctx.meteredGas) ∧
        gasWanted = (msgs.map (gasWantedOf app ctx)).foldl (· + ·) 0 ∧
        st' = { st₁ with gasConsumed := ctx.meteredGas } := by
  constructor
  · intro h
    obtain ⟨fees', st₁, hdeduct, h⟩ := bind_ok.mp h
    split_ifs at h with hpool
    · exact absurd h (by simp)
    · obtain ⟨⟨⟩, st₂, hmeter, h⟩ := bind_ok.mp h
      obtain rfl := modify_ok.mp hmeter
      obtain ⟨heq, rfl⟩ := pure_ok.mp h
      obtain ⟨rfl, rfl⟩ := Prod.mk.inj heq
      exact ⟨st₁, hdeduct, hpool, rfl, rfl⟩
  · rintro ⟨st₁, hdeduct, hpool, rfl, rfl⟩
    refine bind_ok.mpr ⟨fees, st₁, hdeduct, ?_⟩
    simp only [if_neg hpool]
    exact bind_ok.mpr ⟨(), _, modify_ok.mpr rfl, rfl⟩

/-- **What the chain did when it accepted a transaction.** It recovered the senders of the messages,
deducted their fees, and advanced the sequences; the balances changed in the second step only. -/
theorem newEthAnteHandler_ok {sdk : Sdk} {tx : CosmosTx} {simulate : Bool} {st st' : Store}
    {out : EthAnte} (h : newEthAnteHandler app ctx sdk tx simulate st = .ok out st') :
    List.Forall₂ (Signed app ctx) tx.msgs out.msgs ∧
    ∃ st₁ st₂, AddsAccounts st st₁ ∧ deductAll app ctx out.msgs st₁ = .ok out.fees st₂ ∧
      ethIncrementSenderSequence app out.msgs { st₂ with gasConsumed := ctx.meteredGas } =
        .ok () st' := by
  obtain ⟨st₁, st₂, hsigned, hverify, hgas, hincrement, -⟩ := newEthAnteHandler_steps h
  obtain ⟨st₃, hdeduct, -, -, rfl⟩ := ethGasConsume_iff.mp hgas
  have hadds := ethAccountVerification_addsAccounts hverify
  refine ⟨ethSigVerification_ok hsigned, st₁, st₃, ?_, hdeduct, hincrement⟩
  exact ⟨fun a => hadds.balance a, fun a acct hacct => hadds.kept a acct hacct⟩

end decorators

end Smartdoge.Ante
