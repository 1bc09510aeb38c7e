import Smartdoge.Ante.Eth

/-!
# The routes of the ante handler

`app/ante/ante.go` `NewAnteHandler` sends a transaction to one of three chains of decorators by its
first extension option. The Ethereum chain deducts fees and checks nonces; the two Cosmos chains reject
`MsgEthereumTx`, but only among the messages `GetMsgs` returns. The messages inside a `MsgExec` of the
authz module are not looked at, and authz hands them to their handlers without any ante handler
(`DispatchActions`), without a grant where the signer is the grantee.

* `newAnteHandler_ok`: what an accepted transaction went through, by route.
* `runMsgs_none`, `runMsgs_ethereum`: which Ethereum transactions the messages execute.
* **`guarded_iff`**: no Ethereum message passes a Cosmos route, if and only if none is inside a
  `MsgExec`; then the Ethereum transactions executed are those the Ethereum chain went through.
* `exec_escapes`: an accepted `MsgExec` that makes the fee collector pay a refund for gas that was not
  bought.
-/

set_option linter.unusedSectionVars false

namespace Smartdoge.Ante

open Smartdoge.Lib
open Smartdoge.Lib.Writes
open Smartdoge.Statedb
open Smartdoge.Evm

/-! ## Message trees -/

mutual

/-- Whether a `MsgEthereumTx` occurs in a message, at any depth. -/
def Msg.hasEthereumTx : Msg → Bool
  | .ethereumTx _ => true
  | .exec _ msgs => Msg.anyEthereumTx msgs
  | .other _ _ => false

/-- Whether a `MsgEthereumTx` occurs in a list of messages, at any depth. -/
def Msg.anyEthereumTx : List Msg → Bool
  | [] => false
  | msg :: msgs => msg.hasEthereumTx || Msg.anyEthereumTx msgs

end

/-- Whether a message is a `MsgExec` with a `MsgEthereumTx` in it, at any depth. -/
def Msg.hidesEthereumTx : Msg → Bool
  | .exec _ msgs => Msg.anyEthereumTx msgs
  | _ => false

/-! ## The ante handler -/

/-- What the ante handler did with an accepted transaction. -/
inductive Accepted where
  | ethereum (out : EthAnte)
  | eip712
  | cosmos

/-- The Ethereum transactions that the Ethereum chain went through. -/
def Accepted.processed : Accepted → List TxData
  | .ethereum out => out.msgs.map MsgEthereumTx.data
  | _ => []

/-- Source: `reject_msgs.go` `RejectMessagesDecorator` -/
def rejectMessages (tx : CosmosTx) : Except AnteError PUnit :=
  if tx.msgs.any fun msg => msg matches .ethereumTx _ then .error .needsExtensionOption else .ok ()

section routes

variable [Keccak] (app : App) (sdk : Sdk) (ctx : Context)

/-- Source: `handler_options.go` `newCosmosAnteHandler` -/
def newCosmosAnteHandler (tx : CosmosTx) (simulate : Bool) : AnteM PUnit := do
  ofExcept (rejectMessages tx)
  sdk.cosmosDecorators ctx tx simulate

/-- Source: `handler_options.go` `newCosmosAnteHandlerEip712` -/
def newCosmosAnteHandlerEip712 (tx : CosmosTx) (simulate : Bool) : AnteM PUnit := do
  ofExcept (rejectMessages tx)
  sdk.eip712Decorators ctx tx simulate

/-- Source: `ante.go` `NewAnteHandler` -/
def newAnteHandler (tx : CosmosTx) (simulate : Bool) : AnteM Accepted :=
  match tx.extensionOptions with
  | typeURL :: _ =>
    if typeURL = "/smartdoge.evm.v1.ExtensionOptionsEthereumTx" then do
      let out ← newEthAnteHandler app ctx sdk tx simulate
      pure (.ethereum out)
    else if typeURL = "/smartdoge.types.v1.ExtensionOptionsWeb3Tx" then do
      newCosmosAnteHandlerEip712 sdk ctx tx simulate
      pure .eip712
    else throw (.unknownExtensionOptions typeURL)
  | [] => do
    newCosmosAnteHandler sdk ctx tx simulate
    pure .cosmos

/-! ## Execution of messages -/

/-- Why a message failed. -/
inductive ExecError where
  /-- "failed to apply transaction". -/
  | tx (err : TxError)
  /-- "authorization not found". -/
  | unauthorized
  /-- "authorization can be given to msg with only one signer". -/
  | oneSigner
  /-- `GetSigners` panicked. -/
  | noSigner
  /-- The handler of another message failed. -/
  | handler (reason : String)
deriving DecidableEq

/-- Code outside this repository that executes messages. -/
structure Router where
  /-- `MsgEthereumTx.GetSigners()`, with the latest signer for the chain id of the transaction; `none`
  is a panic. -/
  ethSigner : TxData → Option Address
  /-- The handlers of other messages. -/
  handler : Context → String → List Address → EStateM String Store PUnit
  /-- Whether the granter has authorized the grantee to send a message. -/
  authorizes : Store → Address → Address → Msg → Bool

variable (router : Router)

/-- `msg.GetSigners()`. -/
def Msg.getSigners : Msg → Except ExecError (List Address)
  | .ethereumTx eth => ((router.ethSigner eth.data).map fun a => [a]).elim (.error .noSigner) .ok
  | .exec grantee _ => .ok [grantee]
  | .other _ signers => .ok signers

/-- An authorization is looked for only where the signer is not the grantee.
Source: `x/authz` `DispatchActions`, before the handler -/
def checkAuthorization (grantee : Address) (msg : Msg) (st : Store) : Except ExecError PUnit := do
  let signers ← msg.getSigners router
  match signers with
  | [granter] =>
    if granter = grantee || router.authorizes st granter grantee msg then .ok ()
    else .error .unauthorized
  | _ => .error .oneSigner

mutual

/-- The handler of a message; what it returns is the Ethereum transactions that were executed.
Source: `msg_server.go` `EthereumTx`; `x/authz` `Exec` -/
def runMsg : Msg → EStateM ExecError Store (List (TxData × Response))
  | .ethereumTx eth => do
    let res ← EStateM.adaptExcept .tx (app.applyTransaction ctx eth.data)
    pure [(eth.data, res)]
  | .exec grantee msgs => dispatchActions grantee msgs
  | .other typeURL signers => do
    EStateM.adaptExcept .handler (router.handler ctx typeURL signers)
    pure []

/-- Source: `x/authz` `DispatchActions` -/
def dispatchActions (grantee : Address) : List Msg → EStateM ExecError Store (List (TxData × Response))
  | [] => pure []
  | msg :: msgs => do
    let st ← get
    ofExcept (checkAuthorization router grantee msg st)
    let executed ← runMsg msg
    let rest ← dispatchActions grantee msgs
    pure (executed ++ rest)

end

/-- The messages of a transaction, after the ante handler. -/
def runMsgs : List Msg → EStateM ExecError Store (List (TxData × Response))
  | [] => pure []
  | msg :: msgs => do
    let executed ← runMsg app ctx router msg
    let rest ← runMsgs msgs
    pure (executed ++ rest)

/-! ## What an accepted transaction went through -/

variable {app sdk ctx router}

/-- A transaction that was let through has no Ethereum message at its top level. -/
theorem rejectMessages_ok {tx : CosmosTx} {u : PUnit} (h : rejectMessages tx = .ok u) :
    ∀ eth, Msg.ethereumTx eth ∉ tx.msgs := by
  intro eth hmem
  unfold rejectMessages at h
  split_ifs at h with hany
  exact hany (List.any_eq_true.mpr ⟨_, hmem, rfl⟩)

/-- **An accepted transaction** went through the Ethereum chain, or has no `MsgEthereumTx` among its
messages. -/
theorem newAnteHandler_ok {tx : CosmosTx} {simulate : Bool} {st st' : Store} {accepted : Accepted}
    (h : newAnteHandler app sdk ctx tx simulate st = .ok accepted st') :
    (∃ out, accepted = .ethereum out ∧ newEthAnteHandler app ctx sdk tx simulate st = .ok out st') ∨
      (accepted.processed = [] ∧ (∀ out, accepted ≠ .ethereum out) ∧
        ∀ eth, Msg.ethereumTx eth ∉ tx.msgs) := by
  have hcosmos {m : AnteM PUnit} {u : PUnit} {st₁ : Store}
      (hchain : (do ofExcept (rejectMessages tx); m : AnteM PUnit) st = .ok u st₁) :
      ∀ eth, Msg.ethereumTx eth ∉ tx.msgs := by
    obtain ⟨⟨⟩, st₂, hreject, -⟩ := bind_ok.mp hchain
    exact rejectMessages_ok (ofExcept_ok.mp hreject).1
  cases hopts : tx.extensionOptions with
  | nil =>
      simp only [newAnteHandler, hopts] at h
      obtain ⟨u, st₁, hchain, h⟩ := bind_ok.mp h
      obtain ⟨rfl, rfl⟩ := pure_ok.mp h
      exact Or.inr ⟨rfl, by simp, hcosmos hchain⟩
  | cons typeURL urls =>
      simp only [newAnteHandler, hopts] at h
      split_ifs at h
      · obtain ⟨out, st₁, hchain, h⟩ := bind_ok.mp h
        obtain ⟨rfl, rfl⟩ := pure_ok.mp h
        exact Or.inl ⟨out, rfl, hchain⟩
      · obtain ⟨u, st₁, hchain, h⟩ := bind_ok.mp h
        obtain ⟨rfl, rfl⟩ := pure_ok.mp h
        exact Or.inr ⟨rfl, by simp, hcosmos hchain⟩
      · exact absurd h (by simp)

/-! ## What the messages execute -/

mutual

/-- A message without a `MsgEthereumTx` in it executes none. -/
theorem runMsg_none : ∀ (msg : Msg) {st st' : Store} {executed : List (TxData × Response)},
    msg.hasEthereumTx = false → runMsg app ctx router msg st = .ok executed st' → executed = []
  | .ethereumTx _, _, _, _, hnone, _ => by simp [Msg.hasEthereumTx] at hnone
  | .exec grantee msgs, _, _, _, hnone, h => by
      simp only [Msg.hasEthereumTx] at hnone
      simp only [runMsg] at h
      exact dispatchActions_none grantee msgs hnone h
  | .other _ _, _, _, _, _, h => by
      simp only [runMsg] at h
      obtain ⟨⟨⟩, st₁, -, h⟩ := bind_ok.mp h
      exact (pure_ok.mp h).1.symm

/-- Nested messages that hold no Ethereum message execute none. -/
theorem dispatchActions_none (grantee : Address) : ∀ (msgs : List Msg) {st st' : Store}
    {executed : List (TxData × Response)}, Msg.anyEthereumTx msgs = false →
    dispatchActions app ctx router grantee msgs st = .ok executed st' → executed = []
  | [], _, _, _, _, h => by
      simp only [dispatchActions] at h
      exact (pure_ok.mp h).1.symm
  | msg :: msgs, _, _, _, hnone, h => by
      simp only [Msg.anyEthereumTx, Bool.or_eq_false_iff] at hnone
      simp only [dispatchActions] at h
      obtain ⟨_, st₁, -, h⟩ := bind_ok.mp h
      obtain ⟨_, st₂, -, h⟩ := bind_ok.mp h
      obtain ⟨executed, st₃, hmsg, h⟩ := bind_ok.mp h
      obtain ⟨rest, st₄, hrest, h⟩ := bind_ok.mp h
      obtain ⟨rfl, -⟩ := pure_ok.mp h
      rw [runMsg_none msg hnone.1 hmsg, dispatchActions_none grantee msgs hnone.2 hrest,
        List.nil_append]

end

/-- The top-level messages of a transaction execute what each of them does. -/
theorem runMsgs_cons_ok {msg : Msg} {msgs : List Msg} {st st' : Store}
    {executed : List (TxData × Response)}
    (h : runMsgs app ctx router (msg :: msgs) st = .ok executed st') :
    ∃ first rest st₁, runMsg app ctx router msg st = .ok first st₁ ∧
      runMsgs app ctx router msgs st₁ = .ok rest st' ∧ executed = first ++ rest := by
  obtain ⟨first, st₁, hmsg, h⟩ := bind_ok.mp h
  obtain ⟨rest, st₂, hrest, h⟩ := bind_ok.mp h
  obtain ⟨rfl, rfl⟩ := pure_ok.mp h
  exact ⟨first, rest, st₁, hmsg, hrest, rfl⟩

/-- A transaction that holds no Ethereum message executes none. -/
theorem runMsgs_none {msgs : List Msg} {st st' : Store} {executed : List (TxData × Response)}
    (hnone : Msg.anyEthereumTx msgs = false)
    (h : runMsgs app ctx router msgs st = .ok executed st') : executed = [] := by
  induction msgs generalizing st executed with
  | nil => exact (pure_ok.mp h).1.symm
  | cons msg msgs ih =>
      simp only [Msg.anyEthereumTx, Bool.or_eq_false_iff] at hnone
      obtain ⟨first, rest, st₁, hmsg, hrest, rfl⟩ := runMsgs_cons_ok h
      rw [runMsg_none msg hnone.1 hmsg, ih hnone.2 hrest, List.nil_append]

/-- Messages the Ethereum chain signed off execute their own transactions, in order. -/
theorem runMsgs_ethereum {msgs : List Msg} {eths : List MsgEthereumTx} {st st' : Store}
    {executed : List (TxData × Response)} (hsigned : List.Forall₂ (Signed app ctx) msgs eths)
    (h : runMsgs app ctx router msgs st = .ok executed st') :
    executed.map Prod.fst = eths.map MsgEthereumTx.data := by
  induction hsigned generalizing st executed with
  | nil =>
      obtain ⟨rfl, -⟩ := pure_ok.mp h
      rfl
  | cons hmsg _ ih =>
      obtain ⟨eth₀, rfl, hdata, -⟩ := hmsg
      obtain ⟨first, rest, st₁, hrun, hrest, rfl⟩ := runMsgs_cons_ok h
      simp only [runMsg] at hrun
      obtain ⟨res, st₂, -, hrun⟩ := bind_ok.mp hrun
      obtain ⟨rfl, -⟩ := pure_ok.mp hrun
      simp only [List.cons_append, List.nil_append, List.map_cons, ih hrest, hdata]

/-- What the Ethereum chain signed off is a `MsgEthereumTx`, with nothing inside. -/
theorem hidesEthereumTx_of_signed {msgs : List Msg} {eths : List MsgEthereumTx}
    (hsigned : List.Forall₂ (Signed app ctx) msgs eths) : ∀ msg ∈ msgs, msg.hidesEthereumTx = false := by
  induction hsigned with
  | nil => simp
  | cons hmsg _ ih =>
      obtain ⟨eth₀, rfl, -⟩ := hmsg
      exact List.forall_mem_cons.mpr ⟨rfl, ih⟩

/-! ## No Ethereum message escapes -/

/-- No Ethereum message escapes the Ethereum chain: a Cosmos route lets none through, and the Ethereum
transactions executed are those whose fees the Ethereum chain deducted and whose nonces it checked. -/
structure Guarded (app : App) (ctx : Context) (router : Router) (tx : CosmosTx) (accepted : Accepted)
    (st : Store) : Prop where
  rejects : (∀ out, accepted ≠ .ethereum out) → Msg.anyEthereumTx tx.msgs = false
  executes : ∀ executed st', runMsgs app ctx router tx.msgs st = .ok executed st' →
    executed.map Prod.fst = accepted.processed
  paid : ∀ out, accepted = .ethereum out → ∃ st₀ st₁, deductAll app ctx out.msgs st₀ = .ok out.fees st₁ ∧
    ethIncrementSenderSequence app out.msgs { st₁ with gasConsumed := ctx.meteredGas } = .ok () st

/-- Besides the messages themselves, only a `MsgExec` can carry a `MsgEthereumTx`. -/
theorem anyEthereumTx_iff {msgs : List Msg} (hnone : ∀ eth, Msg.ethereumTx eth ∉ msgs) :
    Msg.anyEthereumTx msgs = false ↔ ∀ msg ∈ msgs, msg.hidesEthereumTx = false := by
  induction msgs with
  | nil => simp [Msg.anyEthereumTx]
  | cons msg msgs ih =>
      have hhead : msg.hasEthereumTx = msg.hidesEthereumTx := by
        cases msg with
        | ethereumTx eth => exact absurd List.mem_cons_self (hnone eth)
        | exec grantee inner => simp only [Msg.hasEthereumTx, Msg.hidesEthereumTx]
        | other typeURL signers => simp only [Msg.hasEthereumTx, Msg.hidesEthereumTx]
      simp only [Msg.anyEthereumTx, Bool.or_eq_false_iff, hhead, List.forall_mem_cons,
        ih fun eth heth => hnone eth (List.mem_cons_of_mem _ heth)]

/-- Of an accepted transaction, **no Ethereum message escapes the Ethereum chain if and only if** no
`MsgExec` of it has one inside. -/
theorem guarded_iff {tx : CosmosTx} {simulate : Bool} {st st₁ : Store} {accepted : Accepted}
    (h : newAnteHandler app sdk ctx tx simulate st = .ok accepted st₁) :
    Guarded app ctx router tx accepted st₁ ↔ ∀ msg ∈ tx.msgs, msg.hidesEthereumTx = false := by
  rcases newAnteHandler_ok h with ⟨out, rfl, hchain⟩ | ⟨hprocessed, hroute, hnone⟩
  · obtain ⟨hsigned, st₀, st₂, -, hdeduct, hincrement⟩ := newEthAnteHandler_ok hchain
    refine iff_of_true ⟨fun hne => absurd rfl (hne out), ?_, ?_⟩ (hidesEthereumTx_of_signed hsigned)
    · intro executed st' hrun
      exact runMsgs_ethereum hsigned hrun
    · rintro _ ⟨⟩
      exact ⟨st₀, st₂, hdeduct, hincrement⟩
  · rw [← anyEthereumTx_iff hnone]
    constructor
    · intro hguarded
      exact hguarded.rejects hroute
    · intro hany
      refine ⟨fun _ => hany, ?_, fun out hout => absurd hout (hroute out)⟩
      intro executed st' hrun
      rw [runMsgs_none hany hrun, hprocessed, List.map_nil]

end routes

/-! ## Concrete runs -/

/-- An SDK whose Cosmos decorators take no fee and advance the sequence of the first signer, as they do
where the minimum gas price is zero. -/
def sequenceSdk [Keccak] : Sdk where
  validateBasic := sampleSdk.validateBasic
  cosmosDecorators _ tx _ := do
    let st ← get
    match tx.msgs with
    | .exec signer _ :: _ | .other _ (signer :: _) :: _ =>
      match st.accounts.get signer with
      | some acct =>
        match acct.setSequence sampleEnv (acct.sequence + 1) with
        | .ok acct' => set (st.setAuth signer acct')
        | .error err => throw (.setSequence err)
      | none => throw .unknownAddress
    | _ => pure ()
  eip712Decorators _ _ _ := pure ()

/-- Messages signed by one account, handlers that do nothing, and no grants. -/
def sampleRouter (signer : Address) : Router where
  ethSigner _ := some signer
  handler _ _ _ := pure ()
  authorizes _ _ _ _ := false

/-- A transaction of the Cosmos route without fees. -/
def plainCosmosTx (msgs : List Msg) : CosmosTx where
  msgs := msgs
  extensionOptions := []
  nonCriticalExtensionOptions := []
  memo := ""
  timeoutHeight := 0
  signerInfos := 1
  feeAmount := []
  gasLimit := 200000
  payer := ""
  granter := ""
  signatures := 1

/-- A `MsgExec` around a message of another module is accepted, and executes no Ethereum transaction. -/
theorem guarded_exec :
    letI := sampleKeccak
    let a : Address := .ofNat 20 1
    let app := sampleApp a transferCall transferCall
    let tx := plainCosmosTx [.exec a [.other "/cosmos.bank.v1beta1.MsgSend" [a]]]
    ∃ st₁, newAnteHandler app sequenceSdk sampleContext tx false (beforeBatch a) = .ok .cosmos st₁ ∧
      Guarded app sampleContext (sampleRouter a) tx .cosmos st₁ := by
  let _ := sampleKeccak
  intro a app tx
  obtain ⟨accepted, st₁, hante, hout⟩ := exists_of_endsWith (by decide +kernel :
    endsWith (newAnteHandler app sequenceSdk sampleContext tx false (beforeBatch a))
      (fun accepted _ => accepted matches .cosmos) = true)
  cases accepted with
  | ethereum out => cases hout
  | eip712 => cases hout
  | cosmos =>
      refine ⟨st₁, hante, (guarded_iff hante).mpr ?_⟩
      intro msg hmsg
      obtain rfl := List.mem_singleton.mp hmsg
      rfl

/-- A `MsgExec` of `a` around an Ethereum transaction that `a` signed. It is accepted without a fee; its
execution makes the fee collector pay `a` for gas that was not bought. -/
theorem exec_escapes :
    letI := sampleKeccak
    let a : Address := .ofNat 20 1
    let app := sampleApp a transferCall transferCall
    let data := legacyTx 4 (some (.ofNat 20 2))
    let tx := plainCosmosTx [.exec a [.ethereumTx ⟨data, none, ""⟩]]
    let collector := sampleEnv.moduleAddress .feeCollector
    ∃ st₁ executed st₂,
      newAnteHandler app sequenceSdk sampleContext tx false (beforeBatch a) = .ok .cosmos st₁ ∧
      runMsgs app sampleContext (sampleRouter a) tx.msgs st₁ = .ok executed st₂ ∧
      executed.map Prod.fst = [data] ∧ st₁.balance collector = 1800000 ∧ st₁.balance a = 100 ∧
      st₂.balance collector = 1350000 ∧ st₂.balance a = 450095 ∧
      ¬Guarded app sampleContext (sampleRouter a) tx .cosmos st₁ := by
  let _ := sampleKeccak
  intro a app data tx collector
  obtain ⟨accepted, st₁, hante, hout⟩ := exists_of_endsWith (by decide +kernel :
    endsWith (newAnteHandler app sequenceSdk sampleContext tx false (beforeBatch a))
      (fun accepted st₁ => (accepted matches .cosmos) &&
        decide (st₁.balance collector = 1800000 ∧ st₁.balance a = 100) &&
        endsWith (runMsgs app sampleContext (sampleRouter a) tx.msgs st₁) (fun executed st₂ =>
          decide (executed.map Prod.fst = [data] ∧ st₂.balance collector = 1350000 ∧
            st₂.balance a = 450095))) = true)
  simp only [Bool.and_eq_true, decide_eq_true_eq] at hout
  obtain ⟨⟨hroute, hbefore⟩, hrun⟩ := hout
  obtain ⟨executed, st₂, hrun, hafter⟩ := exists_of_endsWith hrun
  obtain ⟨hexecuted, hcollector, ha⟩ := of_decide_eq_true hafter
  cases accepted with
  | ethereum out => cases hroute
  | eip712 => cases hroute
  | cosmos =>
      refine ⟨st₁, executed, st₂, hante, hrun, hexecuted, hbefore.1, hbefore.2, hcollector, ha, ?_⟩
      intro hguarded
      exact absurd (hguarded.rejects (by simp)) (by decide)

end Smartdoge.Ante
