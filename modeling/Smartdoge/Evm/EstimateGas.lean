import Smartdoge.Evm.BinSearch
import Smartdoge.Evm.TxArgs

/-!
# The estimate of the gas limit

`x/evm/keeper/grpc_query.go` `EstimateGas`: the gas limit of a call is searched between 20999 and a cap, which is
made of the gas limit of the arguments, the gas limit of the block and the gas cap of the request. Each probe
simulates the call and discards what it wrote. The binary search does not probe the cap: a result equal to it is
executed once more, and only this execution tells why no gas limit is enough.

* `executable_uncapped`: the gas cap of the request, which `ToMessage` applies again, changes no probe.
* `search_meaning`: what the result of the search says of the gas limits, when failing is monotone.
* **`estimateGas_least`**: the estimate ends, it is the least gas limit that is enough, and errors are returned.
-/

set_option linter.unusedSectionVars false

namespace Smartdoge.Evm

open Smartdoge.Lib
open Smartdoge.Lib.Writes
open Smartdoge.Statedb

/-- The arguments are `none` where they cannot be read.
Source: `types/query.pb.go` `EthCallRequest` -/
structure EthCallRequest where
  args : Option TransactionArgs
  gasCap : UInt64
deriving DecidableEq

/-- Why a probe returned an error. -/
inductive ProbeError where
  | args (err : ArgsError)
  | apply (err : TxError)
deriving DecidableEq

/-- Why there is no estimate. -/
inductive EstimateError where
  /-- "empty request". -/
  | emptyRequest
  /-- "gas cap cannot be lower than 21,000". -/
  | gasCapTooLow
  /-- The error of `json.Unmarshal`. -/
  | invalidArgs
  /-- "failed to load evm config". -/
  | evmConfig
  /-- The error of a probe. -/
  | execution (err : ProbeError)
  /-- `NewExecErrorWithReason` with what the contract returned. -/
  | reverted (ret : Bytes)
  /-- The error of the virtual machine, as the message. -/
  | vmError (text : String)
  /-- "gas required exceeds allowance (%d)". -/
  | exceedsAllowance (cap : UInt64)
deriving DecidableEq

/-- Source: go-ethereum `vm.ErrOutOfGas` -/
def errOutOfGas : String := "out of gas"

/-- Source: go-ethereum `vm.ErrExecutionReverted` -/
def errExecutionReverted : String := "execution reverted"

/-- Source: go-ethereum `params.TxGas` -/
def txGas : UInt64 := 21000

/-! ## The cap -/

/-- Source: `EstimateGas`, `// Determine the highest gas limit can be used during the estimation.` -/
def Context.highestGas (ctx : Context) (args : TransactionArgs) (gasCap : UInt64) : UInt64 :=
  if txGas ≤ args.gas.getD 0 then args.gas.getD 0
  else
    match ctx.maxGas with
    | none => gasCap
    | some maxGas => if 0 < maxGas then .ofNat maxGas.toNat else gasCap

/-- Source: `EstimateGas`, `// Recap the highest gas allowance with specified gascap.` -/
def Context.estimateCap (ctx : Context) (args : TransactionArgs) (gasCap : UInt64) : UInt64 :=
  let hi := ctx.highestGas args gasCap
  if gasCap ≠ 0 ∧ gasCap < hi then gasCap else hi

/-- The search starts at most at the gas cap, if there is one. -/
theorem Context.estimateCap_le {ctx : Context} {args : TransactionArgs} {gasCap : UInt64} (hcap : gasCap ≠ 0) :
    (ctx.estimateCap args gasCap).toNat ≤ gasCap.toNat := by
  simp only [estimateCap]
  split_ifs with h
  · exact Nat.le_refl _
  · have hle : ¬gasCap < ctx.highestGas args gasCap := fun hlt => h ⟨hcap, hlt⟩
    rw [UInt64.lt_iff_toNat_lt] at hle
    omega

/-- What the search is given. The nonce of the arguments is that of the account. -/
structure Estimation where
  args : TransactionArgs
  gasCap : UInt64
  cap : UInt64
  cfg : EvmConfig
  txConfig : TxConfig
deriving DecidableEq

/-- Source: `EstimateGas`, up to `executable` -/
def prepareEstimate (ctx : Context) (req : Option EthCallRequest) (st : Store) :
    Except EstimateError Estimation :=
  match req with
  | none => .error .emptyRequest
  | some req =>
    if req.gasCap < txGas then .error .gasCapTooLow
    else
      match req.args, ctx.evmConfig with
      | none, _ => .error .invalidArgs
      | some _, .error _ => .error .evmConfig
      | some args, .ok cfg => .ok
          { args := { args with nonce := some (st.getNonce args.getFrom) }
            gasCap := req.gasCap
            cap := ctx.estimateCap args req.gasCap
            cfg := cfg
            txConfig := .newEmpty (bytesToHash ctx.headerHash) }

/-- A prepared estimation has the gas cap of its request, which is enough for a transfer, and starts at most there. -/
theorem prepareEstimate_ok {ctx : Context} {req : EthCallRequest} {st : Store} {e : Estimation}
    (h : prepareEstimate ctx (some req) st = .ok e) :
    e.gasCap = req.gasCap ∧ txGas ≤ req.gasCap ∧ e.cap.toNat ≤ req.gasCap.toNat := by
  simp only [prepareEstimate] at h
  split_ifs at h with hlow
  have hle : txGas ≤ req.gasCap := UInt64.not_lt.mp hlow
  split at h
  · cases h
  · cases h
  · obtain rfl := Except.ok.inj h
    refine ⟨rfl, hle, Context.estimateCap_le ?_⟩
    intro hzero
    rw [hzero] at hle
    exact absurd hle (by decide)

section estimate

variable [Keccak] (app : App) (ctx : Context)

/-! ## Probes -/

/-- A gas limit that is below the intrinsic gas is a failure, other errors end the search.
Source: `EstimateGas`, `executable`, after `ToMessage` -/
def App.simulate (msg : Message) (cfg : EvmConfig) (txConfig : TxConfig) (st : Store) :
    Except TxError (Bool × Option Response) :=
  match app.applyMessageWithConfig ctx msg false cfg txConfig st with
  | .error .intrinsicGas _ => .ok (true, none)
  | .error err _ => .error err
  | .ok rsp _ => .ok (rsp.failed, some rsp)

/-- Every probe begins with the stores of the request: the one before was not committed, and has written nothing.
Source: `EstimateGas`, `executable` -/
def App.executable (e : Estimation) (st : Store) : Executable ProbeError := fun gas =>
  match { e.args with gas := some gas }.toMessage e.gasCap e.cfg.baseFee with
  | .error err => .error (.args err)
  | .ok msg => (app.simulate ctx msg e.cfg e.txConfig st).mapError .apply

/-- Source: `EstimateGas`, after `BinSearch` -/
def concludeEstimate (executable : Executable ProbeError) (cap : UInt64) :
    Except ProbeError UInt64 → Except EstimateError UInt64
  | .error err => .error (.execution err)
  | .ok hi =>
    if hi = cap then
      match executable hi with
      | .error err => .error (.execution err)
      | .ok (false, _) => .ok hi
      | .ok (true, none) => .error (.exceedsAllowance cap)
      | .ok (true, some result) =>
        if result.vmError ≠ errOutOfGas then
          if result.vmError = errExecutionReverted then .error (.reverted result.ret)
          else .error (.vmError result.vmError)
        -- The gas cap is too low.
        else .error (.exceedsAllowance cap)
    else .ok hi

/-- Source: `EstimateGas`, `types.BinSearch(lo, hi, executable)` -/
def App.searchGas (rounds : ℕ) (e : Estimation) (st : Store) : Option (Except ProbeError UInt64) :=
  binSearch (app.executable ctx e st) rounds (txGas - 1) e.cap

/-- The result after a number of rounds of the search that is enough, `none` if it is not.
Source: `EstimateGas` -/
def App.estimateGas (rounds : ℕ) (req : Option EthCallRequest) (st : Store) :
    Option (Except EstimateError UInt64) :=
  match prepareEstimate ctx req st with
  | .error err => some (.error err)
  | .ok e => (app.searchGas ctx rounds e st).map (concludeEstimate (app.executable ctx e st) e.cap)

/-- The gas limits that are probed: those of the search, and its result if it is the cap. -/
def App.estimateProbes (rounds : ℕ) (e : Estimation) (st : Store) : List UInt64 :=
  probes (app.executable ctx e st) rounds (txGas - 1) e.cap ++
    match app.searchGas ctx rounds e st with
    | some (.ok hi) => if hi = e.cap then [hi] else []
    | _ => []

/-! ## Executions with a gas limit -/

/-- The execution of the arguments with exactly the gas limit: without a gas cap, `ToMessage` keeps it. -/
def App.execution (e : Estimation) (st : Store) : Executable ProbeError :=
  app.executable ctx { e with gasCap := 0 } st

variable {app ctx}

/-- **The gas cap changes no execution** with a gas limit that it allows. -/
theorem App.executable_uncapped {e : Estimation} {st : Store} {gas : UInt64} (h : gas.toNat ≤ e.gasCap.toNat) :
    app.executable ctx e st gas = app.execution ctx e st gas := by
  have hgas : ¬e.gasCap < gas := by
    rw [UInt64.lt_iff_toNat_lt]
    omega
  have hmessage : { e.args with gas := some gas }.toMessage e.gasCap e.cfg.baseFee =
      { e.args with gas := some gas }.toMessage 0 e.cfg.baseFee := by
    unfold TransactionArgs.toMessage
    have hkept : { e.args with gas := some gas }.messageGas e.gasCap =
        { e.args with gas := some gas }.messageGas 0 := by
      simp [TransactionArgs.messageGas, hgas]
    rw [hkept]
  unfold App.execution App.executable
  rw [hmessage]

/-- An execution fails with an error of the virtual machine, or for the intrinsic gas. -/
def Fails (execution : Executable ProbeError) (gas : UInt64) : Prop :=
  ∃ rsp, execution gas = .ok (true, rsp)

instance (execution : Executable ProbeError) (gas : UInt64) : Decidable (Fails execution gas) :=
  match h : execution gas with
  | .ok (true, rsp) => .isTrue ⟨rsp, h⟩
  | .ok (false, _) => .isFalse fun ⟨_, hfails⟩ => by
    rw [h] at hfails
    cases hfails
  | .error _ => .isFalse fun ⟨_, hfails⟩ => by
    rw [h] at hfails
    cases hfails

/-- A gas limit below one that fails, fails: from 21000 to the cap. -/
def FailureMonotone (execution : Executable ProbeError) (cap : UInt64) : Prop :=
  ∀ gas gas' : UInt64, 21000 ≤ gas'.toNat → gas'.toNat ≤ gas.toNat → gas.toNat ≤ cap.toNat →
    Fails execution gas → Fails execution gas'

/-- The least gas limit, from 21000 to the cap, with which an execution does not fail. -/
structure LeastSufficient (execution : Executable ProbeError) (cap gas : UInt64) : Prop where
  succeeds : ∃ rsp, execution gas = .ok (false, rsp)
  ge : 21000 ≤ gas.toNat
  le : gas.toNat ≤ cap.toNat
  least : ∀ gas' : UInt64, 21000 ≤ gas'.toNat → gas'.toNat < gas.toNat → Fails execution gas'

/-! ## The search -/

/-- The search starts right below the gas of a transfer. -/
theorem lower_toNat : (txGas - 1).toNat = 20999 := by decide

/-- A failure at the cap is an error, whatever the reason. -/
theorem concludeEstimate_fails {executable : Executable ProbeError} {cap : UInt64} (h : Fails executable cap) :
    ∃ err, concludeEstimate executable cap (.ok cap) = .error err := by
  obtain ⟨rsp, hrsp⟩ := h
  simp only [concludeEstimate, hrsp, if_true]
  cases rsp with
  | none => exact ⟨_, rfl⟩
  | some result =>
      dsimp only
      split_ifs <;> exact ⟨_, rfl⟩

/-- A result is an estimate if it is below the cap, or does not fail there. -/
theorem concludeEstimate_ok {executable : Executable ProbeError} {cap gas : UInt64}
    {result : Except ProbeError UInt64} (h : concludeEstimate executable cap result = .ok gas) :
    result = .ok gas ∧ (gas = cap → ∃ rsp, executable gas = .ok (false, rsp)) := by
  cases result with
  | error err => cases h
  | ok hi =>
      simp only [concludeEstimate] at h
      by_cases hhi : hi = cap
      · rw [if_pos hhi] at h
        split at h
        · cases h
        · rename_i rsp hrsp
          obtain rfl := Except.ok.inj h
          exact ⟨rfl, fun _ => ⟨rsp, hrsp⟩⟩
        · cases h
        · split_ifs at h
      · rw [if_neg hhi] at h
        obtain rfl := Except.ok.inj h
        exact ⟨rfl, fun hcap => absurd hcap hhi⟩

/-- **What a search that ended says of the gas limits**, if failing is monotone: all below the result fail, and
the result is the cap or does not fail. -/
theorem search_meaning {execution : Executable ProbeError} {cap hi : UInt64}
    (hend : SearchEnd execution (txGas - 1) cap (.ok hi)) (hmono : FailureMonotone execution cap) :
    21000 ≤ hi.toNat ∧ hi.toNat ≤ cap.toNat ∧ (hi = cap ∨ ∃ rsp, execution hi = .ok (false, rsp)) ∧
      ∀ gas : UInt64, 21000 ≤ gas.toNat → gas.toNat < hi.toNat → Fails execution gas := by
  cases hend with
  | @found b h hnext =>
      have hlo := h.lo_le
      have hhi := h.le_hi
      rw [lower_toNat] at hlo
      refine ⟨by omega, hhi, ?_, ?_⟩
      · rcases h.upper with hupper | ⟨-, hupper⟩
        · exact Or.inl hupper
        · exact Or.inr hupper
      · intro gas hge hlt
        rcases h.lower with hlower | ⟨-, hlower⟩
        · -- The lower bound has not moved: there is nothing between 21000 and the result.
          rw [hlower, lower_toNat] at hnext
          omega
        · exact hmono b.lo gas hge (by omega) (by omega) hlower

/-- If every gas limit fails, then the search ends at the cap, or with an error. -/
theorem search_fails {execution : Executable ProbeError} {cap hi : UInt64}
    (hend : SearchEnd execution (txGas - 1) cap (.ok hi))
    (hfails : ∀ gas : UInt64, 21000 ≤ gas.toNat → gas.toNat ≤ cap.toNat → Fails execution gas) : hi = cap := by
  cases hend with
  | @found b h hnext =>
      have hlo := h.lo_le
      rw [lower_toNat] at hlo
      rcases h.upper with hupper | ⟨-, rsp, hupper⟩
      · exact hupper
      · obtain ⟨rsp', hfailed⟩ := hfails b.hi (by omega) h.le_hi
        rw [hupper] at hfailed
        cases hfailed

/-- The search sees the gas limits up to the cap only. -/
theorem SearchEnd.congr {ε : Type} {executable execution : Executable ε} {lo hi : UInt64} {result : Except ε UInt64}
    (h : SearchEnd executable lo hi result)
    (heq : ∀ gas : UInt64, gas.toNat ≤ hi.toNat → executable gas = execution gas) :
    SearchEnd execution lo hi result := by
  cases h with
  | @error gas err hlo hhi herr =>
      rw [heq gas (by omega)] at herr
      exact .error hlo hhi herr
  | @found b hsearched hnext =>
      have hupper := hsearched.le_hi
      have hlt := hsearched.lt
      refine .found ⟨hsearched.toSmall, ?_, ?_⟩ hnext
      · rw [← heq b.lo (by omega)]
        exact hsearched.lower
      · rw [← heq b.hi hupper]
        exact hsearched.upper

/-- A probe of the search that returns an error ends it. -/
theorem binSearch_of_probe_error {ε : Type} {executable : Executable ε} {rounds : ℕ} {lo hi gas : UInt64} {err : ε}
    (hgas : gas ∈ probes executable rounds lo hi) (herr : executable gas = .error err) :
    binSearch executable rounds lo hi = some (.error err) := by
  obtain ⟨b, hb, rfl⟩ := List.mem_map.mp hgas
  obtain ⟨hvisit, hopen⟩ := List.mem_filter.mp hb
  exact Loop.run_of_visit_done hvisit (searchRound_error hopen herr)

/-- **The error of a probe is returned.** -/
theorem App.estimate_of_probe_error {rounds : ℕ} {e : Estimation} {st : Store}
    {result : Except ProbeError UInt64} (hsearch : app.searchGas ctx rounds e st = some result) {gas : UInt64}
    {err : ProbeError} (hgas : gas ∈ app.estimateProbes ctx rounds e st)
    (herr : app.executable ctx e st gas = .error err) :
    concludeEstimate (app.executable ctx e st) e.cap result = .error (.execution err) := by
  rcases List.mem_append.mp hgas with hgas | hgas
  · have hended := binSearch_of_probe_error hgas herr
    obtain rfl := Option.some.inj (hsearch.symm.trans hended)
    rfl
  · rw [hsearch] at hgas
    cases result with
    | error err' => simp at hgas
    | ok hi =>
        dsimp only at hgas
        split_ifs at hgas with hhi
        · obtain rfl := List.mem_singleton.mp hgas
          simp only [concludeEstimate, hhi, if_true]
          rw [← hhi, herr]
        · simp at hgas

/-- What is probed is not above the cap. -/
theorem App.estimateProbes_le {rounds : ℕ} {e : Estimation} {st : Store}
    (hprobes : ∀ gas ∈ probes (app.executable ctx e st) rounds (txGas - 1) e.cap, gas.toNat < e.cap.toNat) :
    ∀ gas ∈ app.estimateProbes ctx rounds e st, gas.toNat ≤ e.cap.toNat := by
  intro gas hgas
  rcases List.mem_append.mp hgas with hgas | hgas
  · exact (hprobes gas hgas).le
  · split at hgas
    · split_ifs at hgas with hhi
      · rw [List.mem_singleton.mp hgas, hhi]
      · simp at hgas
    · simp at hgas

/-- **The estimate is the least gas limit that is enough.** A request with a gas cap from 21000 and below 2⁶³ is
rejected before the search, or the search ends, if its cap is at least 21000. Then a gas limit that is returned
suffices, and all from 21000 below it fail, if failing is monotone. If all gas limits up to the cap fail, an error
is returned, and so is the error of every probe. -/
theorem estimateGas_least (app : App) (ctx : Context) (req : EthCallRequest) (st : Store)
    (hlow : 21000 ≤ req.gasCap.toNat) (hhigh : req.gasCap.toNat < 2 ^ 63) {rounds : ℕ}
    (hrounds : req.gasCap.toNat < rounds) :
    (∀ err, prepareEstimate ctx (some req) st = .error err →
      app.estimateGas ctx rounds (some req) st = some (.error err)) ∧
    ∀ e, prepareEstimate ctx (some req) st = .ok e → 21000 ≤ e.cap.toNat →
      ∃ result, app.estimateGas ctx rounds (some req) st = some result ∧
        (FailureMonotone (app.execution ctx e st) e.cap →
          ∀ gas, result = .ok gas → LeastSufficient (app.execution ctx e st) e.cap gas) ∧
        ((∀ gas : UInt64, 21000 ≤ gas.toNat → gas.toNat ≤ e.cap.toNat → Fails (app.execution ctx e st) gas) →
          ∃ err, result = .error err) ∧
        ∀ gas ∈ app.estimateProbes ctx rounds e st, ∀ err, app.execution ctx e st gas = .error err →
          result = .error (.execution err) := by
  refine ⟨?_, ?_⟩
  · intro err hprepare
    unfold App.estimateGas
    rw [hprepare]
  intro e hprepare hcap
  obtain ⟨hgasCap, -, hle⟩ := prepareEstimate_ok hprepare
  have heq : ∀ gas : UInt64, gas.toNat ≤ e.cap.toNat →
      app.executable ctx e st gas = app.execution ctx e st gas := by
    intro gas hgas
    apply App.executable_uncapped
    rw [hgasCap]
    omega
  have hsmall : Bounds.Small ⟨txGas - 1, e.cap⟩ := by
    refine ⟨?_, ?_⟩
    · show (txGas - 1).toNat < e.cap.toNat
      rw [lower_toNat]
      omega
    · show e.cap.toNat ≤ 2 ^ 63
      omega
  obtain ⟨found, hsearch, hend, hprobes⟩ :=
    binSearch_spec (app.executable ctx e st) hsmall (show e.cap.toNat - (txGas - 1).toNat < rounds by omega)
  have hmeaning := hend.congr heq
  refine ⟨concludeEstimate (app.executable ctx e st) e.cap found, ?_, ?_, ?_, ?_⟩
  · unfold App.estimateGas
    rw [hprepare]
    show (app.searchGas ctx rounds e st).map _ = _
    unfold App.searchGas
    rw [hsearch]
    rfl
  · intro hmono gas hgas
    obtain ⟨rfl, hlast⟩ := concludeEstimate_ok hgas
    obtain ⟨hge, hupper, hsufficient, hleast⟩ := search_meaning hmeaning hmono
    refine ⟨?_, hge, hupper, hleast⟩
    rcases hsufficient with heqCap | hsufficient
    · rw [← heq gas hupper]
      exact hlast heqCap
    · exact hsufficient
  · intro hfails
    cases found with
    | error err => exact ⟨_, rfl⟩
    | ok hi =>
        rw [search_fails hmeaning hfails]
        apply concludeEstimate_fails
        unfold Fails
        rw [heq e.cap (Nat.le_refl _)]
        exact hfails e.cap hcap (Nat.le_refl _)
  · intro gas hgas err herr
    apply App.estimate_of_probe_error hsearch hgas
    rw [heq gas (App.estimateProbes_le (fun gas hgas => (hprobes gas hgas).2) gas hgas)]
    exact herr

end estimate

/-! ## A concrete estimate -/

/-- A call that needs 2 units of gas. -/
def cheapCall (_ : Message) (gas : UInt64) (_ : StateDB Store) : VmOutcome where
  ops := []
  ret := []
  leftoverGas := if gas < 2 then 0 else gas - 2
  vmErr := if gas < 2 then some errOutOfGas else none

/-- A call with a zero byte of data, whose intrinsic gas is 21004. -/
def zeroByteArgs : TransactionArgs where
  sender := some (.ofNat 20 1)
  toAddr := some (.ofNat 20 2)
  gas := none
  gasPrice := none
  maxFeePerGas := none
  maxPriorityFeePerGas := none
  value := none
  nonce := none
  data := some [0]
  input := none
  accessList := none
  chainID := none

def zeroByteRequest : EthCallRequest := ⟨some zeroByteArgs, 21010⟩

/-- What is searched for it. -/
def zeroByteEstimation : Estimation where
  args := { zeroByteArgs with nonce := some 0 }
  gasCap := 21010
  cap := 21010
  cfg := ⟨sampleContext.params, .ofNat 20 50, some 7⟩
  txConfig := .newEmpty (.zero 32)

/-- The estimate for it is 21006: below 21004 the intrinsic gas is missing, then the call runs out of gas. -/
theorem estimateGas_zeroByte :
    letI := sampleKeccak
    let app := sampleApp (.ofNat 20 1) transferCall cheapCall
    let execution := app.execution sampleContext zeroByteEstimation emptyStore
    prepareEstimate sampleContext (some zeroByteRequest) emptyStore = .ok zeroByteEstimation ∧
      FailureMonotone execution 21010 ∧
      app.estimateGas sampleContext 21011 (some zeroByteRequest) emptyStore = some (.ok 21006) ∧
      LeastSufficient execution 21010 21006 := by
  let _ := sampleKeccak
  intro app execution
  have hprepare : prepareEstimate sampleContext (some zeroByteRequest) emptyStore = .ok zeroByteEstimation := by
    decide +kernel
  have hestimate : app.estimateGas sampleContext 21011 (some zeroByteRequest) emptyStore = some (.ok 21006) := by
    decide +kernel
  have hfails : ∀ n < 11, Fails execution (.ofNat (21000 + n)) ↔ n < 6 := by decide +kernel
  have hbelow : ∀ gas : UInt64, 21000 ≤ gas.toNat → gas.toNat ≤ 21010 →
      (Fails execution gas ↔ gas.toNat < 21000 + 6) := by
    intro gas hge hle
    have hat : UInt64.ofNat (21000 + (gas.toNat - 21000)) = gas := by
      rw [Nat.add_sub_cancel' hge, UInt64.ofNat_toNat]
    rw [← Nat.sub_lt_iff_lt_add' hge, ← hfails (gas.toNat - 21000) (by omega), hat]
  have hmono : FailureMonotone execution 21010 := by
    intro gas gas' hge hle hcap hfailed
    have htop : (21010 : UInt64).toNat = 21010 := by decide +kernel
    rw [htop] at hcap
    have hlt := (hbelow gas (by omega) hcap).mp hfailed
    exact (hbelow gas' hge (hle.trans hcap)).mpr (hle.trans_lt hlt)
  refine ⟨hprepare, hmono, hestimate, ?_⟩
  obtain ⟨result, hresult, hleast, -⟩ := (estimateGas_least app sampleContext zeroByteRequest emptyStore
    (by decide +kernel) (by decide +kernel) (by decide +kernel : _ < 21011)).2 zeroByteEstimation hprepare
    (by decide +kernel)
  exact hleast hmono 21006 (Option.some.inj (hresult.symm.trans hestimate))

end Smartdoge.Evm
