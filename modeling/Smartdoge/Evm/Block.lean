import Smartdoge.Evm.Logs

/-!
# The transactions of a block

The counters of the transient store (bloom filter, number of logs, index of the transaction) are
carried from one `ApplyTransaction` of the block to the next. Nothing else writes them: an ante handler
or another module does not, and a transaction that is aborted has them rolled back.

* `BlockRun`: the calls of `ApplyTransaction` that a block keeps, and what happens between them.
* **`blockRun_stamped`**: without hooks, the logs of the block are numbered without a gap.
* **`blockRun_bloom`**: if the hooks keep the filter of the receipt up to date with the logs they add,
  the bloom filter of the block finds every log of every successful transaction.
* `hooksAccount_of_keepLogs`: hooks that add no logs do.
* `bloom_wiped`: a hook that only adds a log removes the logs of earlier transactions from the filter.
-/

set_option linter.unusedSectionVars false

namespace Smartdoge.Evm

open Smartdoge.Lib
open Smartdoge.Lib.Writes
open Smartdoge.Statedb

/-- Stores with the same counters of the block. -/
structure SameCounters (st st' : Store) : Prop where
  bloom : st'.transient.bloom = st.transient.bloom
  logSize : st'.transient.logSize = st.transient.logSize
  txIndex : st'.transient.txIndex = st.transient.txIndex

section block

variable [Keccak]

/-- The calls of `ApplyTransaction` that a block keeps, with their responses. Each of them meets `guard`,
and between two calls stands whatever leaves the counters alone. -/
inductive BlockRun (app : App) (guard : Context → TxData → Store → Prop) :
    Store → List Response → Store → Prop where
  | start (st : Store) : BlockRun app guard st [] st
  | other {st st₁ st₂ : Store} {ress : List Response} (hrun : BlockRun app guard st ress st₁)
      (hsame : SameCounters st₁ st₂) : BlockRun app guard st ress st₂
  | call {st st₁ st₂ : Store} {ress : List Response} {ctx : Context} {tx : TxData} {res : Response}
      (hrun : BlockRun app guard st ress st₁) (hguard : guard ctx tx st₁)
      (happly : app.applyTransaction ctx tx st₁ = .ok res st₂) : BlockRun app guard st (ress ++ [res]) st₂

/-- No condition on the calls. -/
def anyCall (_ : Context) (_ : TxData) (_ : Store) : Prop := True

variable {app : App} {guard : Context → TxData → Store → Prop}

/-! ## Numbering -/

/-- **What a transaction without hooks does to the counters**: it takes the next index, and numbers its
logs from the number of logs before. -/
theorem applyTransaction_counters (hhooks : app.hooks = none) {ctx : Context} {tx : TxData}
    {st st' : Store} {res : Response} (h : app.applyTransaction ctx tx st = .ok res st') :
    res.logs.map Log.index = List.range' st.transient.logSize res.logs.length ∧
      (∀ log ∈ res.logs, log.txIndex = st.transient.txIndex) ∧
      st'.transient.logSize = st.transient.logSize + res.logs.length ∧
      st'.transient.txIndex = st.transient.txIndex + 1 := by
  obtain ⟨cfg, msg, receipt, st₁, st₂, -, -, hprocess, hrefund, hpublished⟩ := App.applyTransaction_ok h
  obtain ⟨refund, -, hmoves⟩ := App.refundGas_ok hrefund
  cases App.process_ended hprocess with
  | noHooks happly _ =>
      obtain ⟨htransient, hstamped⟩ := App.applyMessage_transient happly
      refine ⟨hstamped.index, hstamped.txIndex, ?_, hpublished.txIndex⟩
      rw [hpublished.logSize, hmoves.transient, htransient]
      show (if res.logs = [] then _ else st.transient.logSize + res.logs.length) = _
      split_ifs with hlogs
      · rw [hlogs]
        rfl
      · rfl
  | vmError _ hsome _ | rejected _ hsome _ _ | accepted _ hsome _ _ => simp [hhooks] at hsome

/-- The logs of a block, in the order of execution. -/
def blockLogs (ress : List Response) : List Log := ress.flatMap Response.logs

/-- **The logs of a block are numbered without a gap**, and each carries the number of transactions
executed before its own. -/
theorem blockRun_stamped (hhooks : app.hooks = none) {st st' : Store} {ress : List Response}
    (h : BlockRun app guard st ress st') :
    (blockLogs ress).map Log.index = List.range' st.transient.logSize (blockLogs ress).length ∧
      (∀ i res, ress[i]? = some res → ∀ log ∈ res.logs, log.txIndex = st.transient.txIndex + i) ∧
      st'.transient.logSize = st.transient.logSize + (blockLogs ress).length ∧
      st'.transient.txIndex = st.transient.txIndex + ress.length := by
  induction h with
  | start => simp [blockLogs]
  | other _ hsame ih =>
      obtain ⟨hindex, htx, hsize, hnext⟩ := ih
      exact ⟨hindex, htx, hsame.logSize.trans hsize, hsame.txIndex.trans hnext⟩
  | @call st₁ st₂ ress ctx tx res _ _ happly ih =>
      obtain ⟨hindex, htx, hsize, hnext⟩ := ih
      obtain ⟨hindex', htx', hsize', hnext'⟩ := applyTransaction_counters hhooks happly
      have hlogs : blockLogs (ress ++ [res]) = blockLogs ress ++ res.logs := by simp [blockLogs]
      refine ⟨?_, ?_, ?_, ?_⟩
      · rw [hlogs, List.map_append, hindex, hindex', hsize, List.length_append, List.range'_append_1]
      · intro i r hr log hlog
        rcases lt_or_ge i ress.length with hi | hi
        · rw [List.getElem?_append_left hi] at hr
          exact htx i r hr log hlog
        · rw [List.getElem?_append_right hi, List.getElem?_singleton] at hr
          split_ifs at hr with hlast
          obtain rfl := Option.some.inj hr
          rw [htx' log hlog, hnext]
          omega
      · rw [hsize', hsize, hlogs, List.length_append, Nat.add_assoc]
      · rw [hnext', hnext, List.length_append, List.length_singleton, Nat.add_assoc]

/-! ## The bloom filter -/

/-- The filter finds a log. -/
def FindsLog (bloom : ℕ) (log : Log) : Prop := ∀ item ∈ bloomItems log, bloomLookup bloom item = true

instance (bloom : ℕ) (log : Log) : Decidable (FindsLog bloom log) :=
  inferInstanceAs (Decidable (∀ item ∈ bloomItems log, bloomLookup bloom item = true))

/-- A filter that covers another finds what the other does. -/
theorem FindsLog.mono {b c : ℕ} {log : Log} (h : FindsLog c log) (hcovers : Bloom.Covers b c) :
    FindsLog b log :=
  fun item hitem => Bloom.test_of_covers hcovers (h item hitem)

/-- `LogsBloom` has no false negatives. -/
def Geth.LogsBloomSound (geth : Geth) : Prop := ∀ logs, ∀ log ∈ logs, FindsLog (geth.logsBloom logs) log

/-- The filter of some logs finds each of them. -/
theorem logsBloom_finds {logs : List Log} {log : Log} (h : log ∈ logs) : FindsLog (logsBloom logs) log :=
  fun _ hitem => Bloom.test_addAll (List.mem_flatMap.mpr ⟨log, h, hitem⟩) 0

/-- The bloom filter that `EndBlock` emits. A filter has 256 bytes, so that the conversion of the stored
number crops nothing.
Source: `keeper/abci.go` `EndBlock` -/
def endBlock (st : Store) : ℕ := st.transient.bloom

/-- What the hooks have to do for the filter of a receipt, which was made from the logs before them: they
clear no bit of it. If there were no logs, then it came without the bits of the block, and hooks that
leave logs have to put these in. -/
structure KeepsBits (block : ℕ) (before after : Receipt) : Prop where
  bits : Bloom.Covers after.bloom before.bloom
  block : before.logs = [] → after.logs ≠ [] → Bloom.Covers after.bloom block

/-- **What a call relies on the hooks for.** If they run, then they keep the bits of the receipt; and if
they accept the transaction, then they clear no bit of the filter of the block either, and the filter of
the receipt finds the logs they have added. -/
def App.HooksAccount (app : App) (ctx : Context) (tx : TxData) (st : Store) : Prop :=
  ∀ cfg msg res tmp hooks, ctx.evmConfig = .ok cfg → app.asMessage ctx tx ctx.getBaseFee = some msg →
    let txConfig := st.txConfig ctx (app.geth.txHash tx)
    app.applyMessageWithConfig ctx msg true cfg txConfig st = .ok res tmp →
    app.hooks = some hooks → res.failed = false →
    let before := app.newReceipt ctx tx msg txConfig res st
    match multiPostTxProcessing hooks msg (tmp, before) with
    | .ok _ (tmp', after) => KeepsBits st.transient.bloom before after ∧
        Bloom.Covers tmp'.transient.bloom tmp.transient.bloom ∧
        ∀ log ∈ after.logs, log ∈ before.logs ∨ FindsLog after.bloom log
    | .error _ (_, after) => KeepsBits st.transient.bloom before after

/-- A hook that adds no log to the receipt, and leaves the filter of the receipt and that of the block
alone. -/
structure KeepsLogs (before after : Store × Receipt) : Prop where
  logs : after.2.logs ⊆ before.2.logs
  bloom : after.2.bloom = before.2.bloom
  block : after.1.transient.bloom = before.1.transient.bloom

/-- Nothing is lost by doing nothing. -/
theorem KeepsLogs.refl (p : Store × Receipt) : KeepsLogs p p := ⟨fun _ h => h, rfl, rfl⟩

/-- One hook after the other. -/
theorem KeepsLogs.trans {p p₁ p₂ : Store × Receipt} (h : KeepsLogs p p₁) (h' : KeepsLogs p₁ p₂) :
    KeepsLogs p p₂ :=
  ⟨fun _ hl => h.logs (h'.logs hl), h'.bloom.trans h.bloom, h'.block.trans h.block⟩

/-- Hooks that keep the logs keep the bits of the filter. -/
theorem KeepsLogs.keepsBits {p p' : Store × Receipt} (h : KeepsLogs p p') (block : ℕ) :
    KeepsBits block p.2 p'.2 := by
  constructor
  · exact Bloom.Covers.of_eq h.bloom
  · intro hnone hsome
    have hlogs := h.logs
    rw [hnone] at hlogs
    exact absurd (List.subset_nil.mp hlogs) hsome

/-- Hooks of which none adds a log, whether it fails or not, do what a call relies on them for. -/
theorem hooksAccount_of_keepLogs (h : ∀ hooks, app.hooks = some hooks → ∀ hook ∈ hooks, ∀ msg p,
    KeepsLogs p (finalState (hook msg p))) (ctx : Context) (tx : TxData) (st : Store) :
    app.HooksAccount ctx tx st := by
  intro cfg msg res tmp hooks _ _ txConfig _ hhooks _ before
  have hchain : KeepsLogs (tmp, before) (finalState (multiPostTxProcessing hooks msg (tmp, before))) := by
    refine forM_finalState KeepsLogs.refl ?_ ?_ _
    · intro _ _ _ h₁ h₂
      exact h₁.trans h₂
    · intro hook hhook p
      exact h hooks hhooks hook hhook msg p
  cases hpost : multiPostTxProcessing hooks msg (tmp, before) with
  | ok _ p =>
      rw [hpost] at hchain
      exact ⟨hchain.keepsBits _, Bloom.Covers.of_eq hchain.block, fun log hlog => Or.inl (hchain.logs hlog)⟩
  | error _ p =>
      rw [hpost] at hchain
      exact hchain.keepsBits _

/-- The receipt before the hooks covers the block and its own logs. -/
theorem newReceipt_bloom (hsound : app.geth.LogsBloomSound) {ctx : Context} {tx : TxData} {msg : Message}
    {txConfig : TxConfig} {res : Response} {st : Store} (hlogs : res.logs ≠ []) :
    Bloom.Covers (app.newReceipt ctx tx msg txConfig res st).bloom st.transient.bloom ∧
      ∀ log ∈ res.logs, FindsLog (app.newReceipt ctx tx msg txConfig res st).bloom log := by
  have hbloom : (app.newReceipt ctx tx msg txConfig res st).bloom =
      st.transient.bloom ||| app.geth.logsBloom res.logs := if_neg hlogs
  rw [hbloom]
  refine ⟨Bloom.covers_or_left _ _, ?_⟩
  intro log hlog
  exact (hsound res.logs log hlog).mono (Bloom.covers_or_right _ _)

/-- The end of a transaction, from a receipt whose filter was kept up to date. -/
theorem published_covers (hsound : app.geth.LogsBloomSound) {ctx : Context} {tx : TxData} {msg : Message}
    {txConfig : TxConfig} {res : Response} {receipt : Receipt} {st st₀ st₁ st' : Store}
    (hpublished : Published txConfig receipt st₁ st') (hst₀ : st₀.transient.bloom = st.transient.bloom)
    (hst₁ : Bloom.Covers st₁.transient.bloom st.transient.bloom)
    (hkeeps : KeepsBits st.transient.bloom (app.newReceipt ctx tx msg txConfig res st₀) receipt) :
    Bloom.Covers st'.transient.bloom st.transient.bloom := by
  rw [hpublished.bloom]
  split_ifs with hnone
  · exact hst₁
  · by_cases hlogs : res.logs = []
    · exact hkeeps.block hlogs hnone
    · have hnew : Bloom.Covers (app.newReceipt ctx tx msg txConfig res st₀).bloom st₀.transient.bloom :=
        (newReceipt_bloom hsound hlogs).1
      rw [hst₀] at hnew
      exact hkeeps.bits.trans hnew

/-- The logs of the receipt that its filter was made from, or that it finds by itself. -/
theorem published_finds (hsound : app.geth.LogsBloomSound) {ctx : Context} {tx : TxData} {msg : Message}
    {txConfig : TxConfig} {res : Response} {receipt : Receipt} {st₀ st₁ st' : Store}
    (hpublished : Published txConfig receipt st₁ st')
    (hbits : Bloom.Covers receipt.bloom (app.newReceipt ctx tx msg txConfig res st₀).bloom)
    (hlogs : ∀ log ∈ receipt.logs, log ∈ res.logs ∨ FindsLog receipt.bloom log) :
    ∀ log ∈ receipt.logs, FindsLog st'.transient.bloom log := by
  intro log hlog
  rw [hpublished.bloom, if_neg (List.ne_nil_of_mem hlog)]
  rcases hlogs log hlog with hown | hfound
  · exact ((newReceipt_bloom hsound (List.ne_nil_of_mem hown)).2 log hown).mono hbits
  · exact hfound

/-- **One transaction** keeps the bits of the block, and the block finds its logs if it is
successful. -/
theorem applyTransaction_bloom (hsound : app.geth.LogsBloomSound) {ctx : Context} {tx : TxData}
    {st st' : Store} {res : Response} (haccount : app.HooksAccount ctx tx st)
    (h : app.applyTransaction ctx tx st = .ok res st') :
    Bloom.Covers st'.transient.bloom st.transient.bloom ∧
      (res.failed = false → ∀ log ∈ res.logs, FindsLog st'.transient.bloom log) := by
  obtain ⟨cfg, msg, receipt, st₁, st₂, hcfg, hmsg, hprocess, hrefund, hpublished⟩ :=
    App.applyTransaction_ok h
  obtain ⟨refund, -, hmoves⟩ := App.refundGas_ok hrefund
  have hst₂ : st₂.transient.bloom = st₁.transient.bloom := congrArg Transient.bloom hmoves.transient
  have hself (r : Receipt) : KeepsBits st.transient.bloom r r :=
    ⟨Bloom.Covers.refl _, fun hnone hsome => absurd hnone hsome⟩
  cases App.process_ended hprocess with
  | noHooks happly _ =>
      have htmp := congrArg Transient.bloom (App.applyMessage_transient happly).1
      have hkept := Bloom.Covers.of_eq (hst₂.trans htmp)
      refine ⟨published_covers hsound hpublished htmp hkept (hself _), ?_⟩
      intro _
      exact published_finds hsound hpublished (Bloom.Covers.refl _) (fun _ hl => Or.inl hl)
  | vmError _ _ _ =>
      refine ⟨published_covers hsound hpublished rfl (Bloom.Covers.of_eq hst₂) (hself _), ?_⟩
      intro _
      exact published_finds hsound hpublished (Bloom.Covers.refl _) (fun _ hl => Or.inl hl)
  | rejected happly hhooks hok hpost =>
      have hkeeps := haccount cfg msg _ _ _ hcfg hmsg happly hhooks hok
      simp only [hpost] at hkeeps
      refine ⟨published_covers hsound hpublished rfl (Bloom.Covers.of_eq hst₂) hkeeps, ?_⟩
      intro hok
      exact absurd hok (by simp [Response.failed, errPostTxProcessing])
  | accepted happly hhooks hok hpost =>
      have hkeeps := haccount cfg msg _ _ _ hcfg hmsg happly hhooks hok
      simp only [hpost] at hkeeps
      obtain ⟨hbits, hblock, hlogs⟩ := hkeeps
      rw [(App.applyMessage_transient happly).1, ← hst₂] at hblock
      refine ⟨published_covers hsound hpublished rfl hblock hbits, ?_⟩
      intro _
      exact published_finds hsound hpublished hbits.bits hlogs

/-- **The bloom filter of a block has no false negatives** if at every call the hooks account for the logs
they add: the filter that `EndBlock` emits finds every log of every successful transaction. -/
theorem blockRun_bloom (hsound : app.geth.LogsBloomSound) {st st' : Store} {ress : List Response}
    (h : BlockRun app app.HooksAccount st ress st') :
    ∀ res ∈ ress, res.failed = false → ∀ log ∈ res.logs, FindsLog (endBlock st') log := by
  induction h with
  | start => simp
  | other _ hsame ih =>
      unfold endBlock at ih ⊢
      rw [hsame.bloom]
      exact ih
  | @call st₁ st₂ ress ctx tx res _ haccount happly ih =>
      obtain ⟨hcovers, hfinds⟩ := applyTransaction_bloom hsound haccount happly
      intro r hr hok log hlog
      rcases List.mem_append.mp hr with hr | hr
      · exact (ih r hr hok log hlog).mono hcovers
      · obtain rfl := List.mem_singleton.mp hr
        exact hfinds hok log hlog

end block

/-! ## Concrete runs -/

/-- The sample applications report the filters of their logs. -/
theorem loggingApp_sound [Keccak] (sender : Address)
    (call : Message → UInt64 → StateDB Store → VmOutcome) (hooks : Option (List Hook)) :
    (loggingApp sender call hooks).geth.LogsBloomSound :=
  fun _ _ h => logsBloom_finds h

/-- A hook that removes the last log. -/
def trimmingHook : Hook := fun _ => modify fun p => (p.1, { p.2 with logs := p.2.logs.dropLast })

/-- A hook that adds a log of the contract `c`. -/
def addingHook (c : Address) : Hook :=
  fun _ => modify fun p => (p.1, { p.2 with logs := p.2.logs ++ [sampleLog c] })

/-- A call of a contract that logs twice. -/
def loggingTwice (msg : Message) (gas : UInt64) (s : StateDB Store) : VmOutcome :=
  let out := loggingCall msg gas s
  { out with ops := out.ops ++ [.addLog (sampleLog msg.sender)] }

/-- A block of one transaction with two logs, of which a hook removes one. -/
theorem blockRun_bloom_trimmed :
    letI := sampleKeccak
    let a : Address := .ofNat 20 1
    let app := loggingApp a loggingTwice (some [trimmingHook])
    ∃ res st', BlockRun app app.HooksAccount (fundedStore a) [res] st' ∧ res.failed = false ∧
      res.logs.length = 1 ∧ ∀ log ∈ res.logs, FindsLog (endBlock st') log := by
  let _ := sampleKeccak
  intro a app
  have haccount : app.HooksAccount sampleContext (contractCall (.ofNat 20 2)) (fundedStore a) := by
    apply hooksAccount_of_keepLogs
    rintro hooks ⟨⟩ hook hhook msg p
    obtain rfl := List.mem_singleton.mp hhook
    exact ⟨List.dropLast_subset _, rfl, rfl⟩
  obtain ⟨res, st', hrun, hres⟩ := exists_of_endsWith (by decide +kernel :
    endsWith (app.applyTransaction sampleContext (contractCall (.ofNat 20 2)) (fundedStore a))
      (fun res _ => decide (res.failed = false ∧ res.logs.length = 1)) = true)
  obtain ⟨hok, hlogs⟩ := of_decide_eq_true hres
  have hblock : BlockRun app app.HooksAccount (fundedStore a) [res] st' :=
    BlockRun.call (BlockRun.start _) haccount hrun
  refine ⟨res, st', hblock, hok, hlogs, ?_⟩
  exact blockRun_bloom (loggingApp_sound a _ _) hblock res List.mem_cons_self hok

/-- A call of the contract 2 logs, and a call of another account does not. -/
def loggingCallOfTwo (msg : Message) (gas : UInt64) (s : StateDB Store) : VmOutcome :=
  if msg.toAddr = some (.ofNat 20 2) then loggingCall msg gas s else transferCall msg gas s

/-- Two transactions, of which the first logs, with a hook that adds a log to every receipt. After the
second one the filter of the block is empty. -/
theorem bloom_wiped :
    letI := sampleKeccak
    let a : Address := .ofNat 20 1
    let app := loggingApp a loggingCallOfTwo (some [addingHook (.ofNat 20 9)])
    app.geth.LogsBloomSound ∧
    ∃ res₁ res₂ st', BlockRun app anyCall (fundedStore a) [res₁, res₂] st' ∧ endBlock st' = 0 ∧
      res₁.failed = false ∧ res₂.failed = false ∧ (∃ log ∈ res₁.logs, ¬FindsLog (endBlock st') log) ∧
      ∃ log ∈ res₂.logs, ¬FindsLog (endBlock st') log := by
  let _ := sampleKeccak
  intro a app
  refine ⟨loggingApp_sound a _ _, ?_⟩
  obtain ⟨res₁, st₁, hrun₁, hout⟩ := exists_of_endsWith (by decide +kernel :
    endsWith (app.applyTransaction sampleContext (contractCall (.ofNat 20 2)) (fundedStore a))
      (fun res₁ st₁ => decide (res₁.failed = false) &&
        endsWith (app.applyTransaction sampleContext (contractCall (.ofNat 20 3)) st₁)
          (fun res₂ st₂ => decide (endBlock st₂ = 0 ∧ res₂.failed = false ∧
            (∃ log ∈ res₁.logs, ¬FindsLog (endBlock st₂) log) ∧
            ∃ log ∈ res₂.logs, ¬FindsLog (endBlock st₂) log))) = true)
  obtain ⟨hok₁, hout⟩ := Bool.and_eq_true_iff.mp hout
  obtain ⟨res₂, st₂, hrun₂, hres₂⟩ := exists_of_endsWith hout
  obtain ⟨hempty, hok₂, hlost₁, hlost₂⟩ := of_decide_eq_true hres₂
  have hblock : BlockRun app anyCall (fundedStore a) ([] ++ [res₁] ++ [res₂]) st₂ :=
    ((BlockRun.start _).call trivial hrun₁).call trivial hrun₂
  exact ⟨res₁, res₂, st₂, hblock, hempty, of_decide_eq_true hok₁, hok₂, hlost₁, hlost₂⟩

end Smartdoge.Evm
