import Smartdoge.Lib.Timer
import Smartdoge.Rpc.EventSystem
import Smartdoge.Rpc.GetLogs

/-!
# Filters that are polled

A client makes a filter, and asks for what is new by `eth_getFilterChanges`. A goroutine for each filter takes the
events of its subscription and appends to the filter what it finds in them. A filter has a timer that is started
again by every poll; a loop looks at all timers every five minutes, and removes the filters of those that have fired.
Calls, goroutines and the loop hold the mutex of the filters while they work on them, so that each is one step.

The goroutine of a log filter returns when a result cannot be decoded, and leaves the filter in place. That of a
filter for pending transactions goes on after its subscription was uninstalled.

* `timeout_filters`: the loop removes the filters whose timers have fired, and no others.
* `effect_of_step`: what each step does.
-/

set_option linter.unusedSectionVars false

namespace Smartdoge.Rpc

open Smartdoge.Lib
open Smartdoge.Statedb
open Smartdoge.Evm
open Smartdoge.Ante

/-! ## The state -/

/-- In nanoseconds.
Source: `filters/api.go` `deadline` -/
def filterDeadline : ℕ := 5 * 60 * 10 ^ 9

/-- The criteria of a filter for blocks or transactions are empty.
Source: `filters/api.go` `filter`; its subscription has the same number -/
structure Filter where
  typ : SubscriptionType
  deadline : Timer
  hashes : List Hash
  blockHash : Option Hash
  crit : FilterCriteria
  logs : List Log

/-- The data of a `ResultEvent`. -/
inductive EventData where
  /-- `EventDataTx`: the messages of the transaction, if it can be decoded, and the data of its result. -/
  | tx (msgs : Option (List Msg)) (data : Bytes)
  /-- `EventDataNewBlockHeader`, with the hash of the header that is made from it. -/
  | newBlockHeader (hash : Hash)
  | other

/-- The goroutine of a filter. -/
structure Worker where
  typ : SubscriptionType
  crit : FilterCriteria

/-- What a client gets from a filter. -/
inductive Item where
  | hash (hash : Hash)
  | log (log : Log)

/-- Identifiers are random text that is not used twice; here they have numbers.
Source: `filters/api.go` `PublicFilterAPI` -/
structure FilterApi where
  /-- `backend.RPCFilterCap()`. -/
  cap : ℤ
  now : ℕ := 0
  filters : GoMap ℕ Filter := GoMap.empty
  /-- The goroutines that have not returned. -/
  workers : GoMap ℕ Worker := GoMap.empty
  issued : Finset ℕ := ∅
  /-- The subscriptions for which `Unsubscribe` was called. -/
  unsubscribed : List ℕ := []

/-! ## Goroutines -/

/-- The hashes of the Ethereum messages. -/
def ethHashes (msgs : List Msg) : List Hash :=
  msgs.filterMap fun msg =>
    match msg with
    | .ethereumTx eth => some (hexToHash eth.hash)
    | .exec _ _ | .other _ _ => none

/-- What a goroutine does with an event. -/
inductive Handling where
  | skip
  | append (hashes : List Hash) (logs : List Log)
  | quit

/-- Source: `filters/api.go` `NewPendingTransactionFilter`, `NewBlockFilter`, `NewFilter`, the goroutines -/
def Worker.handle (codec : ResponseCodec) (w : Worker) (data : EventData) : Handling :=
  match w.typ, data with
  | .pendingTransactions, .tx (some msgs) _ => .append (ethHashes msgs) []
  | .blocks, .newBlockHeader hash => .append [hash] []
  | .logs, .tx _ data =>
    match logsFromData codec w.crit data with
    | some logs => .append [] logs
    | none => .quit
  | _, _ => .skip

/-! ## Steps -/

/-- `err` is the error of the subscription, if there is one. -/
inductive ApiStep where
  | elapse (duration : ℕ)
  | newPendingTransactionFilter (id : ℕ) (err : Option String)
  | newBlockFilter (id : ℕ) (err : Option String)
  | newFilter (id : ℕ) (blockHash : Option Hash) (crit : FilterCriteria) (err : Option String)
  /-- The goroutine receives an event. -/
  | event (id : ℕ) (data : EventData)
  /-- The goroutine finds its event channel closed. -/
  | eventsClosed (id : ℕ)
  /-- The goroutine finds its error channel closed. -/
  | errClosed (id : ℕ)
  | uninstallFilter (id : ℕ)
  | getFilterChanges (id : ℕ)
  /-- The ticker of the loop. -/
  | timeout

/-- What a call returns, or a goroutine finds. -/
inductive Answer where
  | nothing
  | filterId (id : ℕ)
  /-- The text of an error, as the error or in the place of the identifier. -/
  | failed (text : String)
  | found (hashes : List Hash) (logs : List Log)
  | removed (ok : Bool)
  /-- "filter %s not found". -/
  | notFound (id : ℕ)
  | hashes (hashes : List Hash)
  | logs (logs : List Log)

/-- Source: `filters/api.go` `NewPublicAPI` -/
def newPublicAPI (cap : ℤ) : FilterApi := { cap := cap }

namespace FilterApi

/-- Source: `filters/api.go` `NewPendingTransactionFilter`, `NewBlockFilter`, `NewFilter`, up to the goroutine -/
def install (api : FilterApi) (id : ℕ) (typ : SubscriptionType) (blockHash : Option Hash) (crit : FilterCriteria) :
    FilterApi :=
  { api with
    filters := api.filters.set id ⟨typ, .start api.now filterDeadline, [], blockHash, crit, []⟩
    workers := api.workers.set id ⟨typ, crit⟩
    issued := insert id api.issued }

/-- A filter of one of the three types, where `name` and `wrap` make the texts of the errors. -/
def create (api : FilterApi) (name : String) (wrap : String → String) (id : ℕ) (typ : SubscriptionType)
    (blockHash : Option Hash) (crit : FilterCriteria) (err : Option String) : FilterApi × Answer :=
  if api.cap ≤ api.filters.keys.card then (api, .failed ("error creating " ++ name ++ ": max limit reached"))
  else
    match err with
    | some text => (api, .failed (wrap text))
    | none => (api.install id typ blockHash crit, .filterId id)

def noCriteria : FilterCriteria := ⟨none, none, [], []⟩

/-- Source: `filters/api.go` `NewPendingTransactionFilter` -/
def newPendingTransactionFilter (api : FilterApi) (id : ℕ) (err : Option String) : FilterApi × Answer :=
  api.create "pending tx filter" ("error creating pending tx filter: " ++ ·) id .pendingTransactions none noCriteria err

/-- Source: `filters/api.go` `NewBlockFilter` -/
def newBlockFilter (api : FilterApi) (id : ℕ) (err : Option String) : FilterApi × Answer :=
  api.create "block filter" ("error creating block filter: " ++ ·) id .blocks none noCriteria err

/-- The error of a range that ends before it begins.
Source: `filter_system.go` `SubscribeLogs` -/
def rangeError (crit : FilterCriteria) : Option String :=
  let begin_ := (crit.fromBlock.map int64).getD (-1)
  let end_ := (crit.toBlock.map int64).getD (-1)
  if (begin_ = -1 ∧ end_ = -1) ∨ (0 ≤ begin_ ∧ 0 ≤ end_ ∧ begin_ ≤ end_) ∨ (0 ≤ begin_ ∧ end_ = -1) then none
  else some s!"invalid from and to block combination: from > to ({begin_} > {end_})"

/-- Source: `filters/api.go` `NewFilter` -/
def newFilter (api : FilterApi) (id : ℕ) (blockHash : Option Hash) (crit : FilterCriteria) (err : Option String) :
    FilterApi × Answer :=
  api.create "filter" (fun text => text) id .logs blockHash crit ((rangeError crit).or err)

/-- Source: `filters/api.go`, the goroutines, an event -/
def event (codec : ResponseCodec) (api : FilterApi) (id : ℕ) (w : Worker) (data : EventData) : FilterApi × Answer :=
  match w.handle codec data with
  | .skip => (api, .nothing)
  | .quit => ({ api with workers := api.workers.delete id }, .nothing)
  | .append hashes logs =>
    match api.filters.get id with
    | none => (api, .found hashes logs)
    | some f =>
      ({ api with filters := api.filters.set id { f with hashes := f.hashes ++ hashes, logs := f.logs ++ logs } },
        .found hashes logs)

/-- Source: `filters/api.go`, the goroutines, `if !ok` -/
def eventsClosed (api : FilterApi) (id : ℕ) : FilterApi :=
  { api with filters := api.filters.delete id, workers := api.workers.delete id }

/-- The goroutine for pending transactions does not return.
Source: `filters/api.go`, the goroutines, `case <-errCh` -/
def errClosed (api : FilterApi) (id : ℕ) (w : Worker) : FilterApi :=
  if w.typ = .pendingTransactions then { api with filters := api.filters.delete id } else api.eventsClosed id

/-- Source: `filters/api.go` `UninstallFilter` -/
def uninstallFilter (api : FilterApi) (id : ℕ) : FilterApi × Answer :=
  match api.filters.get id with
  | none => (api, .removed false)
  | some _ => ({ api with filters := api.filters.delete id, unsubscribed := api.unsubscribed ++ [id] }, .removed true)

/-- `none` if the call blocks.
Source: `filters/api.go` `GetFilterChanges` -/
def getFilterChanges (api : FilterApi) (id : ℕ) : Option (FilterApi × Answer) :=
  match api.filters.get id with
  | none => some (api, .notFound id)
  | some f => do
    let deadline ← f.deadline.restart api.now filterDeadline
    match f.typ with
    | .pendingTransactions | .blocks =>
      pure ({ api with filters := api.filters.set id { f with deadline := deadline, hashes := [] } }, .hashes f.hashes)
    | .logs =>
      pure ({ api with filters := api.filters.set id { f with deadline := deadline, logs := [] } }, .logs f.logs)

/-- Source: `filters/api.go` `timeoutLoop`, the body of the loop over the filters -/
def expire (api : FilterApi) (id : ℕ) : FilterApi :=
  if (api.filters.get id).any fun f => f.deadline.ready api.now then
    { api with filters := api.filters.delete id, unsubscribed := api.unsubscribed ++ [id] }
  else api

/-- Source: `filters/api.go` `timeoutLoop`, after `<-ticker.C` -/
def timeout (api : FilterApi) : FilterApi := (api.filters.sortedKeys (· ≤ ·)).foldl expire api

/-- The state after a step, and what the step returned; `none` if the step cannot be taken. -/
def step (codec : ResponseCodec) (api : FilterApi) : ApiStep → Option (FilterApi × Answer)
  | .elapse duration => some ({ api with now := api.now + duration }, .nothing)
  | .newPendingTransactionFilter id err =>
    if id ∈ api.issued then none else some (api.newPendingTransactionFilter id err)
  | .newBlockFilter id err => if id ∈ api.issued then none else some (api.newBlockFilter id err)
  | .newFilter id blockHash crit err =>
    if id ∈ api.issued then none else some (api.newFilter id blockHash crit err)
  | .event id data => (api.workers.get id).map fun w => api.event codec id w data
  | .eventsClosed id => (api.workers.get id).map fun _ => (api.eventsClosed id, .nothing)
  | .errClosed id =>
    -- The channel is closed where the event loop received the subscription from `Unsubscribe`.
    if id ∈ api.unsubscribed then (api.workers.get id).map fun w => (api.errClosed id w, .nothing) else none
  | .uninstallFilter id => some (api.uninstallFilter id)
  | .getFilterChanges id => api.getFilterChanges id
  | .timeout => some (api.timeout, .nothing)

/-! ### What the loop does -/

/-- The timer of the filter has fired. -/
def Expired (api : FilterApi) (id : ℕ) : Bool := (api.filters.get id).any fun f => f.deadline.ready api.now

/-- The loop over the filters deletes those that have expired. -/
theorem foldl_expire {ids : List ℕ} (hnodup : ids.Nodup) (api : FilterApi) :
    ids.foldl expire api =
      { api with
        filters := (ids.filter api.Expired).foldl GoMap.delete api.filters
        unsubscribed := api.unsubscribed ++ ids.filter api.Expired } := by
  induction ids generalizing api with
  | nil => simp
  | cons id ids ih =>
      obtain ⟨hid, hnodup'⟩ := List.nodup_cons.mp hnodup
      rw [List.foldl_cons, ih hnodup']
      by_cases hexpired : api.Expired id = true
      · have hone : api.expire id =
            { api with filters := api.filters.delete id, unsubscribed := api.unsubscribed ++ [id] } := if_pos hexpired
        -- The filters that are still to be looked at are as they were.
        have hrest : ids.filter (api.expire id).Expired = ids.filter api.Expired := by
          apply List.filter_congr
          intro j hj
          have hne : j ≠ id := by
            rintro rfl
            exact hid hj
          rw [hone]
          simp only [Expired, GoMap.get_delete_of_ne _ hne]
        rw [hrest, List.filter_cons_of_pos hexpired, hone]
        simp
      · have hone : api.expire id = api := if_neg hexpired
        rw [hone, List.filter_cons_of_neg hexpired]

/-- The filters that the loop removes, in order. -/
def expired (api : FilterApi) : List ℕ := (api.filters.sortedKeys (· ≤ ·)).filter api.Expired

/-- A tick deletes the filters that have expired, and unsubscribes them. -/
theorem timeout_eq (api : FilterApi) :
    api.timeout =
      { api with
        filters := api.expired.foldl GoMap.delete api.filters
        unsubscribed := api.unsubscribed ++ api.expired } :=
  foldl_expire (GoMap.nodup_sortedKeys _ _) api

/-- The expired filters are those whose deadline has passed. -/
theorem mem_expired {api : FilterApi} {id : ℕ} :
    id ∈ api.expired ↔ ∃ f, api.filters.get id = some f ∧ f.deadline.ready api.now = true := by
  unfold expired
  rw [List.mem_filter, GoMap.mem_sortedKeys]
  unfold Expired
  cases api.filters.get id with
  | none => simp
  | some f => simp

/-- **The loop removes the filters whose timers have fired**, and no others. -/
theorem timeout_filters (api : FilterApi) (id : ℕ) :
    api.timeout.filters.get id = (api.filters.get id).filter fun f => !f.deadline.ready api.now := by
  rw [timeout_eq]
  dsimp only
  rw [GoMap.get_foldl_delete]
  cases hf : api.filters.get id with
  | none => simp
  | some f =>
      have hiff : id ∈ api.expired ↔ f.deadline.ready api.now = true := by
        rw [mem_expired, hf]
        simp
      by_cases hready : f.deadline.ready api.now = true
      · simp [hiff.mpr hready, hready, Option.filter]
      · simp [mt hiff.mp hready, hready, Option.filter]

end FilterApi

/-! ## What each step does -/

/-- The identifier that a call would give to its filter. -/
def ApiStep.installs : ApiStep → Option ℕ
  | .newPendingTransactionFilter id _ | .newBlockFilter id _ | .newFilter id _ _ _ => some id
  | .elapse _ | .event _ _ | .eventsClosed _ | .errClosed _ | .uninstallFilter _ | .getFilterChanges _
  | .timeout => none

/-- What a poll returns. -/
def Filter.changes (f : Filter) : Answer :=
  match f.typ with
  | .pendingTransactions | .blocks => .hashes f.hashes
  | .logs => .logs f.logs

/-- The filter after a poll. -/
def Filter.taken (f : Filter) (deadline : Timer) : Filter :=
  match f.typ with
  | .pendingTransactions | .blocks => { f with deadline := deadline, hashes := [] }
  | .logs => { f with deadline := deadline, logs := [] }

open FilterApi in
/-- What a step does to the filters, and what it returns. -/
inductive Effect (codec : ResponseCodec) (api : FilterApi) : ApiStep → Answer → FilterApi → Prop where
  | elapsed (duration : ℕ) : Effect codec api (.elapse duration) .nothing { api with now := api.now + duration }
  | refused {a : ApiStep} {id : ℕ} (hid : a.installs = some id) (text : String) : Effect codec api a (.failed text) api
  | installed {a : ApiStep} {id : ℕ} (hid : a.installs = some id) (hnew : id ∉ api.issued)
      (hroom : (api.filters.keys.card : ℤ) < api.cap) (typ : SubscriptionType) (blockHash : Option Hash)
      (crit : FilterCriteria) : Effect codec api a (.filterId id) (api.install id typ blockHash crit)
  | skipped (id : ℕ) (data : EventData) : Effect codec api (.event id data) .nothing api
  | quit (id : ℕ) (data : EventData) :
      Effect codec api (.event id data) .nothing { api with workers := api.workers.delete id }
  | lost {id : ℕ} {w : Worker} (hw : api.workers.get id = some w) (hnone : api.filters.get id = none)
      (data : EventData) (hashes : List Hash) (logs : List Log) :
      Effect codec api (.event id data) (.found hashes logs) api
  | found {id : ℕ} {w : Worker} {f : Filter} (hw : api.workers.get id = some w) (hf : api.filters.get id = some f)
      {data : EventData} {hashes : List Hash} {logs : List Log} (hdata : w.handle codec data = .append hashes logs) :
      Effect codec api (.event id data) (.found hashes logs)
        { api with filters := api.filters.set id { f with hashes := f.hashes ++ hashes, logs := f.logs ++ logs } }
  | closed (id : ℕ) : Effect codec api (.eventsClosed id) .nothing (api.eventsClosed id)
  | errored (id : ℕ) (w : Worker) : Effect codec api (.errClosed id) .nothing (api.errClosed id w)
  | uninstalled {id : ℕ} {f : Filter} (hf : api.filters.get id = some f) :
      Effect codec api (.uninstallFilter id) (.removed true)
        { api with filters := api.filters.delete id, unsubscribed := api.unsubscribed ++ [id] }
  | missing {id : ℕ} (hnone : api.filters.get id = none) : Effect codec api (.uninstallFilter id) (.removed false) api
  | taken {id : ℕ} {f : Filter} (hf : api.filters.get id = some f) {deadline : Timer}
      (hdeadline : f.deadline.restart api.now filterDeadline = some deadline) :
      Effect codec api (.getFilterChanges id) f.changes { api with filters := api.filters.set id (f.taken deadline) }
  | unknown {id : ℕ} (hnone : api.filters.get id = none) :
      Effect codec api (.getFilterChanges id) (.notFound id) api
  | swept : Effect codec api .timeout .nothing api.timeout

section effects

variable {codec : ResponseCodec} {api api' : FilterApi} {a : ApiStep} {ans : Answer}

/-- Creating a filter has one of the effects. -/
theorem effect_of_create {id : ℕ} (hid : a.installs = some id) (hnew : id ∉ api.issued) {name : String}
    {wrap : String → String} {typ : SubscriptionType} {blockHash : Option Hash} {crit : FilterCriteria}
    {err : Option String} (h : api.create name wrap id typ blockHash crit err = (api', ans)) :
    Effect codec api a ans api' := by
  unfold FilterApi.create at h
  split_ifs at h with hcap
  · cases h
    exact .refused hid _
  · cases err with
    | some text =>
        cases h
        exact .refused hid _
    | none =>
        cases h
        exact .installed hid hnew (not_le.mp hcap) typ blockHash crit

/-- So has an event for one. -/
theorem effect_of_event {id : ℕ} {w : Worker} (hw : api.workers.get id = some w) {data : EventData}
    (h : api.event codec id w data = (api', ans)) : Effect codec api (.event id data) ans api' := by
  unfold FilterApi.event at h
  cases hdata : w.handle codec data with
  | skip =>
      rw [hdata] at h
      cases h
      exact .skipped id data
  | quit =>
      rw [hdata] at h
      cases h
      exact .quit id data
  | append hashes logs =>
      rw [hdata] at h
      cases hf : api.filters.get id with
      | none =>
          rw [hf] at h
          cases h
          exact .lost hw hf data hashes logs
      | some f =>
          rw [hf] at h
          cases h
          exact .found hw hf hdata

/-- So has a poll. -/
theorem effect_of_getFilterChanges {id : ℕ} (h : api.getFilterChanges id = some (api', ans)) :
    Effect codec api (.getFilterChanges id) ans api' := by
  unfold FilterApi.getFilterChanges at h
  cases hf : api.filters.get id with
  | none =>
      rw [hf] at h
      cases h
      exact .unknown hf
  | some f =>
      rw [hf] at h
      obtain ⟨deadline, hdeadline, h⟩ := Option.bind_eq_some_iff.mp h
      have htaken : Effect codec api (.getFilterChanges id) f.changes
        { api with filters := api.filters.set id (f.taken deadline) } := .taken hf hdeadline
      unfold Filter.changes Filter.taken at htaken
      cases htyp : f.typ with
      | _ =>
          rw [htyp] at h htaken
          cases h
          exact htaken

/-- **A step that is taken** has one of the effects. -/
theorem effect_of_step (h : api.step codec a = some (api', ans)) : Effect codec api a ans api' := by
  cases a with
  | elapse duration =>
      cases h
      exact .elapsed duration
  | newPendingTransactionFilter id err =>
      simp only [FilterApi.step] at h
      split_ifs at h with hissued
      exact effect_of_create rfl hissued (Option.some.inj h)
  | newBlockFilter id err =>
      simp only [FilterApi.step] at h
      split_ifs at h with hissued
      exact effect_of_create rfl hissued (Option.some.inj h)
  | newFilter id blockHash crit err =>
      simp only [FilterApi.step] at h
      split_ifs at h with hissued
      exact effect_of_create rfl hissued (Option.some.inj h)
  | event id data =>
      obtain ⟨w, hw, h⟩ := Option.map_eq_some_iff.mp h
      exact effect_of_event hw h
  | eventsClosed id =>
      obtain ⟨w, -, h⟩ := Option.map_eq_some_iff.mp h
      cases h
      exact .closed id
  | errClosed id =>
      simp only [FilterApi.step] at h
      split_ifs at h
      obtain ⟨w, -, h⟩ := Option.map_eq_some_iff.mp h
      cases h
      exact .errored id w
  | uninstallFilter id =>
      have h := Option.some.inj h
      unfold FilterApi.uninstallFilter at h
      cases hf : api.filters.get id with
      | none =>
          rw [hf] at h
          cases h
          exact .missing hf
      | some f =>
          rw [hf] at h
          cases h
          exact .uninstalled hf
  | getFilterChanges id => exact effect_of_getFilterChanges h
  | timeout =>
      cases h
      exact .swept

end effects

end Smartdoge.Rpc
