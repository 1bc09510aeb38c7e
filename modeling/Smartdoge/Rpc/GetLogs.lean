import Smartdoge.Evm.Block
import Smartdoge.Rpc.Filters
import Smartdoge.Types.Int64

/-!
# Queries for logs

`eth_getLogs` visits the blocks of a range. Of each it asks for the bloom filter first, and for the logs only if
the filter does not exclude a match.

* `selects_iff`: what `FilterLogs` looks for in a log.
* **`blockLogs_eq_filterLogs`**: the test of the bloom filter loses no log.
* `collect_ok`, `collect_error`: the loop over blocks that are there returns their logs, or an error if these
  are more than the limit.
* **`logs_answers_iff`**: a query for a range is answered by the logs of its blocks up to the head, if and only if
  it does not reach beyond the head, or finds too many logs before it does. Queries that reach beyond fail at the
  first block that is not there.
* `logs_beyond_head`: a query for the latest block and the one after it.
-/

set_option linter.unusedSectionVars false

namespace Smartdoge.Rpc

open Smartdoge.Lib
open Smartdoge.Lib.Writes
open Smartdoge.Statedb
open Smartdoge.Evm
open Smartdoge.Ante

/-! ## The filter -/

/-- What a filter reads of a header. -/
structure LogHeader where
  /-- A `*big.Int`. -/
  number : Option ℤ
  bloom : ℕ

/-- Source: `filters/api.go` `Backend` -/
structure LogBackend where
  headerByHash : Hash → Except String (Option LogHeader)
  /-- `HeaderByNumber` for the latest block. -/
  latestHeader : Except String (Option LogHeader)
  blockBloom : ℤ → Except String ℕ
  getLogsByHeight : ℤ → Except String (List (List Log))

/-- What ends a query without a result. -/
inductive LogsError where
  /-- "failed to fetch header by hash". -/
  | headerByHash (text : String)
  /-- "unknown block header %s". -/
  | unknownHeader (hash : Hash)
  /-- "failed to fetch header by number (latest)". -/
  | latestHeader (text : String)
  /-- "maximum [from, to] blocks distance: %d". -/
  | distance (blockLimit : ℤ)
  | bloom (text : String)
  /-- "failed to fetch logs block number %d". -/
  | fetchLogs (height : ℤ) (text : String)
  /-- "failed to fetch block by number %d". -/
  | fetchBlock (height : ℤ) (err : LogsError)
  /-- "query returned more than %d results". -/
  | moreThan (logLimit : ℕ)
  /-- A panic of the runtime. -/
  | nilDereference
deriving DecidableEq

/-- The fields of a `Filter` that it uses.
Source: `filters/filters.go` `Filter` -/
structure LogFilter where
  blockHash : Option Hash
  criteria : FilterCriteria

/-- Source: `filters/filters.go` `NewBlockFilter` -/
def newBlockFilter (hash : Hash) (criteria : FilterCriteria) : LogFilter := ⟨some hash, criteria⟩

/-- Source: `filters/filters.go` `NewRangeFilter` -/
def newRangeFilter (begin_ end_ : ℤ) (addresses : List Address) (topics : List (List Hash)) : LogFilter :=
  ⟨none, ⟨some begin_, some end_, addresses, topics⟩⟩

section filters

variable [Keccak]

/-- Source: `filters/utils.go` `bloomFilter` -/
def bloomFilter (bloom : ℕ) (addresses : List Address) (topics : List (List Hash)) : Bool :=
  if addresses ≠ [] ∧ !(addresses.any fun addr => bloomLookup bloom addr.bytes) then false
  else topics.all fun sub => sub = [] ∨ sub.any fun topic => bloomLookup bloom topic.bytes

namespace LogFilter

variable (f : LogFilter) (backend : LogBackend)

/-- The criteria without bounds, as `blockLogs` passes them on. -/
def unbounded : FilterCriteria := ⟨none, none, f.criteria.addresses, f.criteria.topics⟩

/-- Source: `filters/filters.go` `blockLogs` -/
def blockLogs (height : ℤ) (bloom : ℕ) : Except LogsError (List Log) :=
  if !bloomFilter bloom f.criteria.addresses f.criteria.topics then .ok []
  else
    match backend.getLogsByHeight height with
    | .error text => .error (.fetchLogs height text)
    | .ok logsList => .ok (filterLogs f.unbounded logsList.flatten)

/-- The body of the loop.
Source: `filters/filters.go` `Logs` -/
def collectStep (logLimit : ℕ) (logs : List Log) (height : ℤ) : Except LogsError (List Log) := do
  let bloom ← (backend.blockBloom height).mapError .bloom
  let filtered ← (f.blockLogs backend height bloom).mapError (.fetchBlock height)
  if logs.length + filtered.length > logLimit then .error (.moreThan logLimit)
  else pure (logs ++ filtered)

end LogFilter

/-- A bound of the range: negative for the latest block, and 0 for the first. -/
def rangeBound (head block : ℤ) : ℤ :=
  if int64 block < 0 then head else if int64 block = 0 then 1 else int64 block

/-- Source: `filters/filters.go` `maxToOverhang` -/
def maxToOverhang : ℤ := 600

namespace LogFilter

variable (f : LogFilter) (backend : LogBackend)

/-- The loop over the range. Its counter does not wrap: `to` is not `math.MaxInt64` unless the head is below it,
and then the loop ends at the first block above the head.
Source: `filters/filters.go` `Logs` -/
def collect (logLimit : ℕ) (range : List ℤ) (logs : List Log) : Except LogsError (List Log) :=
  range.foldlM (f.collectStep backend logLimit) logs

/-- `Logs` without a block hash, with the head.
Source: `filters/filters.go` `Logs` -/
def rangeLogs (logLimit : ℕ) (blockLimit head fromBlock toBlock : ℤ) : Except LogsError (List Log) :=
  let first := rangeBound head fromBlock
  let last := rangeBound head toBlock
  if int64 (last - first) > blockLimit then .error (.distance blockLimit)
  else if first > head then .ok []
  else
    let last := if last > int64 (head + maxToOverhang) then int64 (head + maxToOverhang) else last
    f.collect backend logLimit (heights first last) []

/-- Source: `filters/filters.go` `Logs` -/
def logs (logLimit : ℕ) (blockLimit : ℤ) : Except LogsError (List Log) := do
  match f.blockHash.filter (· ≠ .zero 32) with
  | some hash =>
    match ← (backend.headerByHash hash).mapError .headerByHash with
    | none => .error (.unknownHeader hash)
    | some header =>
      match header.number with
      | none => .error .nilDereference
      | some number => f.blockLogs backend (int64 number) header.bloom
  | none =>
    match ← backend.latestHeader.mapError .latestHeader with
    | none => .ok []
    | some header =>
      match header.number, f.criteria.fromBlock, f.criteria.toBlock with
      | none, _, _ => .ok []
      -- A block filter has no bounds, and comes here if its hash is zero.
      | some _, none, _ => .error .nilDereference
      | some _, some _, none => .error .nilDereference
      | some number, some fromBlock, some toBlock =>
        f.rangeLogs backend logLimit blockLimit (int64 number) fromBlock toBlock

end LogFilter

/-- The caps are those of the configuration, which are not negative.
Source: `filters/api.go` `GetLogs` -/
def getLogs (backend : LogBackend) (logsCap : ℕ) (blockRangeCap : ℤ) (blockHash : Option Hash)
    (crit : FilterCriteria) : Except LogsError (List Log) :=
  let filter :=
    match blockHash with
    | some hash => newBlockFilter hash crit
    | none =>
      let begin_ := (crit.fromBlock.map int64).getD (-1)
      let end_ := (crit.toBlock.map int64).getD (-1)
      newRangeFilter begin_ end_ crit.addresses crit.topics
  filter.logs backend logsCap blockRangeCap

/-! ## The test of the bloom filter -/

/-- What a query asks of a log: one of the addresses, and one of the topics at each position where some are given.
No address, or no topic at a position, asks for nothing there. -/
def Matches (addresses : List Address) (topics : List (List Hash)) (log : Log) : Prop :=
  (addresses = [] ∨ log.address ∈ addresses) ∧ topics.length ≤ log.topics.length ∧
    ∀ (i : ℕ) (sub : List Hash) (topic : Hash), topics[i]? = some sub → log.topics[i]? = some topic → sub = [] ∨ topic ∈ sub

/-- The comparison of two lists position by position. -/
theorem zip_all_iff {α β : Type} {p : α × β → Bool} {xs : List α} {ys : List β} :
    (xs.zip ys).all p = true ↔ ∀ (i : ℕ) (x : α) (y : β), xs[i]? = some x → ys[i]? = some y → p (x, y) = true := by
  rw [List.all_eq_true]
  constructor
  · intro h i x y hx hy
    apply h (x, y)
    apply List.mem_of_getElem? (i := i)
    rw [List.getElem?_zip_eq_some]
    exact ⟨hx, hy⟩
  · rintro h ⟨x, y⟩ hmem
    obtain ⟨i, hi⟩ := List.mem_iff_getElem?.mp hmem
    rw [List.getElem?_zip_eq_some] at hi
    exact h i x y hi.1 hi.2

/-- **What `FilterLogs` looks for**, where no bounds are given. -/
theorem selects_iff (addresses : List Address) (topics : List (List Hash)) (log : Log) :
    FilterCriteria.Selects ⟨none, none, addresses, topics⟩ log = true ↔ Matches addresses topics log := by
  have htopics : ((topics.zip log.topics).all fun pair => pair.1 = [] ∨ pair.2 ∈ pair.1) = true ↔
      ∀ (i : ℕ) (sub : List Hash) (topic : Hash), topics[i]? = some sub → log.topics[i]? = some topic → sub = [] ∨ topic ∈ sub := by
    rw [zip_all_iff]
    simp only [decide_eq_true_eq]
  unfold FilterCriteria.Selects Matches
  by_cases haddress : addresses ≠ [] ∧ log.address ∉ addresses
  · simp [FilterCriteria.bound, haddress]
  · have hyes : addresses = [] ∨ log.address ∈ addresses := by tauto
    by_cases hlength : topics.length > log.topics.length
    · simp [FilterCriteria.bound, haddress, hlength]
    · rw [← htopics]
      simp [FilterCriteria.bound, haddress, hyes, hlength, Nat.le_of_not_lt hlength]

instance (addresses : List Address) (topics : List (List Hash)) (log : Log) :
    Decidable (Matches addresses topics log) :=
  decidable_of_iff _ (selects_iff addresses topics log)

/-- `FilterLogs` keeps the logs that match, in their order. -/
theorem filterLogs_eq (f : LogFilter) (logs : List Log) :
    filterLogs f.unbounded logs = logs.filter fun log => Matches f.criteria.addresses f.criteria.topics log := by
  unfold filterLogs
  apply List.filter_congr
  intro log _
  rw [Bool.eq_iff_iff, decide_eq_true_eq]
  exact selects_iff f.criteria.addresses f.criteria.topics log

/-- A bloom filter that finds a log does not exclude criteria that the log meets. -/
theorem bloomFilter_of_matches {bloom : ℕ} {addresses : List Address} {topics : List (List Hash)} {log : Log}
    (hfinds : FindsLog bloom log) (hmatches : Matches addresses topics log) :
    bloomFilter bloom addresses topics = true := by
  obtain ⟨haddress, hlength, htopics⟩ := hmatches
  have hlookup : ∀ topic ∈ log.topics, bloomLookup bloom topic.bytes = true := by
    intro topic htopic
    apply hfinds
    exact List.mem_cons_of_mem _ (List.mem_map_of_mem htopic)
  have hincluded : ¬(addresses ≠ [] ∧ !(addresses.any fun addr => bloomLookup bloom addr.bytes)) := by
    rintro ⟨hsome, hnone⟩
    have hmem := haddress.resolve_left hsome
    have hfound : bloomLookup bloom log.address.bytes = true := hfinds _ List.mem_cons_self
    have hany : (addresses.any fun addr => bloomLookup bloom addr.bytes) = true :=
      List.any_eq_true.mpr ⟨log.address, hmem, hfound⟩
    rw [hany] at hnone
    cases hnone
  unfold bloomFilter
  rw [if_neg hincluded, List.all_eq_true]
  intro sub hsub
  -- The position of `sub` is one of the log's, and the topic there is one that the filter finds.
  obtain ⟨i, hi, rfl⟩ := List.mem_iff_getElem.mp hsub
  have hi' : i < log.topics.length := Nat.lt_of_lt_of_le hi hlength
  have htopic := htopics i topics[i] log.topics[i] (List.getElem?_eq_getElem hi) (List.getElem?_eq_getElem hi')
  rw [decide_eq_true_eq]
  refine htopic.imp id fun hmem => ?_
  exact List.any_eq_true.mpr ⟨_, hmem, hlookup _ (List.getElem_mem hi')⟩

/-- The logs of a block that the query matches. -/
theorem blockLogs_ok (f : LogFilter) {backend : LogBackend} {height : ℤ} {bloom : ℕ} {logsList : List (List Log)}
    (hlogs : backend.getLogsByHeight height = .ok logsList)
    (hbloom : ∀ log ∈ logsList.flatten, FindsLog bloom log) :
    f.blockLogs backend height bloom = .ok (filterLogs f.unbounded logsList.flatten) := by
  unfold LogFilter.blockLogs
  rw [hlogs]
  cases hfilter : bloomFilter bloom f.criteria.addresses f.criteria.topics with
  | true => rfl
  | false =>
      have hnone : filterLogs f.unbounded logsList.flatten = [] := by
        unfold filterLogs
        rw [List.filter_eq_nil_iff]
        intro log hlog hselects
        have hmatches := (selects_iff f.criteria.addresses f.criteria.topics log).mp hselects
        rw [bloomFilter_of_matches (hbloom log hlog) hmatches] at hfilter
        cases hfilter
      rw [hnone]
      rfl

/-- The backend of a chain with these blocks. -/
def chainBackend (blocks : List (List (List Log))) : LogBackend where
  headerByHash _ := .ok none
  latestHeader := .ok (some ⟨some blocks.length, logsBloom (blocks.getLastD []).flatten⟩)
  blockBloom height :=
    if 1 ≤ height ∧ height ≤ blocks.length then .ok (logsBloom (blocks.getD (height - 1).toNat []).flatten)
    else .error "height must be less than or equal to the current blockchain height"
  getLogsByHeight height :=
    if 1 ≤ height ∧ height ≤ blocks.length then .ok (blocks.getD (height - 1).toNat [])
    else .error "height must be less than or equal to the current blockchain height"

/-- **The test of the bloom filter loses nothing.** For every block whose filter finds its logs, `blockLogs` returns
what `FilterLogs` selects, and these are the logs that match, in their order. -/
theorem blockLogs_eq_filterLogs (f : LogFilter) (backend : LogBackend) (height : ℤ) (bloom : ℕ)
    (logsList : List (List Log)) (hlogs : backend.getLogsByHeight height = .ok logsList)
    (hbloom : ∀ log ∈ logsList.flatten, FindsLog bloom log) :
    f.blockLogs backend height bloom = .ok (filterLogs f.unbounded logsList.flatten) ∧
      filterLogs f.unbounded logsList.flatten =
        logsList.flatten.filter fun log => Matches f.criteria.addresses f.criteria.topics log :=
  ⟨blockLogs_ok f hlogs hbloom, filterLogs_eq f logsList.flatten⟩

end filters

/-- A block with a log: the test of the bloom filter lets it through. -/
theorem blockLogs_second :
    letI := sampleKeccak
    let log : Log := ⟨.ofNat 20 2, [.ofNat 32 2], [], 2, .zero 32, 0, .zero 32, 0, false⟩
    let f := newRangeFilter 0 (-1) [.ofNat 20 2] [[.ofNat 32 2, .ofNat 32 3]]
    filterLogs f.unbounded [log] = [log] ∧
      f.blockLogs (chainBackend [[[log]]]) 1 (logsBloom [log]) = .ok (filterLogs f.unbounded [log]) := by
  let _ := sampleKeccak
  intro log f
  refine ⟨by decide +kernel, ?_⟩
  exact (blockLogs_eq_filterLogs f (chainBackend [[[log]]]) 1 (logsBloom [log]) [[log]] rfl
    (fun _ hlog => logsBloom_finds hlog)).1

section filters

variable [Keccak]

/-! ## The loop -/

/-- A backend that serves the blocks up to the head, and no others. The bloom filter of a block finds its logs. -/
structure LogBackend.Serves (backend : LogBackend) (head : ℤ) (logsAt : ℤ → List (List Log)) : Prop where
  header : ∃ header number, backend.latestHeader = .ok (some header) ∧ header.number = some number ∧
    int64 number = head
  bloom : ∀ height, 1 ≤ height → height ≤ head → ∃ bloom, backend.blockBloom height = .ok bloom ∧
    ∀ log ∈ (logsAt height).flatten, FindsLog bloom log
  noBloom : ∀ height, ¬(1 ≤ height ∧ height ≤ head) → ∃ text, backend.blockBloom height = .error text
  logs : ∀ height, 1 ≤ height → height ≤ head → backend.getLogsByHeight height = .ok (logsAt height)
  noLogs : ∀ height, ¬(1 ≤ height ∧ height ≤ head) → ∃ text, backend.getLogsByHeight height = .error text

/-- The logs of a block that the query matches. -/
def LogFilter.matching (f : LogFilter) (logsAt : ℤ → List (List Log)) (height : ℤ) : List Log :=
  (logsAt height).flatten.filter fun log => Matches f.criteria.addresses f.criteria.topics log

variable {f : LogFilter} {backend : LogBackend} {head : ℤ} {logsAt : ℤ → List (List Log)}

/-- One block that is there. -/
theorem collectStep_served (hserves : backend.Serves head logsAt) {height : ℤ} (hlow : 1 ≤ height)
    (hhigh : height ≤ head) (logLimit : ℕ) (logs : List Log) :
    f.collectStep backend logLimit logs height =
      if logs.length + (f.matching logsAt height).length > logLimit then .error (.moreThan logLimit)
      else .ok (logs ++ f.matching logsAt height) := by
  obtain ⟨bloom, hbloom, hfinds⟩ := hserves.bloom height hlow hhigh
  have hlogs := blockLogs_ok f (hserves.logs height hlow hhigh) hfinds
  rw [filterLogs_eq] at hlogs
  unfold LogFilter.collectStep
  rw [hbloom]
  simp only [Except.mapError, bind, Except.bind, hlogs]
  rfl

/-- One block that is not there. -/
theorem collectStep_missing (hserves : backend.Serves head logsAt) {height : ℤ}
    (hmissing : ¬(1 ≤ height ∧ height ≤ head)) (logLimit : ℕ) (logs : List Log) :
    ∃ err, f.collectStep backend logLimit logs height = .error err := by
  obtain ⟨text, hbloom⟩ := hserves.noBloom height hmissing
  refine ⟨.bloom text, ?_⟩
  unfold LogFilter.collectStep
  rw [hbloom]
  rfl

/-- The loop collects the logs of the first height and goes on. -/
theorem collect_cons (logLimit : ℕ) (height : ℤ) (range : List ℤ) (logs : List Log) :
    f.collect backend logLimit (height :: range) logs =
      (f.collectStep backend logLimit logs height).bind (f.collect backend logLimit range) :=
  List.foldlM_cons

/-- **Blocks that are there** and have at most as many logs as the limit: the loop returns their logs. -/
theorem collect_ok (hserves : backend.Serves head logsAt) {logLimit : ℕ} {range : List ℤ} {logs : List Log}
    (hrange : ∀ height ∈ range, 1 ≤ height ∧ height ≤ head)
    (hlimit : logs.length + (range.flatMap (f.matching logsAt)).length ≤ logLimit) :
    f.collect backend logLimit range logs = .ok (logs ++ range.flatMap (f.matching logsAt)) := by
  induction range generalizing logs with
  | nil =>
      rw [List.flatMap_nil, List.append_nil]
      rfl
  | cons height range ih =>
      obtain ⟨⟨hlow, hhigh⟩, hrest⟩ := List.forall_mem_cons.mp hrange
      rw [List.flatMap_cons, List.length_append] at hlimit
      have hfits : ¬logs.length + (f.matching logsAt height).length > logLimit := by omega
      rw [collect_cons, collectStep_served hserves hlow hhigh, if_neg hfits]
      show f.collect backend logLimit range (logs ++ f.matching logsAt height) = _
      rw [ih hrest (by rw [List.length_append]; omega), List.flatMap_cons, List.append_assoc]

/-- **Blocks that are there** and have more logs than the limit: the loop fails. -/
theorem collect_error (hserves : backend.Serves head logsAt) {logLimit : ℕ} {range : List ℤ} {logs : List Log}
    (hrange : ∀ height ∈ range, 1 ≤ height ∧ height ≤ head) (hlogs : logs.length ≤ logLimit)
    (hlimit : logLimit < logs.length + (range.flatMap (f.matching logsAt)).length) :
    ∃ err, f.collect backend logLimit range logs = .error err := by
  induction range generalizing logs with
  | nil =>
      rw [List.flatMap_nil, List.length_nil] at hlimit
      omega
  | cons height range ih =>
      obtain ⟨⟨hlow, hhigh⟩, hrest⟩ := List.forall_mem_cons.mp hrange
      rw [List.flatMap_cons, List.length_append] at hlimit
      rw [collect_cons, collectStep_served hserves hlow hhigh]
      by_cases hmore : logs.length + (f.matching logsAt height).length > logLimit
      · rw [if_pos hmore]
        exact ⟨_, rfl⟩
      · rw [if_neg hmore]
        show ∃ err, f.collect backend logLimit range (logs ++ f.matching logsAt height) = .error err
        apply ih hrest
        · rw [List.length_append]
          omega
        · rw [List.length_append]
          omega

/-- The loop fails at a block that is not there, if not before. -/
theorem collect_missing (hserves : backend.Serves head logsAt) {logLimit : ℕ} {range rest : List ℤ} {height : ℤ}
    (hmissing : ¬(1 ≤ height ∧ height ≤ head)) (logs : List Log) :
    ∃ err, f.collect backend logLimit (range ++ height :: rest) logs = .error err := by
  induction range generalizing logs with
  | nil =>
      obtain ⟨err, herr⟩ := collectStep_missing (f := f) hserves hmissing logLimit logs
      refine ⟨err, ?_⟩
      rw [List.nil_append, collect_cons, herr]
      rfl
  | cons first range ih =>
      rw [List.cons_append, collect_cons]
      cases hstep : f.collectStep backend logLimit logs first with
      | error err => exact ⟨err, rfl⟩
      | ok logs' => exact ih logs'

/-! ## Ranges -/

/-- The matching logs of the blocks of a range that are there. -/
def LogFilter.expected (f : LogFilter) (logsAt : ℤ → List (List Log)) (head first last : ℤ) : List Log :=
  (heights (max first 1) (min last head)).flatMap (f.matching logsAt)

/-- The query is answered by these logs, or by an error if they are too many. -/
def Answers (result : Except LogsError (List Log)) (logLimit : ℕ) (logs : List Log) : Prop :=
  if logs.length ≤ logLimit then result = .ok logs else ∃ err, result = .error err

/-- What a query must be like to be answered: its range is empty, or does not reach beyond the head, or has too
many logs anyway. A head so large that the overhang overflows answers every query with no logs. -/
def InReach (head first last : ℤ) (logLimit : ℕ) (expected : List Log) : Prop :=
  last < first ∨ if head + maxToOverhang < 2 ^ 63 then (1 ≤ first ∧ last ≤ head) ∨ logLimit < expected.length
    else expected = []

/-- An empty range has no logs. -/
theorem expected_nil {first last : ℤ} (h : last < first) : f.expected logsAt head first last = [] := by
  unfold LogFilter.expected
  rw [heights_eq_nil (by omega), List.flatMap_nil]

/-- An error is an answer only to a query with too many logs. -/
theorem not_answers_error {result : Except LogsError (List Log)} {logLimit : ℕ} {logs : List Log} {err : LogsError}
    (herr : result = .error err) : Answers result logLimit logs ↔ logLimit < logs.length := by
  unfold Answers
  rw [herr]
  by_cases h : logs.length ≤ logLimit
  · simp [h]
  · simp [h, Nat.lt_of_not_le h]

/-- The loop over a range that is not empty. -/
theorem collect_answers_iff (hserves : backend.Serves head logsAt) {first last : ℤ} (hfirst : first ≤ head)
    (hrange : first ≤ last) (logLimit : ℕ) :
    Answers (f.collect backend logLimit (heights first last) []) logLimit (f.expected logsAt head first last) ↔
      (1 ≤ first ∧ last ≤ head) ∨ logLimit < (f.expected logsAt head first last).length := by
  by_cases hlow : 1 ≤ first
  · have hserved : ∀ height ∈ heights first (min last head), 1 ≤ height ∧ height ≤ head := by
      intro height h
      rw [mem_heights] at h
      omega
    have hexpected : f.expected logsAt head first last =
        (heights first (min last head)).flatMap (f.matching logsAt) := by
      unfold LogFilter.expected
      rw [max_eq_left hlow]
    by_cases hhigh : last ≤ head
    · rw [min_eq_left hhigh] at hserved hexpected
      refine iff_of_true ?_ (Or.inl ⟨hlow, hhigh⟩)
      unfold Answers
      rw [hexpected]
      split_ifs with hlimit
      · exact collect_ok hserves hserved (by simpa using hlimit)
      · exact collect_error hserves hserved (Nat.zero_le _) (by simpa using hlimit)
    · -- The block above the head is not there.
      have hmissing : ¬(1 ≤ head + 1 ∧ head + 1 ≤ head) := by omega
      obtain ⟨err, herr⟩ : ∃ err, f.collect backend logLimit
          (heights first head ++ (head + 1) :: heights (head + 1 + 1) last) [] = .error err :=
        collect_missing hserves hmissing []
      have hsplit : heights first last = heights first head ++ (head + 1) :: heights (head + 1 + 1) last := by
        rw [heights_append (by omega : first ≤ head + 1) (by omega), heights_cons (by omega : head + 1 ≤ last)]
      rw [← hsplit] at herr
      rw [not_answers_error herr]
      exact (or_iff_right fun h => hhigh h.2).symm
  · have hmissing : ¬(1 ≤ first ∧ first ≤ head) := fun h => hlow h.1
    obtain ⟨err, herr⟩ : ∃ err, f.collect backend logLimit ([] ++ first :: heights (first + 1) last) [] = .error err :=
      collect_missing hserves hmissing []
    rw [List.nil_append, ← heights_cons hrange] at herr
    rw [not_answers_error herr]
    exact (or_iff_right fun h => hlow h.1).symm

/-- No logs are an answer only where there are none. -/
theorem answers_nil {logLimit : ℕ} {logs : List Log} : Answers (.ok []) logLimit logs ↔ logs = [] := by
  unfold Answers
  by_cases h : logs.length ≤ logLimit
  · simp [h, eq_comm]
  · have hsome : logs ≠ [] := by
      rintro rfl
      exact h (Nat.zero_le _)
    simp [h, hsome]

/-- A bound of the range is the head, or positive. -/
theorem rangeBound_cases (head block : ℤ) : rangeBound head block = head ∨ 1 ≤ rangeBound head block := by
  unfold rangeBound
  split_ifs
  · exact Or.inl rfl
  · exact Or.inr (le_refl 1)
  · right
    omega

/-- The loop that `Logs` runs, for a range that passes its checks. -/
theorem rangeLogs_answers_iff (hserves : backend.Serves head logsAt) (logLimit : ℕ) {blockLimit fromBlock toBlock : ℤ}
    (hfrom : rangeBound head fromBlock ≤ head)
    (hdistance : rangeBound head toBlock - rangeBound head fromBlock ≤ blockLimit) :
    Answers (f.rangeLogs backend logLimit blockLimit head fromBlock toBlock) logLimit
        (f.expected logsAt head (rangeBound head fromBlock) (rangeBound head toBlock)) ↔
      InReach head (rangeBound head fromBlock) (rangeBound head toBlock) logLimit
        (f.expected logsAt head (rangeBound head fromBlock) (rangeBound head toBlock)) := by
  obtain ⟨-, number, -, -, hhead⟩ := hserves.header
  have hrange := int64_range number
  rw [hhead] at hrange
  have hfirst := rangeBound_cases head fromBlock
  have hlast := rangeBound_cases head toBlock
  unfold LogFilter.rangeLogs InReach
  generalize rangeBound head fromBlock = first at *
  generalize rangeBound head toBlock = last at *
  have hwrap : ¬int64 (last - first) > blockLimit := by
    have hle : int64 (last - first) ≤ last - first := int64_le (by omega)
    omega
  dsimp only
  rw [if_neg hwrap, if_neg (not_lt.mpr hfrom)]
  by_cases hover : head + maxToOverhang < 2 ^ 63
  · have hsum : int64 (head + maxToOverhang) = head + maxToOverhang := by
      apply int64_eq _ hover
      unfold maxToOverhang
      omega
    rw [if_pos hover, hsum]
    unfold maxToOverhang at hover ⊢
    by_cases hempty : last < first
    · have hnone : heights first (if last > head + 600 then head + 600 else last) = [] := by
        apply heights_eq_nil
        split_ifs
        · omega
        · exact hempty
      rw [hnone, expected_nil hempty]
      exact iff_of_true (answers_nil.mpr rfl) (Or.inl hempty)
    · rw [or_iff_right hempty]
      by_cases hclamp : last > head + 600
      · -- The range is cut off above the head, where the same blocks are there.
        have hsame : f.expected logsAt head first last = f.expected logsAt head first (head + 600) := by
          unfold LogFilter.expected
          rw [min_eq_right (by omega : head ≤ last), min_eq_right (by omega : head ≤ head + 600)]
        have hlast : (1 ≤ first ∧ last ≤ head) ↔ 1 ≤ first ∧ head + 600 ≤ head := by omega
        rw [if_pos hclamp, hsame, hlast]
        exact collect_answers_iff hserves hfrom (by omega) logLimit
      · rw [if_neg hclamp]
        exact collect_answers_iff hserves hfrom (by omega) logLimit
  · -- The overhang overflows, and the range ends below its beginning.
    have hsum : int64 (head + maxToOverhang) = head + maxToOverhang - 2 ^ 64 := by
      apply int64_overflow (not_lt.mp hover)
      unfold maxToOverhang
      omega
    rw [if_neg hover, hsum]
    unfold maxToOverhang at hover ⊢
    have hnone : heights first (if last > head + 600 - 2 ^ 64 then head + 600 - 2 ^ 64 else last) = [] := by
      apply heights_eq_nil
      split_ifs
      · omega
      · omega
    rw [hnone]
    have hcollect : f.collect backend logLimit [] [] = .ok [] := rfl
    rw [hcollect, answers_nil]
    constructor
    · exact Or.inr
    · rintro (hempty | hnil)
      · exact expected_nil hempty
      · exact hnil

/-- The backend of a chain serves its blocks. -/
theorem chainBackend_serves {blocks : List (List (List Log))} (h : blocks.length < 2 ^ 63) :
    (chainBackend blocks).Serves blocks.length fun height => blocks.getD (height - 1).toNat [] := by
  constructor
  · exact ⟨_, _, rfl, rfl, int64_eq (by omega) (by exact_mod_cast h)⟩
  · intro height hlow hhigh
    exact ⟨_, if_pos ⟨hlow, hhigh⟩, fun log hlog => logsBloom_finds hlog⟩
  · intro height hmissing
    exact ⟨_, if_neg hmissing⟩
  · intro height hlow hhigh
    exact if_pos ⟨hlow, hhigh⟩
  · intro height hmissing
    exact ⟨_, if_neg hmissing⟩

/-- **Queries for a range.** The backend serves the blocks up to its head. A query whose range begins at most at
the head, and is as short as the limit asks, is answered by the matching logs of its blocks up to the head, or by
an error if these are more than the limit, if and only if it is in reach. A query that reaches beyond the head, and
has not found too many logs before, fails at the first block that is not there. -/
theorem logs_answers_iff (backend : LogBackend) (head : ℤ) (logsAt : ℤ → List (List Log))
    (hserves : backend.Serves head logsAt) (fromBlock toBlock : ℤ) (addresses : List Address)
    (topics : List (List Hash)) (logLimit : ℕ) (blockLimit : ℤ)
    (hfrom : rangeBound head fromBlock ≤ head)
    (hdistance : rangeBound head toBlock - rangeBound head fromBlock ≤ blockLimit) :
    let f := newRangeFilter fromBlock toBlock addresses topics
    let expected := f.expected logsAt head (rangeBound head fromBlock) (rangeBound head toBlock)
    Answers (f.logs backend logLimit blockLimit) logLimit expected ↔
      InReach head (rangeBound head fromBlock) (rangeBound head toBlock) logLimit expected := by
  intro f expected
  obtain ⟨header, number, hheader, hnumber, hhead⟩ := hserves.header
  have hlogs : f.logs backend logLimit blockLimit =
      f.rangeLogs backend logLimit blockLimit head fromBlock toBlock := by
    simp only [f, LogFilter.logs, newRangeFilter, Option.filter_none, hheader, hnumber, hhead, Except.mapError, bind,
      Except.bind]
  rw [hlogs]
  exact rangeLogs_answers_iff hserves logLimit hfrom hdistance

end filters

/-- A chain of two blocks with a log each, and a query for the logs of a contract from the first block on. -/
theorem logs_two_blocks :
    letI := sampleKeccak
    let log (i : ℕ) : Log := ⟨.ofNat 20 2, [.ofNat 32 i], [], i, .zero 32, 0, .zero 32, 0, false⟩
    let blocks := [[[log 1]], [[log 2]]]
    let f := newRangeFilter 0 (-1) [.ofNat 20 2] [[.ofNat 32 2, .ofNat 32 3]]
    (f.expected (fun height => blocks.getD (height - 1).toNat []) 2 1 2).length = 1 ∧
      Answers (f.logs (chainBackend blocks) 10000 10000) 10000
        (f.expected (fun height => blocks.getD (height - 1).toNat []) 2 1 2) := by
  let _ := sampleKeccak
  intro log blocks f
  have hserves := chainBackend_serves (by decide : blocks.length < 2 ^ 63)
  have hfirst : rangeBound 2 0 = 1 := by decide +kernel
  have hlast : rangeBound 2 (-1) = 2 := by decide +kernel
  have hiff := logs_answers_iff (chainBackend blocks) 2 _ hserves 0 (-1) [.ofNat 20 2] [[.ofNat 32 2, .ofNat 32 3]]
    10000 10000 (by decide +kernel) (by decide +kernel)
  rw [hfirst, hlast] at hiff
  refine ⟨by decide +kernel, hiff.mpr ?_⟩
  unfold InReach
  right
  rw [if_pos (by decide +kernel)]
  exact Or.inl ⟨le_refl 1, le_refl 2⟩

/-- A chain of one block without logs, and a query that ends one block above: it fails, where no logs would be the
answer. -/
theorem logs_beyond_head :
    letI := sampleKeccak
    let blocks : List (List (List Log)) := [[]]
    let f := newRangeFilter (-1) 2 [] []
    (chainBackend blocks).Serves 1 (fun height => blocks.getD (height - 1).toNat []) ∧
      rangeBound 1 (-1) = 1 ∧ rangeBound 1 2 = 2 ∧
      f.expected (fun height => blocks.getD (height - 1).toNat []) 1 1 2 = [] ∧
      f.logs (chainBackend blocks) 10000 10000 =
        .error (.bloom "height must be less than or equal to the current blockchain height") ∧
      ¬Answers (f.logs (chainBackend blocks) 10000 10000) 10000 [] := by
  let _ := sampleKeccak
  intro blocks f
  have hserves := chainBackend_serves (by decide : blocks.length < 2 ^ 63)
  have hlogs : f.logs (chainBackend blocks) 10000 10000 =
      .error (.bloom "height must be less than or equal to the current blockchain height") := by
    decide +kernel
  refine ⟨hserves, by decide +kernel, by decide +kernel, by decide +kernel, hlogs, ?_⟩
  rw [not_answers_error hlogs]
  decide

end Smartdoge.Rpc
