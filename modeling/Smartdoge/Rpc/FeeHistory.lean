import Smartdoge.Rpc.Debug
import Smartdoge.Types.Int64

/-!
# The history of fees

`eth_feeHistory` is asked for a number of blocks up to a newest one. The count is a `uint64` that becomes an
`int64`, the range ends before the newest block, and block 0 is read as block 1.

* `collectFees_rows`, `collectFees_isError_iff`: the loop over a range returns a row for each block, or the error of
  the first block that cannot be fetched.
* **`feeHistory_covers_iff`**: the result covers the range that was asked for, if and only if the range is empty, or
  its length exceeds the cap and is an `int64`, or both ranges, the one that was asked for and the one that is read,
  have a block that cannot be fetched. Counts from `2 ^ 63` on panic, or read the whole chain.
* `feeHistory_misses_newest`: one block is asked for, and the one before it is described.
-/

set_option linter.unusedSectionVars false

namespace Smartdoge.Rpc

open Smartdoge.Lib
open Smartdoge.Lib.Writes
open Smartdoge.Evm

/-! ## Results -/

/-- What is computed for a block, with the type of `float64`.
Source: `rpc/types/types.go` `OneFeeHistory` -/
structure OneFeeHistory (ρ : Type) where
  baseFee : Option ℤ
  reward : List (Option ℤ)
  gasUsedRatio : ρ

/-- Source: `rpc/types/types.go` `FeeHistoryResult` -/
structure FeeHistoryResult (ρ : Type) where
  oldestBlock : ℤ
  /-- Rows only if there are percentiles. -/
  reward : Option (List (List ℤ))
  baseFee : List (Option ℤ)
  gasUsedRatio : List ρ

/-- What ends the call without a result. -/
inductive FeeEnd where
  | fetch (err : DebugError)
  | client (text : String)
  /-- "FeeHistory user block count %d higher than %d". -/
  | tooMany (userBlockCount maxBlockCount : ℤ)
  /-- `nil` for the result and for the error. -/
  | nothing
  /-- "makeslice: len out of range". -/
  | makeslice
  | panic (p : Panic)
deriving DecidableEq

/-- The call returned an error. -/
def FeeEnd.IsError : FeeEnd → Prop
  | .fetch _ | .client _ | .tooMany _ _ => True
  | .nothing | .makeslice | .panic _ => False

/-- What the call reads. The types are those of an Ethereum block, of the results of a block, of a percentile and
of a ratio. -/
structure FeeBackend (ε β φ ρ : Type) where
  client : TmClient
  /-- Source: `rpc/backend/evm_backend.go` `EthBlockFromTendermint` -/
  ethBlockFromTendermint : ResultBlock → Except String ε
  /-- `BlockResults` of Tendermint; `none` is `nil` without an error. -/
  blockResults : ℤ → Except String (Option β)
  /-- Source: `rpc/backend/utils.go` `processBlock` -/
  processBlock : ResultBlock → ε → List φ → β → Except String (OneFeeHistory ρ)

/-- What is kept of a block. -/
structure FeeRow (ρ : Type) where
  baseFee : Option ℤ
  gasUsedRatio : ρ
  reward : List ℤ

/-- `int32(x)`. -/
def int32 (x : ℤ) : ℤ := x.bmod (2 ^ 32)

section backend

variable {ε β φ ρ : Type} [Inhabited ρ] (backend : FeeBackend ε β φ ρ)

namespace FeeBackend

/-- `none` is `nil` without an error.
Source: `rpc/backend/evm_backend.go` `GetBlockByNumber` -/
def getBlockByNumber (blockNum : ℤ) : Except FeeEnd (Option ε) := do
  match ← (backend.client.getTendermintBlockByNumber blockNum).mapError .fetch with
  | none => .ok none
  | some resBlock => (backend.ethBlockFromTendermint resBlock).mapError .client |>.map some

/-- The blocks and the results of a number.
Source: `rpc/backend/evm_backend.go` `FeeHistory`, the loop up to `processBlock` -/
def fetchBlock (blockID : ℤ) : Except FeeEnd (ResultBlock × ε × β) := do
  match ← backend.getBlockByNumber blockID with
  | none => .error .nothing
  | some ethBlock =>
    match ← (backend.client.getTendermintBlockByNumber blockID).mapError .fetch with
    | none => .error .nothing
    | some tendermintblock =>
      match ← (backend.blockResults tendermintblock.height).mapError .client with
      -- The error is logged, and there is none.
      | none => .error (.panic .nilDereference)
      | some tendermintBlockResult => .ok (tendermintblock, ethBlock, tendermintBlockResult)

/-- The row of rewards: the loop over the percentiles reads as many entries.
Source: `rpc/backend/evm_backend.go` `FeeHistory`, "copy" -/
def rewardRow (rewardPercentiles : List φ) (one : OneFeeHistory ρ) : Except FeeEnd (List ℤ) :=
  if one.reward.length < rewardPercentiles.length then .error (.panic .indexOutOfRange)
  else .ok ((one.reward.take rewardPercentiles.length).map fun reward => reward.getD 0)

/-- The body of the loop, up to the assignments.
Source: `rpc/backend/evm_backend.go` `FeeHistory` -/
def feeRow (rewardPercentiles : List φ) (blockID : ℤ) : Except FeeEnd (FeeRow ρ) := do
  let (tendermintblock, ethBlock, result) ← backend.fetchBlock blockID
  let one ← (backend.processBlock tendermintblock ethBlock rewardPercentiles result).mapError .client
  let reward ← rewardRow rewardPercentiles one
  .ok ⟨one.baseFee, one.gasUsedRatio, reward⟩

/-- One round of the loop. The three slices have the same length and index.
Source: `rpc/backend/evm_backend.go` `FeeHistory` -/
def feeStep (rewardPercentiles : List φ) (blockStart : ℤ) (rows : List (FeeRow ρ)) (blockID : ℤ) :
    Except FeeEnd (List (FeeRow ρ)) := do
  let index := int32 (blockID - blockStart)
  let row ← backend.feeRow rewardPercentiles blockID
  if 0 ≤ index ∧ index < rows.length then .ok (rows.set index.toNat row) else .error (.panic .indexOutOfRange)

/-- The slices before the loop. -/
def emptyRows (blockCount : ℤ) : List (FeeRow ρ) := List.replicate blockCount.toNat ⟨none, default, []⟩

/-- The loop.
Source: `rpc/backend/evm_backend.go` `FeeHistory` -/
def collectFees (rewardPercentiles : List φ) (blockStart blockEnd : ℤ) (rows : List (FeeRow ρ)) :
    Except FeeEnd (List (FeeRow ρ)) :=
  (heights blockStart (blockEnd - 1)).foldlM (backend.feeStep rewardPercentiles blockStart) rows

/-- The newest block: the one that was asked for, or the last one of the chain for `latest`, `pending` and
`earliest`.
Source: `rpc/backend/evm_backend.go` `FeeHistory`, `blockEnd` -/
def blockEnd (lastBlock : ℤ) : Except FeeEnd ℤ :=
  if lastBlock ≤ 0 then backend.client.blockNumber.mapError .client else .ok lastBlock

/-- `maxLen` is the length from which on the runtime does not make slices.
Source: `rpc/backend/evm_backend.go` `FeeHistory` -/
def feeHistory (maxLen feeHistoryCap : ℤ) (userBlockCount : UInt64) (lastBlock : ℤ) (rewardPercentiles : List φ) :
    Except FeeEnd (FeeHistoryResult ρ) := do
  let blockEnd ← backend.blockEnd lastBlock
  let userBlockCountInt := goInt64 userBlockCount
  if userBlockCountInt > feeHistoryCap then .error (.tooMany userBlockCountInt feeHistoryCap)
  else
    let blockStart := if int64 (blockEnd - userBlockCountInt) < 0 then 0 else int64 (blockEnd - userBlockCountInt)
    let blockCount := int64 (blockEnd - blockStart)
    if blockCount < 0 ∨ maxLen < blockCount then .error .makeslice
    else
      let rows ← backend.collectFees rewardPercentiles blockStart blockEnd (emptyRows blockCount)
      .ok
        { oldestBlock := blockStart
          reward := if rewardPercentiles.length ≠ 0 then some (rows.map FeeRow.reward) else none
          baseFee := rows.map FeeRow.baseFee
          gasUsedRatio := rows.map FeeRow.gasUsedRatio }

end FeeBackend

/-! ## The loop -/

/-- The block can be fetched. -/
def FeeBackend.Fetches (blockID : ℤ) : Prop := ∃ fetched, backend.fetchBlock blockID = .ok fetched

/-- `processBlock` returns normally, with an entry for every percentile. -/
def FeeBackend.Processes (rewardPercentiles : List φ) : Prop :=
  ∀ blk eth result, ∃ one, backend.processBlock blk eth rewardPercentiles result = .ok one ∧
    one.reward.length = rewardPercentiles.length

/-- The first block of a range that cannot be fetched fails with an error, at a place that is an `int32`. -/
def FeeBackend.FailsFirst (range : List ℤ) : Prop :=
  ∃ pre blockID post err, range = pre ++ blockID :: post ∧ pre.length ≤ 2 ^ 31 ∧
    (∀ x ∈ pre, backend.Fetches x) ∧ backend.fetchBlock blockID = .error err ∧ err.IsError

/-- What the result says, if it describes the blocks of a range: a row for each, from the first on. -/
structure FeeBackend.Describes (rewardPercentiles : List φ) (first last : ℤ) (res : FeeHistoryResult ρ)
    (rows : List (FeeRow ρ)) : Prop where
  each : List.Forall₂ (fun blockID row => backend.feeRow rewardPercentiles blockID = .ok row) (heights first last) rows
  gasUsedRatio : res.gasUsedRatio = rows.map FeeRow.gasUsedRatio
  baseFee : res.baseFee = rows.map FeeRow.baseFee
  reward : res.reward = if rewardPercentiles.length ≠ 0 then some (rows.map FeeRow.reward) else none
  oldestBlock : first ≤ last → res.oldestBlock = first

/-- The first of the blocks that were asked for: as many as counted, ending with the newest one. -/
def oldestRequested (count : ℕ) (newest : ℤ) : ℤ := newest - min (count : ℤ) newest + 1

/-- There is a reason to return an error. -/
def FeeBackend.Refuses (feeHistoryCap : ℤ) (count : ℕ) (newest : ℤ) : Prop :=
  feeHistoryCap < count ∨ ∃ blockID ∈ heights (oldestRequested count newest) newest, ¬backend.Fetches blockID

/-- **The result covers the range**: an error if there is a reason, and else a description of the blocks that were
asked for. -/
structure FeeBackend.Covers (feeHistoryCap : ℤ) (count : ℕ) (newest : ℤ) (rewardPercentiles : List φ)
    (result : Except FeeEnd (FeeHistoryResult ρ)) : Prop where
  error : backend.Refuses feeHistoryCap count newest → ∃ err, result = .error err ∧ err.IsError
  ok : ¬backend.Refuses feeHistoryCap count newest → ∃ res rows, result = .ok res ∧
    backend.Describes rewardPercentiles (oldestRequested count newest) newest res rows

variable {backend} {rewardPercentiles : List φ}

/-- A block that is fetched has a row. -/
theorem feeRow_of_fetches (hprocess : backend.Processes rewardPercentiles) {blockID : ℤ}
    (h : backend.Fetches blockID) : ∃ row, backend.feeRow rewardPercentiles blockID = .ok row := by
  obtain ⟨⟨blk, eth, result⟩, hfetch⟩ := h
  obtain ⟨one, hone, hlength⟩ := hprocess blk eth result
  unfold FeeBackend.feeRow FeeBackend.rewardRow
  rw [hfetch]
  simp only [bind, Except.bind, hone, Except.mapError, hlength, lt_irrefl, if_false]
  exact ⟨_, rfl⟩

/-- A block that is not fetched ends the loop as it ended the fetch. -/
theorem feeRow_error {blockID : ℤ} {err : FeeEnd} (h : backend.fetchBlock blockID = .error err) :
    backend.feeRow rewardPercentiles blockID = .error err := by
  unfold FeeBackend.feeRow
  rw [h]
  rfl

/-- An index below 2³¹ is converted to itself. -/
theorem int32_eq {i : ℕ} (h : i < 2 ^ 31) : int32 i = i := by
  unfold int32
  exact Int.bmod_eq_of_le (by norm_num) (by norm_num; omega)

/-- The next one is converted to the least `int32`. -/
theorem int32_overflow : int32 (2 ^ 31 : ℕ) = -2 ^ 31 := by decide +kernel

/-- One round, at a place that is an `int32`. -/
theorem feeStep_ok {blockStart : ℤ} {i : ℕ} (hi : i < 2 ^ 31) {rows : List (FeeRow ρ)} (hlength : i < rows.length)
    {row : FeeRow ρ} (hrow : backend.feeRow rewardPercentiles (blockStart + i) = .ok row) :
    backend.feeStep rewardPercentiles blockStart rows (blockStart + i) = .ok (rows.set i row) := by
  have hindex : int32 (blockStart + i - blockStart) = i := by
    rw [add_sub_cancel_left]
    exact int32_eq hi
  have hin : (0 : ℤ) ≤ i ∧ (i : ℤ) < rows.length := by omega
  unfold FeeBackend.feeStep
  rw [hrow, hindex]
  simp only [bind, Except.bind, if_pos hin, Int.toNat_natCast]

/-- One round, at the first place that is not. -/
theorem feeStep_panics {blockStart : ℤ} {rows : List (FeeRow ρ)} {row : FeeRow ρ}
    (hrow : backend.feeRow rewardPercentiles (blockStart + (2 ^ 31 : ℕ)) = .ok row) :
    backend.feeStep rewardPercentiles blockStart rows (blockStart + (2 ^ 31 : ℕ)) =
      .error (.panic .indexOutOfRange) := by
  have hindex : int32 (blockStart + (2 ^ 31 : ℕ) - blockStart) = -2 ^ 31 := by
    rw [add_sub_cancel_left]
    exact int32_overflow
  have hout : ¬((0 : ℤ) ≤ -2 ^ 31 ∧ (-2 ^ 31 : ℤ) < rows.length) := by omega
  unfold FeeBackend.feeStep
  rw [hrow, hindex]
  simp only [bind, Except.bind, if_neg hout]

/-- A block that cannot be fetched ends the loop with its error. -/
theorem feeStep_error {blockStart blockID : ℤ} {rows : List (FeeRow ρ)} {err : FeeEnd}
    (h : backend.fetchBlock blockID = .error err) :
    backend.feeStep rewardPercentiles blockStart rows blockID = .error err := by
  unfold FeeBackend.feeStep
  rw [feeRow_error h]
  rfl

/-- The next value of the counter. -/
theorem heights_eq_cons {first last h : ℤ} {xs : List ℤ} (hxs : h :: xs = heights first last) :
    h = first ∧ xs = heights (first + 1) last := by
  have hle : first ≤ last := by
    by_contra hnot
    rw [heights_eq_nil (not_le.mp hnot)] at hxs
    cases hxs
  rw [heights_cons hle] at hxs
  exact List.cons.inj hxs

/-- **A loop that ended well** left the row of each block at its place. -/
theorem collectFees_rows {blockStart last : ℤ} {xs : List ℤ} {i : ℕ} {rows rows' : List (FeeRow ρ)}
    (hxs : xs = heights (blockStart + i) last) (hi : i ≤ 2 ^ 31) (hlength : rows.length = i + xs.length)
    (h : xs.foldlM (backend.feeStep rewardPercentiles blockStart) rows = .ok rows') :
    ∃ new, rows' = rows.take i ++ new ∧
      List.Forall₂ (fun blockID row => backend.feeRow rewardPercentiles blockID = .ok row) xs new := by
  induction xs generalizing i rows with
  | nil =>
      cases h
      refine ⟨[], ?_, .nil⟩
      rw [List.append_nil, List.take_of_length_le (by rw [hlength]; exact le_refl i)]
  | cons blockID xs ih =>
      obtain ⟨rfl, hrest⟩ := heights_eq_cons hxs
      rw [List.length_cons] at hlength
      rw [List.foldlM_cons] at h
      obtain ⟨rows₁, hstep, hloop⟩ := except_bind_ok.mp h
      obtain ⟨row, hrow, -⟩ := except_bind_ok.mp hstep
      -- A place that is no `int32` panics.
      have hplace : i < 2 ^ 31 := by
        rcases lt_or_eq_of_le hi with hlt | rfl
        · exact hlt
        · rw [feeStep_panics hrow] at hstep
          cases hstep
      rw [feeStep_ok hplace (by omega) hrow] at hstep
      cases hstep
      have hnext : xs = heights (blockStart + (i + 1 : ℕ)) last := by
        rw [hrest]
        push_cast
        ring_nf
      obtain ⟨new, hnew, hall⟩ := ih hnext hplace (by rw [List.length_set]; omega) hloop
      refine ⟨row :: new, ?_, .cons hrow hall⟩
      rw [hnew, List.take_add_one, List.take_set_of_le (le_refl i), List.getElem?_set_self (by omega)]
      simp

/-- `FailsFirst` of what is left of a range from a place on. -/
def FeeBackend.FailsFrom (backend : FeeBackend ε β φ ρ) (i : ℕ) (range : List ℤ) : Prop :=
  ∃ pre blockID post err, range = pre ++ blockID :: post ∧ i + pre.length ≤ 2 ^ 31 ∧
    (∀ x ∈ pre, backend.Fetches x) ∧ backend.fetchBlock blockID = .error err ∧ err.IsError

/-- From the first place on it is the whole range. -/
theorem failsFrom_zero {range : List ℤ} : backend.FailsFrom 0 range ↔ backend.FailsFirst range := by
  unfold FeeBackend.FailsFrom FeeBackend.FailsFirst
  simp only [Nat.zero_add]

/-- Where the range ends, nothing fails. -/
theorem not_failsFrom_nil (i : ℕ) : ¬backend.FailsFrom i [] := by
  rintro ⟨pre, blockID, post, err, hsplit, -⟩
  simp at hsplit

/-- Nothing fails at a place that is no `int32`. -/
theorem FeeBackend.FailsFrom.le {i : ℕ} {range : List ℤ} (h : backend.FailsFrom i range) : i ≤ 2 ^ 31 := by
  obtain ⟨pre, blockID, post, err, -, hplace, -⟩ := h
  omega

/-- A block that cannot be fetched is the first one that fails. -/
theorem failsFrom_cons_of_error {i : ℕ} {blockID : ℤ} {range : List ℤ} {err : FeeEnd} (hi : i ≤ 2 ^ 31)
    (hfetch : backend.fetchBlock blockID = .error err) : backend.FailsFrom i (blockID :: range) ↔ err.IsError := by
  constructor
  · rintro ⟨pre, blockID', post, err', hsplit, -, hpre, herr', hisError⟩
    cases pre with
    | nil =>
        obtain ⟨rfl, -⟩ := List.cons.inj hsplit
        rw [hfetch] at herr'
        cases herr'
        exact hisError
    | cons x pre =>
        obtain ⟨rfl, -⟩ := List.cons.inj hsplit
        obtain ⟨fetched, hfetched⟩ := hpre _ List.mem_cons_self
        rw [hfetch] at hfetched
        cases hfetched
  · intro hisError
    exact ⟨[], blockID, range, err, rfl, hi, by simp, hfetch, hisError⟩

/-- After a block that can be fetched, the failing one is a later one. -/
theorem failsFrom_cons_of_fetches {i : ℕ} {blockID : ℤ} {range : List ℤ} (hfetches : backend.Fetches blockID) :
    backend.FailsFrom i (blockID :: range) ↔ backend.FailsFrom (i + 1) range := by
  constructor
  · rintro ⟨pre, blockID', post, err, hsplit, hplace, hpre, herr, hisError⟩
    cases pre with
    | nil =>
        obtain ⟨rfl, -⟩ := List.cons.inj hsplit
        obtain ⟨fetched, hfetched⟩ := hfetches
        rw [hfetched] at herr
        cases herr
    | cons x pre =>
        obtain ⟨rfl, htail⟩ := List.cons.inj hsplit
        rw [List.length_cons] at hplace
        exact ⟨pre, blockID', post, err, htail, by omega, (List.forall_mem_cons.mp hpre).2, herr, hisError⟩
  · rintro ⟨pre, blockID', post, err, rfl, hplace, hpre, herr, hisError⟩
    refine ⟨blockID :: pre, blockID', post, err, rfl, ?_, List.forall_mem_cons.mpr ⟨hfetches, hpre⟩, herr, hisError⟩
    rw [List.length_cons]
    omega

/-- **The loop ends with an error**, if and only if the first block that cannot be fetched does. -/
theorem collectFees_isError_iff (hprocess : backend.Processes rewardPercentiles) {blockStart last : ℤ}
    {xs : List ℤ} {i : ℕ} {rows : List (FeeRow ρ)} (hxs : xs = heights (blockStart + i) last) (hi : i ≤ 2 ^ 31)
    (hlength : rows.length = i + xs.length) :
    (∃ err, xs.foldlM (backend.feeStep rewardPercentiles blockStart) rows = .error err ∧ err.IsError) ↔
      backend.FailsFrom i xs := by
  induction xs generalizing i rows with
  | nil =>
      refine iff_of_false ?_ (not_failsFrom_nil i)
      rintro ⟨err, herr, -⟩
      cases herr
  | cons blockID xs ih =>
      obtain ⟨rfl, hrest⟩ := heights_eq_cons hxs
      rw [List.length_cons] at hlength
      rw [List.foldlM_cons]
      cases hfetch : backend.fetchBlock (blockStart + i) with
      | error err =>
          rw [feeStep_error hfetch, failsFrom_cons_of_error hi hfetch]
          constructor
          · rintro ⟨err', herr', hisError⟩
            cases herr'
            exact hisError
          · intro hisError
            exact ⟨err, rfl, hisError⟩
      | ok fetched =>
          obtain ⟨row, hrow⟩ := feeRow_of_fetches hprocess ⟨fetched, hfetch⟩
          rw [failsFrom_cons_of_fetches ⟨fetched, hfetch⟩]
          by_cases hplace : i < 2 ^ 31
          · rw [feeStep_ok hplace (by omega) hrow]
            refine ih (i := i + 1) ?_ (by omega) (by rw [List.length_set]; omega)
            rw [hrest]
            push_cast
            ring_nf
          · obtain rfl : i = 2 ^ 31 := by omega
            rw [feeStep_panics hrow]
            refine iff_of_false ?_ fun hfails => by have := hfails.le; omega
            rintro ⟨err, herr, hisError⟩
            cases herr
            exact hisError

/-! ## The range -/

/-- What the counts are for which the call returns what it should. -/
def FeeBackend.RangeHolds (backend : FeeBackend ε β φ ρ) (maxLen feeHistoryCap : ℤ) (count : ℕ) (newest : ℤ) : Prop :=
  if 2 ^ 63 ≤ count then
    -- The count is a negative `int64`, and the first block is above the newest one unless it overflows.
    feeHistoryCap < count - 2 ^ 64 ∨
      (2 ^ 63 ≤ newest + 2 ^ 64 - count ∧ newest ≤ maxLen ∧ backend.FailsFirst (heights 0 (newest - 1)))
  else
    feeHistoryCap < count ∨ count = 0 ∨
      (backend.FailsFirst (heights (oldestRequested count newest - 1) (newest - 1)) ∧
        ∃ blockID ∈ heights (oldestRequested count newest) newest, ¬backend.Fetches blockID)

/-- An error is what is wanted, if there is a reason for it. -/
theorem covers_of_error {feeHistoryCap : ℤ} {count : ℕ} {newest : ℤ} {err : FeeEnd}
    {result : Except FeeEnd (FeeHistoryResult ρ)} (hresult : result = .error err) :
    backend.Covers feeHistoryCap count newest rewardPercentiles result ↔
      err.IsError ∧ backend.Refuses feeHistoryCap count newest := by
  constructor
  · intro h
    have hrefuses : backend.Refuses feeHistoryCap count newest := by
      by_contra hnot
      obtain ⟨res, rows, hok, -⟩ := h.ok hnot
      rw [hresult] at hok
      cases hok
    obtain ⟨err', herr', hisError⟩ := h.error hrefuses
    rw [hresult] at herr'
    cases herr'
    exact ⟨hisError, hrefuses⟩
  · rintro ⟨hisError, hrefuses⟩
    exact ⟨fun _ => ⟨err, hresult, hisError⟩, fun hnot => absurd hrefuses hnot⟩

/-- A result that begins with another block than the oldest one is never what is wanted. -/
theorem not_covers_of_ok {feeHistoryCap : ℤ} {count : ℕ} {newest : ℤ} {res : FeeHistoryResult ρ}
    {result : Except FeeEnd (FeeHistoryResult ρ)} (hresult : result = .ok res)
    (hrange : oldestRequested count newest ≤ newest) (holdest : res.oldestBlock ≠ oldestRequested count newest) :
    ¬backend.Covers feeHistoryCap count newest rewardPercentiles result := by
  intro h
  by_cases hrefuses : backend.Refuses feeHistoryCap count newest
  · obtain ⟨err, herr, -⟩ := h.error hrefuses
    rw [hresult] at herr
    cases herr
  · obtain ⟨res', rows, hok, hdescribes⟩ := h.ok hrefuses
    rw [hresult] at hok
    cases hok
    exact holdest (hdescribes.oldestBlock hrange)

/-- A count above the cap. -/
theorem feeHistory_tooMany {maxLen feeHistoryCap : ℤ} {userBlockCount : UInt64} {lastBlock newest : ℤ}
    (hend : backend.blockEnd lastBlock = .ok newest) (hover : goInt64 userBlockCount > feeHistoryCap) :
    backend.feeHistory maxLen feeHistoryCap userBlockCount lastBlock rewardPercentiles =
      .error (.tooMany (goInt64 userBlockCount) feeHistoryCap) := by
  unfold FeeBackend.feeHistory
  rw [hend]
  show (if goInt64 userBlockCount > feeHistoryCap then _ else _) = _
  rw [if_pos hover]

/-- The call after its checks. -/
theorem feeHistory_eq {maxLen feeHistoryCap : ℤ} {userBlockCount : UInt64} {lastBlock newest : ℤ}
    (hend : backend.blockEnd lastBlock = .ok newest)
    (hcap : ¬goInt64 userBlockCount > feeHistoryCap) {blockStart blockCount : ℤ}
    (hstart : (if int64 (newest - goInt64 userBlockCount) < 0 then 0 else int64 (newest - goInt64 userBlockCount)) =
      blockStart)
    (hcount : int64 (newest - blockStart) = blockCount) (hmake : ¬(blockCount < 0 ∨ maxLen < blockCount)) :
    backend.feeHistory maxLen feeHistoryCap userBlockCount lastBlock rewardPercentiles =
      (backend.collectFees rewardPercentiles blockStart newest (FeeBackend.emptyRows blockCount)).bind fun rows => .ok
        { oldestBlock := blockStart
          reward := if rewardPercentiles.length ≠ 0 then some (rows.map FeeRow.reward) else none
          baseFee := rows.map FeeRow.baseFee
          gasUsedRatio := rows.map FeeRow.gasUsedRatio } := by
  unfold FeeBackend.feeHistory
  rw [hend]
  show (if goInt64 userBlockCount > feeHistoryCap then _ else _) = _
  rw [if_neg hcap, hstart, hcount, if_neg hmake]
  rfl

/-- A number of blocks for which no slices are made. -/
theorem feeHistory_makeslice {maxLen feeHistoryCap : ℤ} {userBlockCount : UInt64} {lastBlock newest : ℤ}
    (hend : backend.blockEnd lastBlock = .ok newest)
    (hcap : ¬goInt64 userBlockCount > feeHistoryCap) {blockStart blockCount : ℤ}
    (hstart : (if int64 (newest - goInt64 userBlockCount) < 0 then 0 else int64 (newest - goInt64 userBlockCount)) =
      blockStart)
    (hcount : int64 (newest - blockStart) = blockCount) (hmake : blockCount < 0 ∨ maxLen < blockCount) :
    backend.feeHistory maxLen feeHistoryCap userBlockCount lastBlock rewardPercentiles = .error .makeslice := by
  unfold FeeBackend.feeHistory
  rw [hend]
  show (if goInt64 userBlockCount > feeHistoryCap then _ else _) = _
  rw [if_neg hcap, hstart, hcount, if_pos hmake]

/-- There are as many rows as blocks in the range. -/
theorem length_emptyRows (blockStart newest : ℤ) :
    (FeeBackend.emptyRows (newest - blockStart) : List (FeeRow ρ)).length =
      (heights blockStart (newest - 1)).length := by
  unfold FeeBackend.emptyRows
  rw [List.length_replicate, length_heights]
  omega

section ranges

/-! ### The counts

The ranges of the count, one lemma for each. -/

variable {maxLen feeHistoryCap : ℤ} {userBlockCount : UInt64} {newest : ℤ}

/-- The block that was asked for by its number is the newest one. -/
theorem blockEnd_of_pos (hnewest : 1 ≤ newest) : backend.blockEnd newest = .ok newest := if_neg (by omega)

/-- The call over a range that it reads, where a result would begin with another block than the oldest one. -/
theorem feeHistory_covers_of_read (hprocess : backend.Processes rewardPercentiles) (hnewest : 1 ≤ newest)
    (hcap : ¬goInt64 userBlockCount > feeHistoryCap) {blockStart : ℤ}
    (hstart : (if int64 (newest - goInt64 userBlockCount) < 0 then 0 else int64 (newest - goInt64 userBlockCount)) =
      blockStart)
    (hcount : int64 (newest - blockStart) = newest - blockStart) (hmake : ¬maxLen < newest - blockStart)
    (hbegin : blockStart < newest) (holdest : blockStart ≠ oldestRequested userBlockCount.toNat newest)
    (hrange : oldestRequested userBlockCount.toNat newest ≤ newest) :
    backend.Covers feeHistoryCap userBlockCount.toNat newest rewardPercentiles
        (backend.feeHistory maxLen feeHistoryCap userBlockCount newest rewardPercentiles) ↔
      backend.FailsFirst (heights blockStart (newest - 1)) ∧
        backend.Refuses feeHistoryCap userBlockCount.toNat newest := by
  have hcall : backend.feeHistory maxLen feeHistoryCap userBlockCount newest rewardPercentiles = _ :=
    feeHistory_eq (blockEnd_of_pos hnewest) hcap hstart hcount (by omega)
  have hloop := collectFees_isError_iff hprocess (i := 0) (by rw [Nat.cast_zero, add_zero]) (by norm_num)
    ((length_emptyRows blockStart newest).trans (Nat.zero_add _).symm)
  have hfails : (∃ err, backend.collectFees rewardPercentiles blockStart newest
      (FeeBackend.emptyRows (newest - blockStart)) = .error err ∧ err.IsError) ↔
      backend.FailsFirst (heights blockStart (newest - 1)) := hloop.trans failsFrom_zero
  rw [← hfails]
  cases hcollect : backend.collectFees rewardPercentiles blockStart newest
      (FeeBackend.emptyRows (newest - blockStart)) with
  | error err =>
      rw [hcollect] at hcall
      rw [covers_of_error hcall]
      constructor
      · rintro ⟨hisError, hrefuses⟩
        exact ⟨⟨err, rfl, hisError⟩, hrefuses⟩
      · rintro ⟨⟨err', herr', hisError⟩, hrefuses⟩
        cases herr'
        exact ⟨hisError, hrefuses⟩
  | ok rows =>
      rw [hcollect] at hcall
      refine iff_of_false (not_covers_of_ok hcall hrange holdest) ?_
      rintro ⟨⟨err, herr, -⟩, -⟩
      cases herr

/-- A count that is too large as an `int64`, and so is too large: the error is what is wanted. -/
theorem feeHistory_covers_tooMany (hnewest : 1 ≤ newest) (hover : goInt64 userBlockCount > feeHistoryCap) :
    backend.Covers feeHistoryCap userBlockCount.toNat newest rewardPercentiles
      (backend.feeHistory maxLen feeHistoryCap userBlockCount newest rewardPercentiles) := by
  refine (covers_of_error (feeHistory_tooMany (blockEnd_of_pos hnewest) hover)).mpr ⟨trivial, Or.inl ?_⟩
  unfold goInt64 at hover
  split_ifs at hover <;> omega

/-- A count from `2 ^ 63` on with which the number of the first block overflows: the whole chain is read. -/
theorem feeHistory_covers_wrapped (hprocess : backend.Processes rewardPercentiles)
    (hcap : feeHistoryCap < 2 ^ 31) (hnewest : 1 ≤ newest) (hint64 : newest < 2 ^ 63)
    (hover : ¬goInt64 userBlockCount > feeHistoryCap) (hbig : 2 ^ 63 ≤ userBlockCount.toNat)
    (hwraps : 2 ^ 63 ≤ newest + 2 ^ 64 - userBlockCount.toNat) :
    backend.Covers feeHistoryCap userBlockCount.toNat newest rewardPercentiles
        (backend.feeHistory maxLen feeHistoryCap userBlockCount newest rewardPercentiles) ↔
      newest ≤ maxLen ∧ backend.FailsFirst (heights 0 (newest - 1)) := by
  have hbits := userBlockCount.toNat_lt
  have hgoInt64 : goInt64 userBlockCount = userBlockCount.toNat - 2 ^ 64 := if_neg (by omega)
  have hrefuses : backend.Refuses feeHistoryCap userBlockCount.toNat newest := Or.inl (by omega)
  have holdest : oldestRequested userBlockCount.toNat newest = 1 := by
    unfold oldestRequested
    omega
  have hfirst : int64 (newest - goInt64 userBlockCount) = newest - goInt64 userBlockCount - 2 ^ 64 :=
    int64_overflow (by omega) (by omega)
  have hstart : (if int64 (newest - goInt64 userBlockCount) < 0 then 0
      else int64 (newest - goInt64 userBlockCount)) = 0 := if_pos (by omega)
  have hexact : int64 (newest - 0) = newest - 0 := int64_eq (by omega) (by omega)
  by_cases hmake : maxLen < newest
  · rw [covers_of_error (feeHistory_makeslice (blockEnd_of_pos hnewest) hover hstart hexact (by omega))]
    exact iff_of_false (fun h => h.1) (by omega)
  · rw [feeHistory_covers_of_read hprocess hnewest hover hstart hexact (by omega) (by omega)
      (by rw [holdest]; norm_num) (by omega), and_iff_left hrefuses]
    exact (and_iff_right (not_lt.mp hmake)).symm

/-- A count from `2 ^ 63` on with which the first block is above the newest one: no slices are made. -/
theorem feeHistory_not_covers_negative (hnewest : 1 ≤ newest) (hint64 : newest < 2 ^ 63)
    (hover : ¬goInt64 userBlockCount > feeHistoryCap) (hbig : 2 ^ 63 ≤ userBlockCount.toNat)
    (hwraps : ¬2 ^ 63 ≤ newest + 2 ^ 64 - userBlockCount.toNat) :
    ¬backend.Covers feeHistoryCap userBlockCount.toNat newest rewardPercentiles
      (backend.feeHistory maxLen feeHistoryCap userBlockCount newest rewardPercentiles) := by
  have hbits := userBlockCount.toNat_lt
  have hgoInt64 : goInt64 userBlockCount = userBlockCount.toNat - 2 ^ 64 := if_neg (by omega)
  have hfirst : int64 (newest - goInt64 userBlockCount) = newest - goInt64 userBlockCount :=
    int64_eq (by omega) (by omega)
  have hstart : (if int64 (newest - goInt64 userBlockCount) < 0 then 0
      else int64 (newest - goInt64 userBlockCount)) = newest - goInt64 userBlockCount := by
    rw [if_neg (by omega), hfirst]
  have hexact : int64 (newest - (newest - goInt64 userBlockCount)) = goInt64 userBlockCount := by
    rw [sub_sub_cancel]
    exact int64_eq (by omega) (by omega)
  rw [covers_of_error (feeHistory_makeslice (blockEnd_of_pos hnewest) hover hstart hexact (by omega))]
  exact fun h => h.1

/-- The range that is read for a count within the cap begins one block before the one that was asked for. -/
theorem blockStart_eq (hnewest : 1 ≤ newest) (hint64 : newest < 2 ^ 63) (hsmall : userBlockCount.toNat < 2 ^ 31) :
    (if int64 (newest - goInt64 userBlockCount) < 0 then 0 else int64 (newest - goInt64 userBlockCount)) =
      oldestRequested userBlockCount.toNat newest - 1 := by
  have hgoInt64 : goInt64 userBlockCount = userBlockCount.toNat := if_pos (by omega)
  have hfirst : int64 (newest - goInt64 userBlockCount) = newest - goInt64 userBlockCount :=
    int64_eq (by omega) (by omega)
  unfold oldestRequested
  rw [hfirst]
  split_ifs <;> omega

/-- A count of 0: no block is read, and none was asked for. -/
theorem feeHistory_covers_none (hlen : 2 ^ 31 ≤ maxLen) (hnewest : 1 ≤ newest) (hint64 : newest < 2 ^ 63)
    (hover : ¬goInt64 userBlockCount > feeHistoryCap) (hzero : userBlockCount.toNat = 0) :
    backend.Covers feeHistoryCap userBlockCount.toNat newest rewardPercentiles
      (backend.feeHistory maxLen feeHistoryCap userBlockCount newest rewardPercentiles) := by
  have hgoInt64 : goInt64 userBlockCount = userBlockCount.toNat := if_pos (by omega)
  have hnone : oldestRequested userBlockCount.toNat newest - 1 = newest := by
    unfold oldestRequested
    omega
  have hsmall : userBlockCount.toNat < 2 ^ 31 := by omega
  have hstart := blockStart_eq hnewest hint64 hsmall
  rw [hnone] at hstart
  have hexact : int64 (newest - newest) = newest - newest := int64_eq (by omega) (by omega)
  have hcall : backend.feeHistory maxLen feeHistoryCap userBlockCount newest rewardPercentiles = _ :=
    feeHistory_eq (blockEnd_of_pos hnewest) hover hstart hexact (by omega)
  have hcollect : backend.collectFees rewardPercentiles newest newest
      (FeeBackend.emptyRows (newest - newest)) = .ok [] := by
    unfold FeeBackend.collectFees FeeBackend.emptyRows
    rw [heights_eq_nil (by omega), sub_self]
    rfl
  rw [hcollect] at hcall
  refine ⟨?_, ?_⟩
  · rintro (hcap | ⟨blockID, hmem, -⟩)
    · omega
    · rw [mem_heights] at hmem
      omega
  · intro _
    refine ⟨_, [], hcall, ⟨?_, rfl, rfl, rfl, by omega⟩⟩
    rw [heights_eq_nil (by omega)]
    exact .nil

/-- Any other count within the cap: the blocks that are read are not those that were asked for. -/
theorem feeHistory_covers_some (hprocess : backend.Processes rewardPercentiles) (hlen : 2 ^ 31 ≤ maxLen)
    (hcap : feeHistoryCap < 2 ^ 31) (hnewest : 1 ≤ newest) (hint64 : newest < 2 ^ 63)
    (hover : ¬goInt64 userBlockCount > feeHistoryCap) (hbig : ¬2 ^ 63 ≤ userBlockCount.toNat)
    (hzero : userBlockCount.toNat ≠ 0) :
    backend.Covers feeHistoryCap userBlockCount.toNat newest rewardPercentiles
        (backend.feeHistory maxLen feeHistoryCap userBlockCount newest rewardPercentiles) ↔
      backend.FailsFirst (heights (oldestRequested userBlockCount.toNat newest - 1) (newest - 1)) ∧
        ∃ blockID ∈ heights (oldestRequested userBlockCount.toNat newest) newest, ¬backend.Fetches blockID := by
  have hgoInt64 : goInt64 userBlockCount = userBlockCount.toNat := if_pos (by omega)
  have hsmall : userBlockCount.toNat < 2 ^ 31 := by omega
  have hstart := blockStart_eq hnewest hint64 hsmall
  have hbounds : 0 ≤ oldestRequested userBlockCount.toNat newest - 1 ∧
      newest - (oldestRequested userBlockCount.toNat newest - 1) < 2 ^ 31 ∧
      oldestRequested userBlockCount.toNat newest ≤ newest := by
    unfold oldestRequested
    omega
  have hexact : int64 (newest - (oldestRequested userBlockCount.toNat newest - 1)) =
      newest - (oldestRequested userBlockCount.toNat newest - 1) := int64_eq (by omega) (by omega)
  rw [feeHistory_covers_of_read hprocess hnewest hover hstart hexact (by omega) (by omega) (by omega) (by omega)]
  unfold FeeBackend.Refuses
  rw [or_iff_right (by omega)]

end ranges

/-- **The history covers the range that was asked for**, if and only if the count is 0, or exceeds the cap as an
`int64`, or the blocks that were asked for and those that are read each have one that cannot be fetched. A count
from `2 ^ 63` on is a negative `int64`: the call panics, unless the first block overflows and the whole chain is
read. -/
theorem feeHistory_covers_iff (backend : FeeBackend ε β φ ρ) (rewardPercentiles : List φ)
    (hprocess : backend.Processes rewardPercentiles) (maxLen feeHistoryCap : ℤ) (hlen : 2 ^ 31 ≤ maxLen)
    (hcap : feeHistoryCap < 2 ^ 31) (userBlockCount : UInt64) (newest : ℤ) (hnewest : 1 ≤ newest)
    (hint64 : newest < 2 ^ 63) :
    backend.Covers feeHistoryCap userBlockCount.toNat newest rewardPercentiles
        (backend.feeHistory maxLen feeHistoryCap userBlockCount newest rewardPercentiles) ↔
      backend.RangeHolds maxLen feeHistoryCap userBlockCount.toNat newest := by
  have hgoInt64 : goInt64 userBlockCount = if userBlockCount.toNat < 2 ^ 63 then (userBlockCount.toNat : ℤ)
      else userBlockCount.toNat - 2 ^ 64 := rfl
  unfold FeeBackend.RangeHolds
  by_cases hbig : 2 ^ 63 ≤ userBlockCount.toNat
  · rw [if_neg (by omega)] at hgoInt64
    rw [if_pos hbig]
    by_cases hover : goInt64 userBlockCount > feeHistoryCap
    · exact iff_of_true (feeHistory_covers_tooMany hnewest hover) (Or.inl (by omega))
    · rw [or_iff_right (by omega)]
      by_cases hwraps : 2 ^ 63 ≤ newest + 2 ^ 64 - userBlockCount.toNat
      · rw [feeHistory_covers_wrapped hprocess hcap hnewest hint64 hover hbig hwraps, and_iff_right hwraps]
      · exact iff_of_false (feeHistory_not_covers_negative hnewest hint64 hover hbig hwraps) fun h => hwraps h.1
  · rw [if_pos (by omega)] at hgoInt64
    rw [if_neg hbig]
    by_cases hover : goInt64 userBlockCount > feeHistoryCap
    · exact iff_of_true (feeHistory_covers_tooMany hnewest hover) (Or.inl (by omega))
    · rw [or_iff_right (by omega)]
      by_cases hzero : userBlockCount.toNat = 0
      · exact iff_of_true (feeHistory_covers_none hlen hnewest hint64 hover hzero) (Or.inl hzero)
      · rw [or_iff_right hzero, feeHistory_covers_some hprocess hlen hcap hnewest hint64 hover hbig hzero]

end backend

/-! ## A chain of three blocks -/

/-- A node with three blocks, the second of which was pruned if asked for. -/
def feeClient (pruned : Bool) : TmClient where
  txSearch _ := .ok []
  block height :=
    if 1 ≤ height ∧ height ≤ 3 ∧ ¬(pruned ∧ height = 2) then .ok (some ⟨height, [], []⟩)
    else .error "height is not available"
  blockByHash _ := .ok none
  blockNumber := .ok 3

/-- The ratio of a block is its height, in this backend. -/
def feeBackend (pruned : Bool) : FeeBackend Unit Unit Unit ℤ where
  client := feeClient pruned
  ethBlockFromTendermint _ := .ok ()
  blockResults _ := .ok (some ())
  processBlock blk _ percentiles _ := .ok ⟨some 7, percentiles.map fun _ => none, blk.height⟩

/-- The sample backend processes every block. -/
theorem feeBackend_processes (pruned : Bool) (percentiles : List Unit) :
    (feeBackend pruned).Processes percentiles := by
  intro blk eth result
  exact ⟨_, rfl, List.length_map _⟩

/-- Two blocks up to block 3 are asked for, and block 2 cannot be fetched. -/
theorem feeHistory_pruned :
    (feeBackend true).Covers 100 (2 : UInt64).toNat 3 [()] ((feeBackend true).feeHistory (2 ^ 43) 100 2 3 [()]) := by
  have hfetch : (feeBackend true).fetchBlock 2 = .error (.fetch (.client "height is not available")) :=
    rfl
  refine (feeHistory_covers_iff (feeBackend true) [()] (feeBackend_processes true [()]) (2 ^ 43) 100 (by norm_num)
    (by norm_num) 2 3 (by norm_num) (by norm_num)).mpr ?_
  unfold FeeBackend.RangeHolds
  rw [if_neg (by decide +kernel)]
  refine Or.inr (Or.inr ⟨?_, 2, by decide +kernel, ?_⟩)
  · refine ⟨[1], 2, [], _, by decide +kernel, by norm_num, ?_, hfetch, trivial⟩
    intro x hx
    rw [List.mem_singleton] at hx
    rw [hx]
    exact ⟨_, rfl⟩
  · rintro ⟨fetched, hfetched⟩
    rw [hfetch] at hfetched
    cases hfetched

/-- One block up to block 3 is asked for: the result begins with block 2, and has its ratio. -/
theorem feeHistory_misses_newest :
    ∃ res, (feeBackend false).feeHistory (2 ^ 43) 100 1 3 [] = .ok res ∧ res.oldestBlock = 2 ∧
      res.gasUsedRatio = [2] ∧ oldestRequested 1 3 = 3 ∧
      ¬(feeBackend false).Covers 100 1 3 [] ((feeBackend false).feeHistory (2 ^ 43) 100 1 3 []) := by
  obtain ⟨res, hres, holdest, hratio⟩ : ∃ res, (feeBackend false).feeHistory (2 ^ 43) 100 1 3 [] = .ok res ∧
      res.oldestBlock = 2 ∧ res.gasUsedRatio = [2] := ⟨_, rfl, rfl, rfl⟩
  refine ⟨res, hres, holdest, hratio, by decide, not_covers_of_ok hres (by decide) ?_⟩
  rw [holdest]
  decide

end Smartdoge.Rpc
