import Smartdoge.Lib.Quantile
import Smartdoge.Rpc.Events
import Smartdoge.Rpc.FeeHistory

/-!
# Rewards of a block

`processBlock` computes what `eth_feeHistory` says of a block. For every percentile it returns the tip at which that
part of the gas of the block was used, going through the transactions in the order of their tips. The index and the
sum are kept from one percentile to the next, so a percentile that is lower than one before it gets the same tip as
that. A Cosmos transaction counts with all of its gas for each of its messages.

* `advance_cursor`: what the inner loop does.
* **`rewards_quantile`**: every reward is the quantile at the greatest threshold so far, whatever the sort does with
  equal tips; rewards never decrease.
* **`feeHistory_rewards`**: so are those of a whole call.
-/

set_option linter.unusedSectionVars false

namespace Smartdoge.Rpc

open Smartdoge.Lib
open Smartdoge.Lib.Quantile
open Smartdoge.Lib.Writes
open Smartdoge.Evm
open Smartdoge.Ante

/-! ## Tips -/

/-- Source: `rpc/backend/utils.go` `txGasAndReward` -/
structure TxGasAndReward where
  gasUsed : UInt64
  reward : ℤ
deriving DecidableEq

/-- Source: go-ethereum `Transaction.EffectiveGasTipValue`, of `AsTransaction` -/
def effectiveGasTipValue (tx : TxData) (baseFee : Option ℤ) : ℤ :=
  let tip := tx.getGasTipCap.getD 0
  match baseFee with
  | none => tip
  | some baseFee => min tip (tx.getGasFeeCap.getD 0 - baseFee)

/-- The entries of a transaction.
Source: `rpc/backend/utils.go` `processBlock`, the loop over the messages -/
def msgRewards (baseFee : Option ℤ) (msgs : List Msg) (result : TxResult) : List TxGasAndReward :=
  msgs.filterMap fun msg =>
    match msg with
    | .ethereumTx eth => some ⟨UInt64.ofInt result.gasUsed, effectiveGasTipValue eth.data baseFee⟩
    | .exec _ _ | .other _ _ => none

/-- Transactions that cannot be decoded are left out.
Source: `rpc/backend/utils.go` `processBlock`, the loop over the transactions -/
def blockRewards (baseFee : Option ℤ) : List (Option (List Msg)) → List TxResult → Except Panic (List TxGasAndReward)
  | [], _ => .ok []
  | _ :: _, [] => .error .indexOutOfRange
  | tx :: txs, result :: results => do
    let rest ← blockRewards baseFee txs results
    .ok ((tx.map fun msgs => msgRewards baseFee msgs result).getD [] ++ rest)

/-- `sort.Sort` on `sortGasAndReward`: any order in which the rewards do not decrease. -/
structure Sorter where
  sort : List TxGasAndReward → List TxGasAndReward
  perm : ∀ l, (sort l).Perm l
  sorted : ∀ l, (sort l).Pairwise fun a b => a.reward ≤ b.reward

/-! ## Percentiles -/

/-- `sorter[txIndex]`, `sumGasUsed` and the entries after `txIndex`. -/
structure Cursor where
  entry : TxGasAndReward
  sumGasUsed : UInt64
  rest : List TxGasAndReward

/-- Source: `rpc/backend/utils.go` `processBlock`, `for sumGasUsed < thresholdGasUsed && txIndex < ethTxCount-1` -/
def advance (threshold : UInt64) (entry : TxGasAndReward) (sumGasUsed : UInt64) : List TxGasAndReward → Cursor
  | [] => ⟨entry, sumGasUsed, []⟩
  | next :: rest =>
    if sumGasUsed < threshold then advance threshold next (sumGasUsed + next.gasUsed) rest
    else ⟨entry, sumGasUsed, next :: rest⟩

/-- Source: `rpc/backend/utils.go` `processBlock`, the loop over the percentiles -/
def percentileRewards : Cursor → List UInt64 → List ℤ
  | _, [] => []
  | c, threshold :: thresholds =>
    let c := advance threshold c.entry c.sumGasUsed c.rest
    c.entry.reward :: percentileRewards c thresholds

/-- The rewards of some entries, all zero if there are none.
Source: `rpc/backend/utils.go` `processBlock`, from `ethTxCount` on -/
def rewards (sorter : Sorter) (entries : List TxGasAndReward) (thresholds : List UInt64) : List ℤ :=
  match sorter.sort entries with
  | [] => thresholds.map fun _ => 0
  | first :: rest => percentileRewards ⟨first, first.gasUsed, rest⟩ thresholds

/-- What is read of the map that `EthBlockFromTendermint` returns. -/
structure EthBlock where
  gasLimit : UInt64
  gasUsed : ℤ

/-- The arithmetic of `float64`, on values of two types. -/
structure Floats (φ ρ : Type) where
  /-- `gasusedfloat / float64(gasLimitUint64)`. -/
  ratio : ℤ → UInt64 → ρ
  /-- `uint64(blockGasUsed * p / 100)`. -/
  threshold : ℤ → φ → UInt64

section process

variable {φ ρ : Type} (floats : Floats φ ρ) (sorter : Sorter) (baseFee : ℤ → Except String (Option ℤ))

/-- Source: `rpc/backend/utils.go` `processBlock` -/
def processBlock (tendermintBlock : ResultBlock) (ethBlock : EthBlock) (rewardPercentiles : List φ)
    (results : List TxResult) : Except FeeEnd (OneFeeHistory ρ) := do
  let blockBaseFee ← (baseFee tendermintBlock.height).mapError .client
  if ethBlock.gasLimit = 0 then
    .error (.client s!"gasLimit of block height {tendermintBlock.height} should be bigger than 0 , current gaslimit 0")
  else
    let entries ← (blockRewards blockBaseFee tendermintBlock.txs results).mapError .panic
    .ok
      { baseFee := blockBaseFee
        reward := (rewards sorter entries (rewardPercentiles.map (floats.threshold ethBlock.gasUsed))).map some
        gasUsedRatio := floats.ratio ethBlock.gasUsed ethBlock.gasLimit }

end process

/-! ## The inner loop -/

/-- The gas of some entries. -/
def totalGas (entries : List TxGasAndReward) : ℕ := (entries.map fun x => x.gasUsed.toNat).sum

/-- The cursor has gone through some entries, to the place of a level. -/
structure Cursor.At (c : Cursor) (entries before : List TxGasAndReward) (level : ℕ) : Prop where
  split : entries = before ++ c.entry :: c.rest
  sum : c.sumGasUsed.toNat = totalGas (before ++ [c.entry])
  needed : before = [] ∨ totalGas before < level
  enough : c.rest = [] ∨ level ≤ totalGas (before ++ [c.entry])

/-- The gas of two lists of entries. -/
theorem totalGas_append (xs ys : List TxGasAndReward) : totalGas (xs ++ ys) = totalGas xs + totalGas ys := by
  simp [totalGas]

/-- The gas of one entry. -/
theorem totalGas_singleton (x : TxGasAndReward) : totalGas [x] = x.gasUsed.toNat := by
  simp [totalGas]

/-- The sum of the next entry, where the sum of all is a `uint64`. -/
theorem sum_next {entries before rest : List TxGasAndReward} {entry next : TxGasAndReward} {sumGasUsed : UInt64}
    (hsplit : entries = before ++ entry :: next :: rest) (hsum : sumGasUsed.toNat = totalGas (before ++ [entry]))
    (htotal : totalGas entries < 2 ^ 64) :
    (sumGasUsed + next.gasUsed).toNat = totalGas (before ++ [entry] ++ [next]) := by
  have hall : totalGas entries = totalGas (before ++ [entry] ++ [next]) + totalGas rest := by
    rw [← totalGas_append, hsplit]
    simp
  have hnext : totalGas (before ++ [entry] ++ [next]) = totalGas (before ++ [entry]) + next.gasUsed.toNat := by
    rw [totalGas_append (before ++ [entry]), totalGas_singleton]
  rw [UInt64.toNat_add, hsum, ← hnext]
  exact Nat.mod_eq_of_lt (by omega)

/-- **The inner loop** goes on to the place of the greater of the level and the threshold. -/
theorem advance_cursor {entries : List TxGasAndReward} (htotal : totalGas entries < 2 ^ 64) {level : ℕ}
    (threshold : UInt64) {rest before : List TxGasAndReward} {entry : TxGasAndReward} {sumGasUsed : UInt64}
    (hsplit : entries = before ++ entry :: rest) (hsum : sumGasUsed.toNat = totalGas (before ++ [entry]))
    (hneeded : before = [] ∨ totalGas before < max level threshold.toNat)
    (henough : rest = [] ∨ level ≤ totalGas (before ++ [entry])) :
    ∃ before', (advance threshold entry sumGasUsed rest).At entries before' (max level threshold.toNat) := by
  induction rest generalizing before entry sumGasUsed with
  | nil => exact ⟨before, hsplit, hsum, hneeded, Or.inl rfl⟩
  | cons next rest ih =>
      have hlevel : level ≤ totalGas (before ++ [entry]) := henough.resolve_left (by simp)
      unfold advance
      split_ifs with hless
      · have hless : sumGasUsed.toNat < threshold.toNat := UInt64.lt_iff_toNat_lt.mp hless
        have hmore : totalGas (before ++ [entry]) ≤ totalGas (before ++ [entry] ++ [next]) := by
          rw [totalGas_append (before ++ [entry])]
          exact Nat.le_add_right _ _
        refine ih (by rw [hsplit]; simp) (sum_next hsplit hsum htotal) (Or.inr ?_) (Or.inr (le_trans hlevel hmore))
        rw [← hsum]
        exact lt_of_lt_of_le hless (le_max_right _ _)
      · have hge : threshold.toNat ≤ sumGasUsed.toNat := by
          rw [← UInt64.le_iff_toNat_le]
          exact UInt64.not_lt.mp hless
        exact ⟨before, hsplit, hsum, hneeded, Or.inr (max_le hlevel (hsum ▸ hge))⟩

/-- **The inner loop** moves the cursor to the place of the greater level. -/
theorem Cursor.At.advance {entries : List TxGasAndReward} (htotal : totalGas entries < 2 ^ 64) {c : Cursor}
    {before : List TxGasAndReward} {level : ℕ} (h : c.At entries before level) (threshold : UInt64) :
    ∃ before', (advance threshold c.entry c.sumGasUsed c.rest).At entries before' (max level threshold.toNat) :=
  advance_cursor htotal threshold h.split h.sum
    (h.needed.imp_right fun hlt => lt_of_lt_of_le hlt (le_max_left _ _)) h.enough

/-! ## The rewards -/

/-- The reward is the quantile of the gas at a level. -/
abbrev IsReward (entries : List TxGasAndReward) (level : ℕ) (reward : ℤ) : Prop :=
  IsQuantile TxGasAndReward.reward (fun x => x.gasUsed.toNat) entries level reward

/-- The greatest threshold so far, at each place. -/
def runningMax : ℕ → List UInt64 → List ℕ
  | _, [] => []
  | level, threshold :: thresholds => max level threshold.toNat :: runningMax (max level threshold.toNat) thresholds

/-- The greatest thresholds so far are in order. -/
theorem pairwise_runningMax (level : ℕ) (thresholds : List UInt64) :
    (∀ m ∈ runningMax level thresholds, level ≤ m) ∧ (runningMax level thresholds).Pairwise (· ≤ ·) := by
  induction thresholds generalizing level with
  | nil => exact ⟨by simp [runningMax], List.Pairwise.nil⟩
  | cons threshold thresholds ih =>
      obtain ⟨hall, hpairs⟩ := ih (max level threshold.toNat)
      refine ⟨?_, List.pairwise_cons.mpr ⟨hall, hpairs⟩⟩
      intro m hm
      rcases List.mem_cons.mp hm with rfl | hm
      · exact le_max_left _ _
      · exact le_trans (le_max_left _ _) (hall m hm)

/-- Thresholds that do not decrease are their own maxima. -/
theorem runningMax_of_pairwise {level : ℕ} {thresholds : List UInt64} (hlevel : ∀ t ∈ thresholds, level ≤ t.toNat)
    (hpairs : thresholds.Pairwise (· ≤ ·)) : runningMax level thresholds = thresholds.map UInt64.toNat := by
  induction thresholds generalizing level with
  | nil => rfl
  | cons threshold thresholds ih =>
      obtain ⟨hfirst, hrest⟩ := List.pairwise_cons.mp hpairs
      have hmax : max level threshold.toNat = threshold.toNat := max_eq_right (hlevel threshold List.mem_cons_self)
      rw [runningMax, hmax, ih (fun t ht => UInt64.le_iff_toNat_le.mp (hfirst t ht)) hrest, List.map_cons]

/-- **The loop over the percentiles.** -/
theorem percentileRewards_quantile {entries : List TxGasAndReward}
    (hsorted : entries.Pairwise fun a b => a.reward ≤ b.reward) (htotal : totalGas entries < 2 ^ 64)
    (thresholds : List UInt64) {c : Cursor} {before : List TxGasAndReward} {level : ℕ} (h : c.At entries before level) :
    List.Forall₂ (IsReward entries) (runningMax level thresholds) (percentileRewards c thresholds) := by
  induction thresholds generalizing c before level with
  | nil => exact .nil
  | cons threshold thresholds ih =>
      obtain ⟨before', hat⟩ := h.advance htotal threshold
      refine .cons ?_ (ih hat)
      rw [hat.split] at hsorted ⊢
      exact isQuantile_of_split hsorted hat.needed hat.enough

/-- The gas does not depend on the order. -/
theorem totalGas_perm {xs ys : List TxGasAndReward} (h : xs.Perm ys) : totalGas xs = totalGas ys := by
  unfold totalGas
  exact (h.map fun x => x.gasUsed.toNat).sum_eq

/-- **Each reward is that of the greatest threshold so far.** -/
theorem forall₂_rewards (sorter : Sorter) {entries : List TxGasAndReward} (hne : entries ≠ [])
    (htotal : totalGas entries < 2 ^ 64) (thresholds : List UInt64) :
    List.Forall₂ (IsReward entries) (runningMax 0 thresholds) (rewards sorter entries thresholds) := by
  have hperm := sorter.perm entries
  have hsorted := sorter.sorted entries
  unfold rewards
  cases hsort : sorter.sort entries with
  | nil =>
      rw [hsort] at hperm
      exact absurd hperm.nil_eq.symm hne
  | cons first rest =>
      rw [hsort] at hperm hsorted
      have hstart : Cursor.At ⟨first, first.gasUsed, rest⟩ (first :: rest) [] 0 :=
        ⟨rfl, (totalGas_singleton first).symm, Or.inl rfl, Or.inr (Nat.zero_le _)⟩
      have hloop := percentileRewards_quantile hsorted (by rwa [totalGas_perm hperm]) thresholds hstart
      exact hloop.imp fun level reward h => h.perm hperm

/-- Every reward is that of one of the levels. -/
theorem exists_level {entries : List TxGasAndReward} {levels : List ℕ} {values : List ℤ}
    (h : List.Forall₂ (IsReward entries) levels values) {value : ℤ} (hvalue : value ∈ values) :
    ∃ level ∈ levels, IsReward entries level value := by
  induction h with
  | nil => simp at hvalue
  | @cons level first levels values hone hrest ih =>
      rcases List.mem_cons.mp hvalue with rfl | hvalue
      · exact ⟨level, List.mem_cons_self, hone⟩
      · obtain ⟨level', hlevel', hquantile⟩ := ih hvalue
        exact ⟨level', List.mem_cons_of_mem _ hlevel', hquantile⟩

/-- Quantiles at levels that do not decrease. -/
theorem pairwise_of_quantiles {entries : List TxGasAndReward} {levels : List ℕ} {values : List ℤ}
    (h : List.Forall₂ (IsReward entries) levels values) (hpairs : levels.Pairwise (· ≤ ·)) :
    values.Pairwise (· ≤ ·) := by
  induction h with
  | nil => exact List.Pairwise.nil
  | @cons level value levels values hone hrest ih =>
      obtain ⟨hfirst, hpairs'⟩ := List.pairwise_cons.mp hpairs
      refine List.pairwise_cons.mpr ⟨?_, ih hpairs'⟩
      intro value' hvalue'
      obtain ⟨level', hlevel', hquantile⟩ := exists_level hrest hvalue'
      exact hone.mono hquantile (hfirst level' hlevel')

/-- **Every reward is a quantile of the gas of the block**: the lowest tip up to which the transactions used as much
gas as the threshold of the percentile, or of one before it if that is greater. It does not depend on how the sort
places equal tips, and rewards never decrease. -/
theorem rewards_quantile (sorter : Sorter) {entries : List TxGasAndReward} (hne : entries ≠ [])
    (htotal : totalGas entries < 2 ^ 64) (thresholds : List UInt64) :
    List.Forall₂ (IsReward entries) (runningMax 0 thresholds) (rewards sorter entries thresholds) ∧
      (rewards sorter entries thresholds).Pairwise (· ≤ ·) ∧
      (thresholds.Pairwise (· ≤ ·) →
        List.Forall₂ (IsReward entries) (thresholds.map UInt64.toNat) (rewards sorter entries thresholds)) := by
  have hall := forall₂_rewards sorter hne htotal thresholds
  refine ⟨hall, pairwise_of_quantiles hall (pairwise_runningMax 0 thresholds).2, fun hpairs => ?_⟩
  rwa [runningMax_of_pairwise (fun _ _ => Nat.zero_le _) hpairs] at hall

/-- An insertion sort. -/
def insertionSorter : Sorter where
  sort := List.insertionSort fun a b => a.reward ≤ b.reward
  perm := List.perm_insertionSort _
  sorted :=
    haveI : Std.Total fun a b : TxGasAndReward => a.reward ≤ b.reward := ⟨fun a b => le_total a.reward b.reward⟩
    haveI : IsTrans TxGasAndReward fun a b => a.reward ≤ b.reward := ⟨fun _ _ _ => le_trans⟩
    List.pairwise_insertionSort _

/-- Three transactions, two of them with one tip. -/
def sampleEntries : List TxGasAndReward := [⟨30000, 5⟩, ⟨21000, 1⟩, ⟨50000, 5⟩]

/-- The second threshold is reached by the first transaction in the order of the tips, and gets the tip of the first
threshold. -/
theorem rewards_quantile_decreasing :
    rewards insertionSorter sampleEntries [40000, 20000] = [5, 5] ∧
      List.Forall₂ (IsReward sampleEntries) [40000, 40000] [5, 5] := by
  have hrewards : rewards insertionSorter sampleEntries [40000, 20000] = [5, 5] := by decide
  have h := (rewards_quantile insertionSorter (by decide : sampleEntries ≠ []) (by decide) [40000, 20000]).1
  rw [hrewards] at h
  exact ⟨hrewards, h⟩

/-! ## A whole call -/

section history

variable {φ ρ : Type} [Inhabited ρ] {backend : FeeBackend EthBlock (List TxResult) φ ρ} {rewardPercentiles : List φ}

/-- What the backend returns for a block is returned by `processBlock`. -/
def Processing (backend : FeeBackend EthBlock (List TxResult) φ ρ) (floats : Floats φ ρ) (sorter : Sorter)
    (baseFee : ℤ → Except String (Option ℤ)) (rewardPercentiles : List φ) : Prop :=
  ∀ blk eth results one, backend.processBlock blk eth rewardPercentiles results = .ok one →
    processBlock floats sorter baseFee blk eth rewardPercentiles results = .ok one

/-- The row of a block: quantiles of the gas of its transactions, or zeros if it has none. -/
def RewardsOf (backend : FeeBackend EthBlock (List TxResult) φ ρ) (floats : Floats φ ρ)
    (baseFee : ℤ → Except String (Option ℤ)) (rewardPercentiles : List φ) (blockID : ℤ) (row : List ℤ) : Prop :=
  ∃ blk eth results fee entries, backend.fetchBlock blockID = .ok (blk, eth, results) ∧
    baseFee blk.height = .ok fee ∧ blockRewards fee blk.txs results = .ok entries ∧
    (entries = [] → row = rewardPercentiles.map fun _ => 0) ∧
    (entries ≠ [] → totalGas entries < 2 ^ 64 →
      List.Forall₂ (IsReward entries) (runningMax 0 (rewardPercentiles.map (floats.threshold eth.gasUsed))) row)

/-- There is one reward for each threshold. -/
theorem length_percentileRewards (c : Cursor) (thresholds : List UInt64) :
    (percentileRewards c thresholds).length = thresholds.length := by
  induction thresholds generalizing c with
  | nil => rfl
  | cons threshold thresholds ih => simp [percentileRewards, ih]

/-- The same for the rewards of a block. -/
theorem length_rewards (sorter : Sorter) (entries : List TxGasAndReward) (thresholds : List UInt64) :
    (rewards sorter entries thresholds).length = thresholds.length := by
  unfold rewards
  split
  · rw [List.length_map]
  · exact length_percentileRewards _ _

/-- The rewards of a block without transactions are zero. -/
theorem rewards_nil (sorter : Sorter) (thresholds : List UInt64) :
    rewards sorter [] thresholds = thresholds.map fun _ => 0 := by
  unfold rewards
  rw [(sorter.perm []).eq_nil]

/-- One block. -/
theorem feeRow_rewards {floats : Floats φ ρ} {sorter : Sorter} {baseFee : ℤ → Except String (Option ℤ)}
    (hbackend : Processing backend floats sorter baseFee rewardPercentiles)
    {blockID : ℤ} {row : FeeRow ρ} (h : backend.feeRow rewardPercentiles blockID = .ok row) :
    RewardsOf backend floats baseFee rewardPercentiles blockID row.reward := by
  obtain ⟨⟨blk, eth, results⟩, hfetch, h⟩ := except_bind_ok.mp h
  obtain ⟨one, hone, h⟩ := except_bind_ok.mp h
  obtain ⟨reward, hreward, h⟩ := except_bind_ok.mp h
  cases h
  have hprocess := hbackend blk eth results one (mapError_ok.mp hone)
  obtain ⟨fee, hfee, hprocess⟩ := except_bind_ok.mp hprocess
  split_ifs at hprocess
  obtain ⟨entries, hentries, hprocess⟩ := except_bind_ok.mp hprocess
  cases hprocess
  have hrow : rewards sorter entries (rewardPercentiles.map (floats.threshold eth.gasUsed)) = reward := by
    unfold FeeBackend.rewardRow at hreward
    split_ifs at hreward
    rw [← Except.ok.inj hreward]
    have hlength : rewardPercentiles.length =
        (rewards sorter entries (rewardPercentiles.map (floats.threshold eth.gasUsed))).length := by
      rw [length_rewards, List.length_map]
    simp [hlength]
  refine ⟨blk, eth, results, fee, entries, hfetch, mapError_ok.mp hfee, mapError_ok.mp hentries, ?_, ?_⟩
  · rintro rfl
    show reward = _
    rw [← hrow, rewards_nil, List.map_map]
    rfl
  · intro hne htotal
    show List.Forall₂ _ _ reward
    rw [← hrow]
    exact forall₂_rewards sorter hne htotal _

/-- **The rewards that `eth_feeHistory` returns**, if it returns a result: a row for each block from the oldest one
to the one before the newest, with the quantiles of the gas that its transactions used. The newest block is the one
that was asked for, or the last one of the chain for `latest`, `pending` and `earliest`. -/
theorem feeHistory_rewards {floats : Floats φ ρ} {sorter : Sorter} {baseFee : ℤ → Except String (Option ℤ)}
    (hbackend : Processing backend floats sorter baseFee rewardPercentiles)
    (hpercentiles : rewardPercentiles ≠ []) {maxLen feeHistoryCap : ℤ} {userBlockCount : UInt64}
    {lastBlock newest : ℤ} (hend : backend.blockEnd lastBlock = .ok newest) (hnewest : 0 ≤ newest)
    (hint64 : newest < 2 ^ 63) {res : FeeHistoryResult ρ}
    (h : backend.feeHistory maxLen feeHistoryCap userBlockCount lastBlock rewardPercentiles = .ok res) :
    ∃ rows, res.reward = some rows ∧ List.Forall₂ (RewardsOf backend floats baseFee rewardPercentiles)
      (heights res.oldestBlock (newest - 1)) rows := by
  obtain ⟨blockStart, hstart⟩ : ∃ blockStart, (if int64 (newest - goInt64 userBlockCount) < 0 then 0
    else int64 (newest - goInt64 userBlockCount)) = blockStart := ⟨_, rfl⟩
  have hnonneg : 0 ≤ blockStart ∧ blockStart < 2 ^ 63 := by
    have hrange := int64_range (newest - goInt64 userBlockCount)
    split_ifs at hstart <;> omega
  have hcount : int64 (newest - blockStart) = newest - blockStart := int64_eq (by omega) (by omega)
  have hcap : ¬goInt64 userBlockCount > feeHistoryCap := by
    intro hover
    rw [feeHistory_tooMany hend hover] at h
    cases h
  have hmake : ¬(newest - blockStart < 0 ∨ maxLen < newest - blockStart) := by
    intro hmake
    rw [feeHistory_makeslice hend hcap hstart hcount hmake] at h
    cases h
  rw [feeHistory_eq hend hcap hstart hcount hmake] at h
  obtain ⟨rows, hrows, h⟩ := except_bind_ok.mp h
  cases h
  obtain ⟨new, hnew, hall⟩ := collectFees_rows (i := 0) (by rw [Nat.cast_zero, add_zero]) (by norm_num)
    ((length_emptyRows blockStart newest).trans (Nat.zero_add _).symm) hrows
  rw [List.take_zero, List.nil_append] at hnew
  subst hnew
  refine ⟨rows.map FeeRow.reward, if_pos ?_, ?_⟩
  · simpa using hpercentiles
  · rw [List.forall₂_map_right_iff]
    exact hall.imp fun blockID row hrow => feeRow_rewards hbackend hrow

end history

/-- Percentages of the gas, rounded down. -/
def wholeNumbers : Floats ℕ ℤ where
  ratio gasUsed gasLimit := gasUsed / gasLimit.toNat
  threshold gasUsed p := UInt64.ofInt (gasUsed * p / 100)

/-- Blocks with one transaction each, at a price of 10. -/
def rewardBackend : FeeBackend EthBlock (List TxResult) ℕ ℤ where
  client :=
    { txSearch _ := .ok []
      block height := .ok (some ⟨height, [], [some [.ethereumTx ⟨tracedTransfer 0 21000, none, ""⟩]]⟩)
      blockByHash _ := .ok none
      blockNumber := .ok 3 }
  ethBlockFromTendermint _ := .ok ⟨100000, 21000⟩
  blockResults _ := .ok (some [{ gasUsed := 21000, events := [] }])
  processBlock blk eth percentiles results :=
    (processBlock wholeNumbers insertionSorter (fun _ => .ok none) blk eth percentiles results).mapError
      fun _ => "failed to process the block"

/-- Two blocks up to the latest one, which is block 3. -/
theorem feeHistory_rewards_transfers :
    ∃ res, rewardBackend.feeHistory (2 ^ 43) 100 2 (-1) [50] = .ok res ∧ res.oldestBlock = 1 ∧
      ∃ rows, res.reward = some rows ∧
        List.Forall₂ (RewardsOf rewardBackend wholeNumbers (fun _ => .ok none) [50]) (heights 1 2) rows := by
  obtain ⟨res, hres, holdest⟩ : ∃ res, rewardBackend.feeHistory (2 ^ 43) 100 2 (-1) [50] = .ok res ∧
      res.oldestBlock = 1 := ⟨_, rfl, rfl⟩
  have hbackend : Processing rewardBackend wholeNumbers insertionSorter (fun _ => .ok none) [50] :=
    fun _ _ _ _ hone => mapError_ok.mp hone
  have hend : rewardBackend.blockEnd (-1) = .ok 3 := rfl
  have h := feeHistory_rewards hbackend (by decide) hend (by decide) (by decide) hres
  rw [holdest] at h
  exact ⟨res, hres, holdest, h⟩

end Smartdoge.Rpc
