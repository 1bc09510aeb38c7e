import Smartdoge.Evm.StateTransition
import Smartdoge.Lib.Loop

/-!
# The binary search for a gas limit

`x/evm/types/utils.go` `BinSearch`: an interval of gas limits is halved until its bounds are next to each other.
The lower bound is a gas limit that is not enough. The upper bound is not probed. Both the condition of the loop
and the midpoint are computed with `uint64` numbers, and wrap.

* `midpoint_between`: what keeps the midpoint between the bounds.
* `binSearch_spec`: with an upper bound of at most 2⁶³ the search ends, at a gas limit next to one that is not
  enough.
* **`searchesInside_iff`**: for which bounds the search ends and probes between them, whatever the executions
  do.
-/

set_option linter.unusedSectionVars false

namespace Smartdoge.Evm

open Smartdoge.Lib

/-- The bounds of the search. -/
structure Bounds where
  lo : UInt64
  hi : UInt64
deriving DecidableEq

/-- What a probe with a gas limit returns: whether the execution failed and its response, or an error. -/
abbrev Executable (ε : Type) := UInt64 → Except ε (Bool × Option Response)

/-- Source: `BinSearch`, the condition of the loop -/
def Bounds.isOpen (b : Bounds) : Bool := b.lo + 1 < b.hi

/-- Source: `BinSearch`, `mid` -/
def Bounds.mid (b : Bounds) : UInt64 := (b.hi + b.lo) / 2

section search

variable {ε : Type} (executable : Executable ε)

/-- Source: `BinSearch`, the loop -/
def searchRound (b : Bounds) : Loop.Round Bounds (Except ε UInt64) :=
  if b.isOpen then
    match executable b.mid with
    | .error err => .done (.error err)
    | .ok (failed, _) => .again (if failed then { b with lo := b.mid } else { b with hi := b.mid })
  else .done (.ok b.hi)

/-- The result after a number of rounds that is enough, `none` if it is not.
Source: `BinSearch` -/
def binSearch (rounds : ℕ) (lo hi : UInt64) : Option (Except ε UInt64) :=
  Loop.run (searchRound executable) rounds ⟨lo, hi⟩

/-- The gas limits that are probed in the first rounds. -/
def probes (rounds : ℕ) (lo hi : UInt64) : List UInt64 :=
  ((Loop.visits (searchRound executable) rounds ⟨lo, hi⟩).filter Bounds.isOpen).map Bounds.mid

variable {executable}

/-! ## A round -/

/-- The search ends where the bounds have met. -/
theorem searchRound_closed {b : Bounds} (h : b.isOpen = false) : searchRound executable b = .done (.ok b.hi) := by
  unfold searchRound
  rw [h]
  rfl

/-- It ends with the error of a probe. -/
theorem searchRound_error {b : Bounds} {err : ε} (hopen : b.isOpen = true) (h : executable b.mid = .error err) :
    searchRound executable b = .done (.error err) := by
  unfold searchRound
  rw [if_pos hopen, h]

/-- A probe in the middle replaces one of the bounds. -/
theorem searchRound_ok {b : Bounds} {failed : Bool} {rsp : Option Response} (hopen : b.isOpen = true)
    (h : executable b.mid = .ok (failed, rsp)) : searchRound executable b =
      .again (if failed then { b with lo := b.mid } else { b with hi := b.mid }) := by
  unfold searchRound
  rw [if_pos hopen, h]

/-- A round that goes on has probed the midpoint and moved one of the bounds to it. -/
theorem searchRound_again {b b' : Bounds} (h : searchRound executable b = .again b') :
    b.isOpen = true ∧ ∃ failed rsp, executable b.mid = .ok (failed, rsp) ∧
      b' = if failed then { b with lo := b.mid } else { b with hi := b.mid } := by
  cases hopen : b.isOpen with
  | false => simp [searchRound_closed hopen] at h
  | true =>
      cases hprobe : executable b.mid with
      | error err => simp [searchRound_error hopen hprobe] at h
      | ok result =>
          rw [searchRound_ok hopen hprobe, Loop.Round.again.injEq] at h
          exact ⟨rfl, result.1, result.2, rfl, h.symm⟩

/-! ## The midpoint -/

/-- There is something between the bounds, unless the lower one is the greatest `uint64`. -/
theorem isOpen_iff {b : Bounds} (hlo : b.lo.toNat + 1 < 2 ^ 64) :
    b.isOpen = true ↔ b.lo.toNat + 1 < b.hi.toNat := by
  unfold Bounds.isOpen
  rw [decide_eq_true_iff, UInt64.lt_iff_toNat_lt, UInt64.toNat_add, UInt64.toNat_one, Nat.mod_eq_of_lt hlo]

/-- The middle is half of a sum that may have wrapped. -/
theorem mid_toNat (b : Bounds) : b.mid.toNat = (b.hi.toNat + b.lo.toNat) % 2 ^ 64 / 2 := by
  unfold Bounds.mid
  rw [UInt64.toNat_div, UInt64.toNat_add]
  rfl

/-- The upper bound is small enough for sums with it, and above the lower one. -/
structure Bounds.Small (b : Bounds) : Prop where
  lt : b.lo.toNat < b.hi.toNat
  le : b.hi.toNat ≤ 2 ^ 63

/-- There is something between small bounds. -/
theorem Bounds.Small.isOpen_iff {b : Bounds} (h : b.Small) :
    b.isOpen = true ↔ b.lo.toNat + 1 < b.hi.toNat := by
  have hlt := h.lt
  have hle := h.le
  exact Evm.isOpen_iff (by omega)

/-- **The midpoint is between the bounds** while the interval is open. -/
theorem midpoint_between {b : Bounds} (h : b.Small) (hopen : b.isOpen = true) :
    b.lo.toNat < b.mid.toNat ∧ b.mid.toNat < b.hi.toNat := by
  have hlt := h.isOpen_iff.mp hopen
  have hle := h.le
  rw [mid_toNat, Nat.mod_eq_of_lt (by omega)]
  omega

/-! ## The search -/

/-- What the rounds keep, from the bounds `lo` and `hi`: the lower bound is the first one or a gas limit that is
not enough, the upper bound the last one or a gas limit that is. -/
structure Searched (executable : Executable ε) (lo hi : UInt64) (b : Bounds) : Prop extends Bounds.Small b where
  lower : b.lo = lo ∨ lo.toNat < b.lo.toNat ∧ ∃ rsp, executable b.lo = .ok (true, rsp)
  upper : b.hi = hi ∨ b.hi.toNat < hi.toNat ∧ ∃ rsp, executable b.hi = .ok (false, rsp)

/-- The lower bound only grows. -/
theorem Searched.lo_le {lo hi : UInt64} {b : Bounds} (h : Searched executable lo hi b) :
    lo.toNat ≤ b.lo.toNat := by
  rcases h.lower with hlower | ⟨hlt, -⟩
  · rw [hlower]
  · omega

/-- The upper bound only shrinks. -/
theorem Searched.le_hi {lo hi : UInt64} {b : Bounds} (h : Searched executable lo hi b) :
    b.hi.toNat ≤ hi.toNat := by
  rcases h.upper with hupper | ⟨hlt, -⟩
  · rw [hupper]
  · omega

/-- **A round that goes on** keeps it, and makes the interval smaller. -/
theorem Searched.again {lo hi : UInt64} {b b' : Bounds} (h : Searched executable lo hi b)
    (hround : searchRound executable b = .again b') :
    Searched executable lo hi b' ∧ b'.hi.toNat - b'.lo.toNat < b.hi.toNat - b.lo.toNat := by
  obtain ⟨hopen, failed, rsp, hprobe, rfl⟩ := searchRound_again hround
  obtain ⟨hleft, hright⟩ := midpoint_between h.toSmall hopen
  have hlo := h.lo_le
  have hhi := h.le_hi
  have hle := h.le
  cases failed with
  | true =>
      refine ⟨⟨⟨hright, hle⟩, Or.inr ⟨?_, rsp, hprobe⟩, h.upper⟩, ?_⟩
      · show lo.toNat < b.mid.toNat
        omega
      · show b.hi.toNat - b.mid.toNat < _
        omega
  | false =>
      refine ⟨⟨⟨hleft, ?_⟩, h.lower, Or.inr ⟨?_, rsp, hprobe⟩⟩, ?_⟩
      · show b.mid.toNat ≤ 2 ^ 63
        omega
      · show b.mid.toNat < hi.toNat
        omega
      · show b.mid.toNat - b.lo.toNat < _
        omega

/-- How the search ends: with an error of the gas limit that was probed, or next to a gas limit that is not
enough, or to the first lower bound. -/
inductive SearchEnd (executable : Executable ε) (lo hi : UInt64) : Except ε UInt64 → Prop where
  | error {gas : UInt64} {err : ε} (hlo : lo.toNat < gas.toNat) (hhi : gas.toNat < hi.toNat)
      (herr : executable gas = .error err) : SearchEnd executable lo hi (.error err)
  | found {b : Bounds} (h : Searched executable lo hi b) (hnext : b.hi.toNat = b.lo.toNat + 1) :
      SearchEnd executable lo hi (.ok b.hi)

/-- What the search has found when it ends. -/
theorem Searched.done {lo hi : UInt64} {b : Bounds} {result : Except ε UInt64}
    (h : Searched executable lo hi b) (hround : searchRound executable b = .done result) :
    SearchEnd executable lo hi result := by
  cases hopen : b.isOpen with
  | false =>
      rw [searchRound_closed hopen, Loop.Round.done.injEq] at hround
      rw [← hround]
      have hclosed : ¬b.lo.toNat + 1 < b.hi.toNat := by
        rw [← h.toSmall.isOpen_iff, hopen]
        exact Bool.false_ne_true
      have hlt := h.lt
      exact .found h (by omega)
  | true =>
      obtain ⟨hleft, hright⟩ := midpoint_between h.toSmall hopen
      have hlo := h.lo_le
      have hhi := h.le_hi
      cases hprobe : executable b.mid with
      | error err =>
          rw [searchRound_error hopen hprobe, Loop.Round.done.injEq] at hround
          rw [← hround]
          exact .error (by omega) (by omega) hprobe
      | ok r => simp [searchRound_ok hopen hprobe] at hround

variable (executable) in
/-- **The search ends**, and probes between the bounds, if the upper bound is above the lower one and at most
2⁶³. -/
theorem binSearch_spec {lo hi : UInt64} (hsmall : Bounds.Small ⟨lo, hi⟩) {rounds : ℕ}
    (hrounds : hi.toNat - lo.toNat < rounds) : ∃ result, binSearch executable rounds lo hi = some result ∧
      SearchEnd executable lo hi result ∧
      ∀ gas ∈ probes executable rounds lo hi, lo.toNat < gas.toNat ∧ gas.toNat < hi.toNat := by
  have hinit : Searched executable lo hi ⟨lo, hi⟩ := ⟨hsmall, Or.inl rfl, Or.inl rfl⟩
  have hkeeps : ∀ {b b' : Bounds}, Searched executable lo hi b → searchRound executable b = .again b' →
      Searched executable lo hi b' := fun h hround => (h.again hround).1
  obtain ⟨result, hrun⟩ := Loop.exists_run (μ := fun b : Bounds => b.hi.toNat - b.lo.toNat) hkeeps
    (fun h hround => (h.again hround).2) hinit hrounds
  refine ⟨result, hrun, ?_, ?_⟩
  · obtain ⟨b, hb, hdone⟩ := Loop.run_invariant hkeeps hinit hrun
    exact hb.done hdone
  · intro gas hgas
    obtain ⟨b, hb, rfl⟩ := List.mem_map.mp hgas
    obtain ⟨hvisit, hopen⟩ := List.mem_filter.mp hb
    have hsearched := Loop.visits_invariant hkeeps hinit b hvisit
    obtain ⟨hleft, hright⟩ := midpoint_between hsearched.toSmall hopen
    have hlo := hsearched.lo_le
    have hhi := hsearched.le_hi
    omega

/-! ## All bounds -/

/-- The search ends after finitely many probes, all of them between the bounds, and what it returns is not above
the upper bound. -/
def SearchesInside (executable : Executable ε) (lo hi : UInt64) : Prop :=
  ∃ rounds result, binSearch executable rounds lo hi = some result ∧
    (∀ gas ∈ probes executable rounds lo hi, lo.toNat < gas.toNat ∧ gas.toNat < hi.toNat) ∧
    ∀ gas, result = .ok gas → gas.toNat ≤ hi.toNat

/-- An interval that is closed at first. -/
theorem searchesInside_of_closed {lo hi : UInt64} (h : Bounds.isOpen ⟨lo, hi⟩ = false) :
    SearchesInside executable lo hi := by
  have hdone : searchRound executable ⟨lo, hi⟩ = .done (.ok hi) := searchRound_closed h
  refine ⟨1, .ok hi, Loop.run_done hdone, ?_, ?_⟩
  · intro gas hgas
    rw [probes, Loop.visits_done hdone, List.filter_cons_of_neg (by simp [h])] at hgas
    exact absurd hgas (by simp)
  · intro gas hgas
    rw [Except.ok.inj hgas]

/-- The lower bound 2⁶⁴ - 1 wraps in the condition of the loop, and nothing is above it. -/
theorem not_searchesInside_of_max {lo hi : UInt64} (hlo : lo.toNat + 1 = 2 ^ 64) (hhi : hi ≠ 0) :
    ¬SearchesInside executable lo hi := by
  rintro ⟨rounds, result, hrun, hprobes, -⟩
  have hopen : Bounds.isOpen ⟨lo, hi⟩ = true := by
    have hpos : 0 < hi.toNat := Nat.pos_of_ne_zero fun h => hhi (UInt64.toNat_inj.mp h)
    unfold Bounds.isOpen
    rw [decide_eq_true_iff, UInt64.lt_iff_toNat_lt, UInt64.toNat_add, UInt64.toNat_one, hlo, Nat.mod_self]
    exact hpos
  cases rounds with
  | zero => simp [binSearch, Loop.run] at hrun
  | succ n =>
      have hmem : Bounds.mid ⟨lo, hi⟩ ∈ probes executable (n + 1) lo hi := by
        apply List.mem_map_of_mem
        apply List.mem_filter.mpr
        refine ⟨?_, hopen⟩
        unfold Loop.visits
        split
        · exact List.mem_cons_self
        · exact List.mem_singleton_self _
      have hlt := (hprobes _ hmem).1
      have hmax := (Bounds.mid ⟨lo, hi⟩).toNat_lt
      omega

/-- **With an upper bound above 2⁶³ the search need not end.** If every gas limit fails, then the midpoint is
below 2⁶³ in every round, whether or not the sum wrapped, and the interval stays open. -/
theorem binSearch_diverges {lo hi : UInt64} (hlo : lo.toNat + 1 < hi.toNat) (hhi : 2 ^ 63 < hi.toNat)
    (rounds : ℕ) : binSearch (fun _ => .ok (true, none) : Executable ε) rounds lo hi = none := by
  refine Loop.run_eq_none (I := fun b : Bounds => b.hi = hi ∧ b.lo.toNat + 1 < hi.toNat) ?_ ⟨rfl, hlo⟩ rounds
  rintro b ⟨rfl, hbelow⟩
  have hmax := b.hi.toNat_lt
  have hopen : b.isOpen = true := (isOpen_iff (by omega)).mpr hbelow
  refine ⟨_, searchRound_ok hopen rfl, rfl, ?_⟩
  show b.mid.toNat + 1 < b.hi.toNat
  rw [mid_toNat]
  omega

/-- **The search ends and probes between its bounds**, whatever the executions do, if and only if the upper bound
is 0, or the lower bound is not 2⁶⁴ - 1 and the upper bound is at most 2⁶³ or at most one above the lower
bound. -/
theorem searchesInside_iff (ε : Type) (lo hi : UInt64) :
    (∀ executable : Executable ε, SearchesInside executable lo hi) ↔
      hi = 0 ∨ lo.toNat < 2 ^ 64 - 1 ∧ (hi.toNat ≤ 2 ^ 63 ∨ hi.toNat ≤ lo.toNat + 1) := by
  have hmax := lo.toNat_lt
  constructor
  · intro h
    by_contra hnot
    push Not at hnot
    obtain ⟨hzero, hbounds⟩ := hnot
    rcases Nat.lt_or_ge lo.toNat (2 ^ 64 - 1) with hlo | hlo
    · obtain ⟨hlarge, habove⟩ := hbounds hlo
      obtain ⟨rounds, result, hrun, -⟩ := h fun _ => .ok (true, none)
      rw [binSearch_diverges habove hlarge] at hrun
      exact absurd hrun (by simp)
    · exact not_searchesInside_of_max (by omega) hzero (h fun _ => .ok (true, none))
  · rintro (rfl | ⟨hlo, hhi⟩) executable
    · apply searchesInside_of_closed
      simp [Bounds.isOpen, UInt64.lt_iff_toNat_lt]
    · by_cases hopen : lo.toNat + 1 < hi.toNat
      · have hsmall : Bounds.Small ⟨lo, hi⟩ := ⟨by show lo.toNat < hi.toNat; omega, by show hi.toNat ≤ 2 ^ 63; omega⟩
        obtain ⟨result, hrun, hend, hprobes⟩ :=
          binSearch_spec executable hsmall (Nat.lt_succ_self (hi.toNat - lo.toNat))
        refine ⟨_, result, hrun, hprobes, ?_⟩
        rintro gas rfl
        cases hend with
        | found hsearched _ => exact hsearched.le_hi
      · apply searchesInside_of_closed
        rw [← Bool.not_eq_true, isOpen_iff (show (Bounds.mk lo hi).lo.toNat + 1 < 2 ^ 64 by
          show lo.toNat + 1 < 2 ^ 64
          omega)]
        exact hopen

end search

/-- The bounds of the estimate of a gas limit, with a gas cap of 2⁶⁴ - 1: if every gas limit fails the search does
not end, and already the first gas limit it probes, 10499, is below the lower bound. -/
theorem binSearch_out_of_bounds :
    let failing : Executable String := fun _ => .ok (true, none)
    let hi : UInt64 := .ofNat (2 ^ 64 - 1)
    (∀ rounds, binSearch failing rounds 20999 hi = none) ∧ probes failing 1 20999 hi = [10499] ∧
      ¬SearchesInside failing 20999 hi := by
  intro failing hi
  have hnone : ∀ rounds, binSearch failing rounds 20999 hi = none := by
    intro rounds
    exact binSearch_diverges (by decide) (by decide) rounds
  refine ⟨hnone, by decide +kernel, ?_⟩
  rintro ⟨rounds, result, hrun, -⟩
  rw [hnone rounds] at hrun
  exact absurd hrun (by simp)

end Smartdoge.Evm
