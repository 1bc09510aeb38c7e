import Smartdoge.Lib.Runs
import Smartdoge.Rpc.FilterApi

/-!
# Runs of the filters

What holds of the filters after any number of steps of the calls, the goroutines and the loop, in any order.

* `sound_of_effect`, `timed_of_effect`, `delivered_of_effect`: what one step keeps.
* **`filter_delivers`**: what the polls of a filter returned, and what waits in it, is what its goroutine found, each
  once and in the order of the events.
* **`getFilterChanges_returns`**: a poll does not block on the timer of the filter, with the mutex held.
* **`unsubscribed_once`**: no subscription is given up twice, which would close its error channel twice.
* **`expires_iff`**: the loop removes a filter if and only if its last poll, or its installation, is five minutes ago.
-/

set_option linter.unusedSectionVars false

namespace Smartdoge.Rpc

open Smartdoge.Lib
open Smartdoge.Statedb
open Smartdoge.Evm
open Smartdoge.Ante

/-! ## The filters along a run -/

/-- A filter holds hashes or logs. -/
def Filter.Uniform (f : Filter) : Prop := (f.typ = .logs → f.hashes = []) ∧ (f.typ ≠ .logs → f.logs = [])

/-- A poll empties the results of its type. -/
theorem Filter.Uniform.taken {f : Filter} (h : f.Uniform) (deadline : Timer) : (f.taken deadline).Uniform := by
  unfold Filter.taken
  cases htyp : f.typ with
  | logs => exact ⟨fun _ => h.1 htyp, fun _ => rfl⟩
  | pendingTransactions => exact ⟨fun _ => rfl, fun _ => h.2 (by simp [htyp])⟩
  | blocks => exact ⟨fun _ => rfl, fun _ => h.2 (by simp [htyp])⟩

/-- A poll keeps the type. -/
@[simp] theorem Filter.taken_typ (f : Filter) (deadline : Timer) : (f.taken deadline).typ = f.typ := by
  unfold Filter.taken
  cases f.typ with
  | _ => rfl

/-- A goroutine finds hashes or logs. -/
theorem Worker.handle_append {codec : ResponseCodec} {w : Worker} {data : EventData} {hashes : List Hash}
    {logs : List Log} (h : w.handle codec data = .append hashes logs) :
    (w.typ = .logs → hashes = []) ∧ (w.typ ≠ .logs → logs = []) := by
  unfold Worker.handle at h
  split at h
  · rename_i htyp
    cases h
    simp [htyp]
  · rename_i htyp
    cases h
    simp [htyp]
  · rename_i htyp
    split at h
    · cases h
      simp [htyp]
    · cases h
  · cases h

/-- What is kept along a run, apart from the history. -/
structure FilterApi.Sound (api : FilterApi) : Prop where
  filterIssued : ∀ {id f}, api.filters.get id = some f → id ∈ api.issued
  workerIssued : ∀ {id w}, api.workers.get id = some w → id ∈ api.issued
  unsubscribedIssued : ∀ {id}, id ∈ api.unsubscribed → id ∈ api.issued
  typ : ∀ {id f w}, api.filters.get id = some f → api.workers.get id = some w → w.typ = f.typ
  uniform : ∀ {id f}, api.filters.get id = some f → f.Uniform
  gone : ∀ {id}, id ∈ api.unsubscribed → api.filters.get id = none
  once : api.unsubscribed.Nodup
  bounded : (api.filters.keys.card : ℤ) ≤ max api.cap 0

section invariants

variable {codec : ResponseCodec} {api api' : FilterApi} {a : ApiStep} {ans : Answer}

/-- A filter that is replaced by one of the same type. -/
theorem FilterApi.Sound.update (h : api.Sound) {id : ℕ} {f f' : Filter} (hf : api.filters.get id = some f)
    (htyp : f'.typ = f.typ) (huniform : f'.Uniform) : ({ api with filters := api.filters.set id f' } : FilterApi).Sound where
  filterIssued := by
    intro j g hg
    by_cases hj : j = id
    · rw [hj]
      exact h.filterIssued hf
    · rw [GoMap.get_set_of_ne _ hj] at hg
      exact h.filterIssued hg
  workerIssued := h.workerIssued
  unsubscribedIssued := h.unsubscribedIssued
  typ := by
    intro j g w hg hw
    rw [GoMap.get_set] at hg
    split_ifs at hg with hj
    · cases hg
      rw [htyp]
      exact h.typ hf (hj ▸ hw)
    · exact h.typ hg hw
  uniform := by
    intro j g hg
    rw [GoMap.get_set] at hg
    split_ifs at hg with hj
    · cases hg
      exact huniform
    · exact h.uniform hg
  gone := by
    intro j hj
    have hne : j ≠ id := by
      rintro rfl
      rw [h.gone hj] at hf
      cases hf
    rw [GoMap.get_set_of_ne _ hne]
    exact h.gone hj
  once := h.once
  bounded := by
    rw [GoMap.keys_set, Finset.insert_eq_of_mem (GoMap.mem_keys_of_get hf)]
    exact h.bounded

/-- Filters that are deleted, some of them with their goroutines, and some of those that were there given up. -/
theorem FilterApi.Sound.remove (h : api.Sound) {filters : GoMap ℕ Filter} {workers : GoMap ℕ Worker}
    (ids : List ℕ) (hfilters : ∀ {id f}, filters.get id = some f → api.filters.get id = some f ∧ id ∉ ids)
    (hworkers : ∀ {id w}, workers.get id = some w → api.workers.get id = some w)
    (hids : ∀ {id}, id ∈ ids → (api.filters.get id).isSome) (hnodup : ids.Nodup) :
    ({ api with filters := filters, workers := workers, unsubscribed := api.unsubscribed ++ ids } : FilterApi).Sound where
  filterIssued := fun hf => h.filterIssued (hfilters hf).1
  workerIssued := fun hw => h.workerIssued (hworkers hw)
  unsubscribedIssued := by
    intro id hid
    rcases List.mem_append.mp hid with hid | hid
    · exact h.unsubscribedIssued hid
    · obtain ⟨f, hf⟩ := Option.isSome_iff_exists.mp (hids hid)
      exact h.filterIssued hf
  typ := fun hf hw => h.typ (hfilters hf).1 (hworkers hw)
  uniform := fun hf => h.uniform (hfilters hf).1
  gone := by
    intro id hid
    rw [Option.eq_none_iff_forall_ne_some]
    intro f hf
    obtain ⟨hbefore, hnot⟩ := hfilters hf
    rcases List.mem_append.mp hid with hid | hid
    · rw [h.gone hid] at hbefore
      cases hbefore
    · exact hnot hid
  once := by
    refine h.once.append hnodup ?_
    intro id hid hid'
    have hsome := hids hid'
    rw [h.gone hid] at hsome
    cases hsome
  bounded := by
    have hsub : filters.keys ⊆ api.filters.keys := by
      intro id hid
      obtain ⟨f, hf⟩ := Option.isSome_iff_exists.mp (GoMap.mem_keys.mp hid)
      exact GoMap.mem_keys_of_get (hfilters hf).1
    exact le_trans (by exact_mod_cast Finset.card_le_card hsub) h.bounded

/-- A new filter has an identifier of its own. -/
theorem FilterApi.Sound.install (h : api.Sound) {id : ℕ} (hnew : id ∉ api.issued)
    (hroom : (api.filters.keys.card : ℤ) < api.cap) (typ : SubscriptionType) (blockHash : Option Hash)
    (crit : FilterCriteria) : (api.install id typ blockHash crit).Sound where
  filterIssued := by
    intro j f hf
    show j ∈ insert id api.issued
    rw [Finset.mem_insert]
    by_cases hj : j = id
    · exact Or.inl hj
    · refine Or.inr (h.filterIssued (f := f) ?_)
      rwa [FilterApi.install, GoMap.get_set_of_ne _ hj] at hf
  workerIssued := by
    intro j w hw
    show j ∈ insert id api.issued
    rw [Finset.mem_insert]
    by_cases hj : j = id
    · exact Or.inl hj
    · refine Or.inr (h.workerIssued (w := w) ?_)
      rwa [FilterApi.install, GoMap.get_set_of_ne _ hj] at hw
  unsubscribedIssued := fun hj => Finset.mem_insert_of_mem (h.unsubscribedIssued hj)
  typ := by
    intro j f w hf hw
    simp only [FilterApi.install, GoMap.get_set] at hf hw
    split_ifs at hf hw with hj
    · cases hf
      cases hw
      rfl
    · exact h.typ hf hw
  uniform := by
    intro j f hf
    simp only [FilterApi.install, GoMap.get_set] at hf
    split_ifs at hf with hj
    · cases hf
      exact ⟨fun _ => rfl, fun _ => rfl⟩
    · exact h.uniform hf
  gone := by
    intro j hj
    have hne : j ≠ id := by
      rintro rfl
      exact hnew (h.unsubscribedIssued hj)
    simp only [FilterApi.install, GoMap.get_set_of_ne _ hne]
    exact h.gone hj
  once := h.once
  bounded := by
    have hcard : (api.filters.keys.card : ℤ) + 1 ≤ api.cap := hroom
    have hinsert : (api.install id typ blockHash crit).filters.keys.card ≤ api.filters.keys.card + 1 := by
      simp only [FilterApi.install, GoMap.keys_set]
      exact Finset.card_insert_le id api.filters.keys
    calc ((api.install id typ blockHash crit).filters.keys.card : ℤ)
        ≤ api.filters.keys.card + 1 := by exact_mod_cast hinsert
      _ ≤ api.cap := hcard
      _ ≤ max api.cap 0 := le_max_left _ _

/-- A goroutine appends to its filter what that holds. -/
theorem Filter.Uniform.append {w : Worker} {f : Filter} (huniform : f.Uniform) (htyp : w.typ = f.typ)
    {data : EventData} {hashes : List Hash} {logs : List Log} (h : w.handle codec data = .append hashes logs) :
    Filter.Uniform { f with hashes := f.hashes ++ hashes, logs := f.logs ++ logs } := by
  obtain ⟨hhashes, hlogs⟩ := Worker.handle_append h
  rw [htyp] at hhashes hlogs
  refine ⟨fun hf => ?_, fun hf => ?_⟩
  · simp [huniform.1 hf, hhashes hf]
  · simp [huniform.2 hf, hlogs hf]

/-- Filters or goroutines that are deleted, without a call of `Unsubscribe`. -/
theorem FilterApi.Sound.drop (h : api.Sound) {filters : GoMap ℕ Filter} {workers : GoMap ℕ Worker}
    (hfilters : ∀ {id f}, filters.get id = some f → api.filters.get id = some f)
    (hworkers : ∀ {id w}, workers.get id = some w → api.workers.get id = some w) :
    ({ api with filters := filters, workers := workers } : FilterApi).Sound := by
  have hremoved := h.remove [] (fun hf => ⟨hfilters hf, by simp⟩) hworkers (by simp) List.nodup_nil
  simpa using hremoved

/-- A worker ends and its filter goes. -/
theorem FilterApi.Sound.eventsClosed (h : api.Sound) (id : ℕ) : (api.eventsClosed id).Sound := by
  refine h.drop ?_ ?_
  · intro j f hf
    exact GoMap.get_of_get_delete hf
  · intro j w hw
    exact GoMap.get_of_get_delete hw

/-- **One step.** -/
theorem sound_of_effect (h : api.Sound) (heffect : Effect codec api a ans api') : api'.Sound := by
  cases heffect with
  | elapsed duration =>
      exact ⟨h.filterIssued, h.workerIssued, h.unsubscribedIssued, h.typ, h.uniform, h.gone, h.once, h.bounded⟩
  | refused hid text => exact h
  | installed hid hnew hroom typ blockHash crit => exact h.install hnew hroom typ blockHash crit
  | skipped id data => exact h
  | quit id data => exact h.drop (fun hf => hf) GoMap.get_of_get_delete
  | lost hw hnone data hashes logs => exact h
  | found hw hf hdata => exact h.update hf rfl ((h.uniform hf).append (h.typ hf hw) hdata)
  | closed id => exact h.eventsClosed id
  | errored id w =>
      unfold FilterApi.errClosed
      split_ifs
      · exact h.drop GoMap.get_of_get_delete (fun hw => hw)
      · exact h.eventsClosed id
  | @uninstalled id f hf =>
      refine h.remove [id] ?_ (fun hw => hw) ?_ (List.nodup_singleton id)
      · intro j g hg
        rw [GoMap.get_delete] at hg
        split_ifs at hg with hj
        exact ⟨hg, by simpa using hj⟩
      · intro j hj
        rw [List.mem_singleton.mp hj, hf]
        rfl
  | missing hnone => exact h
  | @taken id f hf deadline hdeadline => exact h.update hf (f.taken_typ deadline) ((h.uniform hf).taken deadline)
  | unknown hnone => exact h
  | swept =>
      rw [FilterApi.timeout_eq]
      refine h.remove _ ?_ (fun hw => hw) ?_ ((GoMap.nodup_sortedKeys _ _).filter _)
      · intro j f hf
        rw [GoMap.get_foldl_delete] at hf
        split_ifs at hf with hj
        exact ⟨hf, hj⟩
      · intro j hj
        obtain ⟨f, hf, -⟩ := FilterApi.mem_expired.mp hj
        rw [hf]
        rfl

/-- The cap does not change. -/
theorem cap_of_effect (heffect : Effect codec api a ans api') : api'.cap = api.cap := by
  cases heffect with
  | errored id w =>
      unfold FilterApi.errClosed
      split_ifs <;> rfl
  | swept => rw [FilterApi.timeout_eq]
  | _ => rfl

/-! ## Histories -/

/-- A step of the past. -/
structure Entry where
  time : ℕ
  step : ApiStep
  answer : Answer

variable (codec) in
/-- A step, with the history of those before. -/
def historyStep (s : FilterApi × List Entry) (a : ApiStep) : Option (FilterApi × List Entry) :=
  (s.1.step codec a).map fun (api, ans) => (api, s.2 ++ [⟨s.1.now, a, ans⟩])

/-- What the goroutine of a filter found. -/
def Entry.found (e : Entry) (id : ℕ) : List Item :=
  match e.step, e.answer with
  | .event id' _, .found hashes logs => if id' = id then hashes.map .hash ++ logs.map .log else []
  | _, _ => []

/-- What a poll of the filter returned. -/
def Entry.polled (e : Entry) (id : ℕ) : List Item :=
  match e.step, e.answer with
  | .getFilterChanges id', .hashes hashes => if id' = id then hashes.map .hash else []
  | .getFilterChanges id', .logs logs => if id' = id then logs.map .log else []
  | _, _ => []

/-- The filter was installed, or polled. -/
def Entry.uses (e : Entry) (id : ℕ) : Bool :=
  match e.step, e.answer with
  | .getFilterChanges id', _ => id' = id
  | _, .filterId id' => id' = id
  | _, _ => false

def allFound (trace : List Entry) (id : ℕ) : List Item := trace.flatMap fun e => e.found id

def allPolled (trace : List Entry) (id : ℕ) : List Item := trace.flatMap fun e => e.polled id

/-- When the filter was installed, or polled for the last time. -/
def lastUse (trace : List Entry) (id : ℕ) : Option ℕ :=
  trace.foldl (fun last e => if e.uses id then some e.time else last) none

/-- What waits in a filter. -/
def Filter.items (f : Filter) : List Item := f.hashes.map .hash ++ f.logs.map .log

/-- What was found before a step and in it. -/
theorem allFound_append (trace : List Entry) (e : Entry) (id : ℕ) :
    allFound (trace ++ [e]) id = allFound trace id ++ e.found id := by
  simp [allFound]

/-- What was polled before a step and in it. -/
theorem allPolled_append (trace : List Entry) (e : Entry) (id : ℕ) :
    allPolled (trace ++ [e]) id = allPolled trace id ++ e.polled id := by
  simp [allPolled]

/-- The last use is this step, or the one before it. -/
theorem lastUse_append (trace : List Entry) (e : Entry) (id : ℕ) :
    lastUse (trace ++ [e]) id = if e.uses id then some e.time else lastUse trace id := by
  simp [lastUse]

/-! ### Timers -/

/-- The timer of every filter runs from its last use, and the loop has not come since it fired. -/
structure Timed (api : FilterApi) (trace : List Entry) : Prop where
  past : ∀ e ∈ trace, e.time ≤ api.now
  timer : ∀ {id f}, api.filters.get id = some f → ∃ t, lastUse trace id = some t ∧
    f.deadline = .start t filterDeadline ∧ ∀ e ∈ trace, e.step = .timeout → e.time < t + filterDeadline

/-- Filters that are left, after a step that uses none of them. -/
theorem Timed.keep {trace : List Entry} (h : Timed api trace) (hnow : api.now ≤ api'.now) {e : Entry}
    (htime : e.time = api.now) (hkept : ∀ {id f'}, api'.filters.get id = some f' →
      e.uses id = false ∧ ∃ f, api.filters.get id = some f ∧ f'.deadline = f.deadline ∧
        (e.step = .timeout → f.deadline.ready api.now = false)) : Timed api' (trace ++ [e]) where
  past := by
    intro e' he'
    rcases List.mem_append.mp he' with he' | he'
    · exact le_trans (h.past e' he') hnow
    · rw [List.mem_singleton.mp he', htime]
      exact hnow
  timer := by
    intro id f' hf'
    obtain ⟨huses, f, hf, hdeadline, hsweep⟩ := hkept hf'
    obtain ⟨t, hlast, hstart, hbefore⟩ := h.timer hf
    refine ⟨t, ?_, hdeadline.trans hstart, ?_⟩
    · rw [lastUse_append, huses]
      exact hlast
    · intro e' he' hstep
      rcases List.mem_append.mp he' with he' | he'
      · exact hbefore e' he' hstep
      · rw [List.mem_singleton.mp he'] at hstep ⊢
        have hready := hsweep hstep
        rw [hstart, Bool.eq_false_iff, Ne, Timer.ready_start] at hready
        rw [htime]
        exact not_le.mp hready

/-- One filter is used, and the others are left. -/
theorem Timed.use {trace : List Entry} (h : Timed api trace) (hnow : api'.now = api.now) {e : Entry} {id : ℕ}
    {f : Filter} (htime : e.time = api.now) (huses : ∀ j, e.uses j = decide (id = j)) (hstep : e.step ≠ .timeout)
    (hdeadline : f.deadline = .start api.now filterDeadline) (hset : api'.filters = api.filters.set id f) :
    Timed api' (trace ++ [e]) where
  past := by
    intro e' he'
    rw [hnow]
    rcases List.mem_append.mp he' with he' | he'
    · exact h.past e' he'
    · rw [List.mem_singleton.mp he', htime]
  timer := by
    intro j g hg
    rw [hset, GoMap.get_set] at hg
    rw [lastUse_append, huses]
    split_ifs at hg with hj
    · cases hg
      refine ⟨api.now, ?_, hdeadline, ?_⟩
      · rw [hj, htime]
        simp
      · intro e' he' hstep'
        rcases List.mem_append.mp he' with he' | he'
        · have hpast := h.past e' he'
          have hpos : 0 < filterDeadline := by decide
          omega
        · rw [List.mem_singleton.mp he'] at hstep'
          exact absurd hstep' hstep
    · obtain ⟨t, hlast, hstart, hbefore⟩ := h.timer hg
      refine ⟨t, ?_, hstart, ?_⟩
      · have hne : ¬id = j := fun hij => hj hij.symm
        simp [hne, hlast]
      · intro e' he' hstep'
        rcases List.mem_append.mp he' with he' | he'
        · exact hbefore e' he' hstep'
        · rw [List.mem_singleton.mp he'] at hstep'
          exact absurd hstep' hstep

/-- A step that uses no filter and is not the loop's. -/
theorem Timed.leave {trace : List Entry} (h : Timed api trace) (hnow : api.now ≤ api'.now) {ans : Answer}
    (huses : ∀ id, Entry.uses ⟨api.now, a, ans⟩ id = false) (hstep : a ≠ .timeout)
    (hkept : ∀ {id f'}, api'.filters.get id = some f' →
      ∃ f, api.filters.get id = some f ∧ f'.deadline = f.deadline) : Timed api' (trace ++ [⟨api.now, a, ans⟩]) := by
  refine h.keep hnow rfl ?_
  intro id f' hf'
  obtain ⟨f, hf, hdeadline⟩ := hkept hf'
  exact ⟨huses id, f, hf, hdeadline, fun heq => absurd heq hstep⟩

/-- Creating a filter uses it, if it succeeds. -/
theorem uses_of_installs {id : ℕ} (hid : a.installs = some id) (time : ℕ) :
    (∀ text j, Entry.uses ⟨time, a, .failed text⟩ j = false) ∧
      (∀ j, Entry.uses ⟨time, a, .filterId id⟩ j = decide (id = j)) ∧ a ≠ .timeout := by
  cases a with
  | newPendingTransactionFilter id' err => exact ⟨fun _ _ => rfl, fun _ => rfl, by simp⟩
  | newBlockFilter id' err => exact ⟨fun _ _ => rfl, fun _ => rfl, by simp⟩
  | newFilter id' blockHash crit err => exact ⟨fun _ _ => rfl, fun _ => rfl, by simp⟩
  | _ => cases hid

/-- A poll sets the deadline. -/
@[simp] theorem Filter.taken_deadline (f : Filter) (deadline : Timer) : (f.taken deadline).deadline = deadline := by
  unfold Filter.taken
  cases f.typ with
  | _ => rfl

/-- **One step**, and the timers. -/
theorem timed_of_effect {trace : List Entry} (h : Timed api trace) (heffect : Effect codec api a ans api') :
    Timed api' (trace ++ [⟨api.now, a, ans⟩]) := by
  have hsame : ∀ {id f}, api.filters.get id = some f → ∃ g, api.filters.get id = some g ∧ f.deadline = g.deadline :=
    fun {id f} hf => ⟨f, hf, rfl⟩
  have hdeleted : ∀ {id j f}, (api.filters.delete id).get j = some f →
      ∃ g, api.filters.get j = some g ∧ f.deadline = g.deadline :=
    fun {id j f} hf => ⟨f, GoMap.get_of_get_delete hf, rfl⟩
  cases heffect with
  | elapsed duration =>
      refine h.leave ?_ ?_ ?_ ?_
      exacts [Nat.le_add_right _ _, fun _ => rfl, by simp, hsame]
  | refused hid text =>
      obtain ⟨huses, -, hstep⟩ := uses_of_installs hid api.now
      refine h.leave ?_ ?_ ?_ ?_
      exacts [le_rfl, huses text, hstep, hsame]
  | installed hid hnew hroom typ blockHash crit =>
      obtain ⟨-, huses, hstep⟩ := uses_of_installs hid api.now
      refine h.use ?_ ?_ huses hstep ?_ rfl
      exacts [rfl, rfl, rfl]
  | skipped id data =>
      refine h.leave ?_ ?_ ?_ ?_
      exacts [le_rfl, fun _ => rfl, by simp, hsame]
  | quit id data =>
      refine h.leave ?_ ?_ ?_ ?_
      exacts [le_rfl, fun _ => rfl, by simp, hsame]
  | lost hw hnone data hashes logs =>
      refine h.leave ?_ ?_ ?_ ?_
      exacts [le_rfl, fun _ => rfl, by simp, hsame]
  | @found id w f hw hf data hashes logs hdata =>
      refine h.leave ?_ (fun _ => rfl) (by simp) ?_
      · exact le_rfl
      intro j g hg
      rw [GoMap.get_set] at hg
      split_ifs at hg with hj
      · cases hg
        exact ⟨f, hj ▸ hf, rfl⟩
      · exact ⟨g, hg, rfl⟩
  | closed id =>
      refine h.leave ?_ ?_ ?_ ?_
      exacts [le_rfl, fun _ => rfl, by simp, hdeleted]
  | errored id w =>
      unfold FilterApi.errClosed
      split_ifs
      · refine h.leave ?_ ?_ ?_ ?_
        exacts [le_rfl, fun _ => rfl, by simp, hdeleted]
      · refine h.leave ?_ ?_ ?_ ?_
        exacts [le_rfl, fun _ => rfl, by simp, hdeleted]
  | uninstalled hf =>
      refine h.leave ?_ ?_ ?_ ?_
      exacts [le_rfl, fun _ => rfl, by simp, hdeleted]
  | missing hnone =>
      refine h.leave ?_ ?_ ?_ ?_
      exacts [le_rfl, fun _ => rfl, by simp, hsame]
  | @taken id f hf deadline hdeadline =>
      obtain ⟨t, -, hstart, -⟩ := h.timer hf
      rw [hstart, Timer.restart_started] at hdeadline
      have hfresh : (f.taken deadline).deadline = .start api.now filterDeadline := by
        rw [Filter.taken_deadline]
        exact (Option.some.inj hdeadline).symm
      refine h.use ?_ ?_ ?_ ?_ hfresh rfl
      exacts [rfl, rfl, fun _ => rfl, by simp]
  | @unknown id hnone =>
      refine h.keep ?_ rfl ?_
      · exact le_rfl
      intro j f hf
      have hne : id ≠ j := by
        rintro rfl
        rw [hnone] at hf
        cases hf
      exact ⟨decide_eq_false hne, f, hf, rfl, by simp⟩
  | swept =>
      refine h.keep (le_of_eq (by rw [FilterApi.timeout_eq])) rfl ?_
      intro id f' hf'
      rw [FilterApi.timeout_filters, Option.filter_eq_some_iff] at hf'
      exact ⟨rfl, f', hf'.1, rfl, fun _ => by simpa using hf'.2⟩

/-! ### What is delivered -/

/-- What was found is what was returned and what waits. -/
structure Delivered (api : FilterApi) (trace : List Entry) : Prop where
  waiting : ∀ {id f}, api.filters.get id = some f → allFound trace id = allPolled trace id ++ f.items
  behind : ∀ id, allPolled trace id <+: allFound trace id
  fresh : ∀ {id}, id ∉ api.issued → allFound trace id = [] ∧ allPolled trace id = []

/-- A step that delivers nothing. -/
theorem Delivered.silent {trace : List Entry} (h : Delivered api trace) {e : Entry}
    (hquiet : ∀ id, e.found id = [] ∧ e.polled id = []) (hissued : api.issued ⊆ api'.issued)
    (hkept : ∀ {id f'}, api'.filters.get id = some f' →
      (∃ f, api.filters.get id = some f ∧ f'.items = f.items) ∨ (id ∉ api.issued ∧ f'.items = [])) :
    Delivered api' (trace ++ [e]) where
  waiting := by
    intro id f' hf'
    rw [allFound_append, allPolled_append, (hquiet id).1, (hquiet id).2, List.append_nil, List.append_nil]
    rcases hkept hf' with ⟨f, hf, hitems⟩ | ⟨hnew, hitems⟩
    · rw [hitems]
      exact h.waiting hf
    · rw [hitems, (h.fresh hnew).1, (h.fresh hnew).2]
      rfl
  behind := by
    intro id
    rw [allFound_append, allPolled_append, (hquiet id).1, (hquiet id).2, List.append_nil, List.append_nil]
    exact h.behind id
  fresh := by
    intro id hid
    rw [allFound_append, allPolled_append, (hquiet id).1, (hquiet id).2, List.append_nil, List.append_nil]
    exact h.fresh fun hmem => hid (hissued hmem)

/-- A step that delivers to or from one filter. -/
theorem Delivered.deliver {trace : List Entry} (h : Delivered api trace) {e : Entry} {id : ℕ}
    {found polled : List Item} (hfound : ∀ j, e.found j = if id = j then found else [])
    (hpolled : ∀ j, e.polled j = if id = j then polled else []) (hid : id ∈ api.issued)
    (hissued : api'.issued = api.issued)
    (hothers : ∀ {j f}, j ≠ id → api'.filters.get j = some f → api.filters.get j = some f)
    (hhere : ∀ {f'}, api'.filters.get id = some f' →
      allFound trace id ++ found = allPolled trace id ++ polled ++ f'.items)
    (hbehind : allPolled trace id ++ polled <+: allFound trace id ++ found) : Delivered api' (trace ++ [e]) where
  waiting := by
    intro j f' hf'
    rw [allFound_append, allPolled_append, hfound, hpolled]
    by_cases hj : id = j
    · subst hj
      simpa using hhere hf'
    · simpa [hj] using h.waiting (hothers (Ne.symm hj) hf')
  behind := by
    intro j
    rw [allFound_append, allPolled_append, hfound, hpolled]
    by_cases hj : id = j
    · subst hj
      simpa using hbehind
    · simpa [hj] using h.behind j
  fresh := by
    intro j hj
    rw [hissued] at hj
    have hne : ¬id = j := by
      rintro rfl
      exact hj hid
    rw [allFound_append, allPolled_append, hfound, hpolled]
    simpa [hne] using h.fresh hj

/-- What waits in a filter to which something is appended. -/
theorem Filter.items_append {w : Worker} {f : Filter} (huniform : f.Uniform) (htyp : w.typ = f.typ)
    {data : EventData} {hashes : List Hash} {logs : List Log} (h : w.handle codec data = .append hashes logs) :
    Filter.items { f with hashes := f.hashes ++ hashes, logs := f.logs ++ logs } =
      f.items ++ (hashes.map Item.hash ++ logs.map Item.log) := by
  obtain ⟨hhashes, hlogs⟩ := Worker.handle_append h
  rw [htyp] at hhashes hlogs
  unfold Filter.items
  by_cases hf : f.typ = .logs
  · simp [huniform.1 hf, hhashes hf]
  · simp [huniform.2 hf, hlogs hf]

/-- A poll takes all that waits. -/
theorem Filter.items_taken {f : Filter} (huniform : f.Uniform) (deadline : Timer) (time id j : ℕ) :
    Entry.polled ⟨time, .getFilterChanges id, f.changes⟩ j = (if id = j then f.items else []) ∧
      (f.taken deadline).items = [] := by
  unfold Filter.changes Filter.taken Filter.items Entry.polled
  cases hf : f.typ with
  | logs => simp [huniform.1 hf]
  | pendingTransactions => simp [huniform.2 (by simp [hf])]
  | blocks => simp [huniform.2 (by simp [hf])]

/-- Creating a filter finds and returns nothing. -/
theorem quiet_of_installs {id : ℕ} (hid : a.installs = some id) (time : ℕ) (ans : Answer) (j : ℕ) :
    Entry.found ⟨time, a, ans⟩ j = [] ∧ Entry.polled ⟨time, a, ans⟩ j = [] := by
  cases a with
  | newPendingTransactionFilter id' err => exact ⟨rfl, rfl⟩
  | newBlockFilter id' err => exact ⟨rfl, rfl⟩
  | newFilter id' blockHash crit err => exact ⟨rfl, rfl⟩
  | _ => cases hid

/-- **One step**, and what is delivered. -/
theorem delivered_of_effect {trace : List Entry} (hsound : api.Sound) (h : Delivered api trace)
    (heffect : Effect codec api a ans api') : Delivered api' (trace ++ [⟨api.now, a, ans⟩]) := by
  have hsame : ∀ {id f}, api.filters.get id = some f →
      (∃ g, api.filters.get id = some g ∧ f.items = g.items) ∨ (id ∉ api.issued ∧ f.items = []) :=
    fun {id f} hf => Or.inl ⟨f, hf, rfl⟩
  have hdeleted : ∀ {id j f}, (api.filters.delete id).get j = some f →
      (∃ g, api.filters.get j = some g ∧ f.items = g.items) ∨ (j ∉ api.issued ∧ f.items = []) :=
    fun {id j f} hf => Or.inl ⟨f, GoMap.get_of_get_delete hf, rfl⟩
  cases heffect with
  | elapsed duration => exact h.silent (fun _ => ⟨rfl, rfl⟩) subset_rfl hsame
  | refused hid text => exact h.silent (quiet_of_installs hid api.now _) subset_rfl hsame
  | @installed a id hid hnew hroom typ blockHash crit =>
      refine h.silent (quiet_of_installs hid api.now _) (Finset.subset_insert id api.issued) ?_
      intro j f hf
      simp only [FilterApi.install, GoMap.get_set] at hf
      split_ifs at hf with hj
      · cases hf
        exact Or.inr ⟨hj ▸ hnew, rfl⟩
      · exact hsame hf
  | skipped id data => exact h.silent (fun _ => ⟨rfl, rfl⟩) subset_rfl hsame
  | quit id data => exact h.silent (fun _ => ⟨rfl, rfl⟩) subset_rfl hsame
  | @lost id w hw hnone data hashes logs =>
      refine h.deliver (fun _ => rfl) (fun _ => (ite_self []).symm) (hsound.workerIssued hw) rfl ?_ ?_ ?_
      · exact fun _ hf => hf
      · intro f hf
        rw [hnone] at hf
        cases hf
      · rw [List.append_nil]
        exact (h.behind id).trans (List.prefix_append _ _)
  | @found id w f hw hf data hashes logs hdata =>
      refine h.deliver (fun _ => rfl) (fun _ => (ite_self []).symm) (hsound.workerIssued hw) rfl ?_ ?_ ?_
      · intro j g hj hg
        rwa [GoMap.get_set_of_ne _ hj] at hg
      · intro g hg
        rw [GoMap.get_set_self] at hg
        cases hg
        rw [Filter.items_append (hsound.uniform hf) (hsound.typ hf hw) hdata, h.waiting hf]
        simp
      · rw [List.append_nil]
        exact (h.behind id).trans (List.prefix_append _ _)
  | closed id => exact h.silent (fun _ => ⟨rfl, rfl⟩) subset_rfl hdeleted
  | errored id w =>
      unfold FilterApi.errClosed
      split_ifs
      · exact h.silent (fun _ => ⟨rfl, rfl⟩) subset_rfl hdeleted
      · exact h.silent (fun _ => ⟨rfl, rfl⟩) subset_rfl hdeleted
  | uninstalled hf => exact h.silent (fun _ => ⟨rfl, rfl⟩) subset_rfl hdeleted
  | missing hnone => exact h.silent (fun _ => ⟨rfl, rfl⟩) subset_rfl hsame
  | @taken id f hf deadline hdeadline =>
      have htaken := Filter.items_taken (hsound.uniform hf) deadline api.now id
      refine h.deliver (fun _ => (ite_self []).symm) (fun j => (htaken j).1) (hsound.filterIssued hf) rfl ?_ ?_ ?_
      · intro j g hj hg
        rwa [GoMap.get_set_of_ne _ hj] at hg
      · intro g hg
        rw [GoMap.get_set_self] at hg
        cases hg
        rw [(htaken id).2, h.waiting hf]
      · rw [h.waiting hf, List.append_nil]
  | unknown hnone => exact h.silent (fun _ => ⟨rfl, rfl⟩) subset_rfl hsame
  | swept =>
      refine h.silent (fun _ => ⟨rfl, rfl⟩) (by rw [FilterApi.timeout_eq]) ?_
      intro id f' hf'
      rw [FilterApi.timeout_filters, Option.filter_eq_some_iff] at hf'
      exact hsame hf'.1

end invariants

/-! ## Runs -/

section runs

open Smartdoge.Lib.Runs

variable {codec : ResponseCodec} {cap : ℤ} {steps : List ApiStep} {api : FilterApi} {trace : List Entry}

/-- There are no filters at first. -/
theorem newPublicAPI_sound (cap : ℤ) : (newPublicAPI cap).Sound where
  filterIssued := by
    intro id f hf
    cases hf
  workerIssued := by
    intro id w hw
    cases hw
  unsubscribedIssued := by
    intro id hid
    cases hid
  typ := by
    intro id f w hf
    cases hf
  uniform := by
    intro id f hf
    cases hf
  gone := by
    intro id hid
    cases hid
  once := List.nodup_nil
  bounded := le_max_right _ _

/-- **What holds after every run.** -/
theorem polling_invariant (hrun : run (historyStep codec) (newPublicAPI cap, []) steps = some (api, trace)) :
    api.Sound ∧ api.cap = cap ∧ Timed api trace ∧ Delivered api trace := by
  have hstart : Timed (newPublicAPI cap) [] ∧ Delivered (newPublicAPI cap) [] := by
    refine ⟨⟨by simp, ?_⟩, ⟨?_, fun _ => List.prefix_rfl, fun _ => ⟨rfl, rfl⟩⟩⟩
    · intro id f hf
      cases hf
    · intro id f hf
      cases hf
  refine run_keeps (I := fun s => s.1.Sound ∧ s.1.cap = cap ∧ Timed s.1 s.2 ∧ Delivered s.1 s.2) ?_
    ⟨newPublicAPI_sound cap, rfl, hstart⟩ hrun
  rintro ⟨api₁, trace₁⟩ a ⟨api₂, trace₂⟩ ⟨hsound, hcap, htimed, hdelivered⟩ hstep
  obtain ⟨⟨api₃, ans⟩, hone, heq⟩ := Option.map_eq_some_iff.mp hstep
  cases heq
  have heffect := effect_of_step hone
  exact ⟨sound_of_effect hsound heffect, (cap_of_effect heffect).trans hcap, timed_of_effect htimed heffect,
    delivered_of_effect hsound hdelivered heffect⟩

/-- A block filter that gets two headers and is polled between them. -/
def sampleSteps : List ApiStep :=
  [.newBlockFilter 7 none, .event 7 (.newBlockHeader (.ofNat 32 1)), .getFilterChanges 7, .elapse (2 * filterDeadline),
    .event 7 (.newBlockHeader (.ofNat 32 2))]

/-- **Nothing that the goroutine of a filter collected is lost or delivered twice**: what the polls of the filter
returned are the first of the things that its goroutine found, in their order, and those that are left wait in the
filter while it is there. An event that the goroutine does not get to, as it quit on one that it could not decode,
is not among them. -/
theorem filter_delivers (hrun : run (historyStep codec) (newPublicAPI cap, []) steps = some (api, trace)) (id : ℕ) :
    allPolled trace id <+: allFound trace id ∧
      ∀ f, api.filters.get id = some f → allFound trace id = allPolled trace id ++ f.items := by
  obtain ⟨-, -, -, hdelivered⟩ := polling_invariant hrun
  exact ⟨hdelivered.behind id, fun f hf => hdelivered.waiting hf⟩

/-- The first header was returned, and the second waits. -/
theorem filter_delivers_headers : ∃ api trace f,
    run (historyStep (sampleCodec [])) (newPublicAPI 1, []) sampleSteps = some (api, trace) ∧
      api.filters.get 7 = some f ∧ allPolled trace 7 = [.hash (.ofNat 32 1)] ∧
      allFound trace 7 = [.hash (.ofNat 32 1)] ++ f.items := by
  obtain ⟨api, trace, f, hrun, hf, hpolled⟩ : ∃ api trace f,
      run (historyStep (sampleCodec [])) (newPublicAPI 1, []) sampleSteps = some (api, trace) ∧
        api.filters.get 7 = some f ∧ allPolled trace 7 = [.hash (.ofNat 32 1)] := ⟨_, _, _, rfl, rfl, rfl⟩
  refine ⟨api, trace, f, hrun, hf, hpolled, ?_⟩
  rw [(filter_delivers hrun 7).2 f hf, hpolled]

/-- **A poll returns**, also one of a filter that has expired and is not yet removed, or of one that is not there: it
never waits for a timer while it holds the mutex. -/
theorem getFilterChanges_returns (hrun : run (historyStep codec) (newPublicAPI cap, []) steps = some (api, trace))
    (id : ℕ) : ∃ api' ans, api.getFilterChanges id = some (api', ans) := by
  obtain ⟨-, -, htimed, -⟩ := polling_invariant hrun
  unfold FilterApi.getFilterChanges
  cases hf : api.filters.get id with
  | none => exact ⟨api, .notFound id, rfl⟩
  | some f =>
      obtain ⟨t, -, hstart, -⟩ := htimed.timer hf
      dsimp only
      rw [hstart, Timer.restart_started]
      cases f.typ with
      | _ => exact ⟨_, _, rfl⟩

/-- The timer of the filter has fired. -/
theorem getFilterChanges_returns_expired : ∃ api trace api' ans,
    run (historyStep (sampleCodec [])) (newPublicAPI 1, []) sampleSteps = some (api, trace) ∧
      lastUse trace 7 = some 0 ∧ api.now = 2 * filterDeadline ∧ api.getFilterChanges 7 = some (api', ans) := by
  obtain ⟨api, trace, hrun, hlast, hnow⟩ : ∃ api trace,
      run (historyStep (sampleCodec [])) (newPublicAPI 1, []) sampleSteps = some (api, trace) ∧
        lastUse trace 7 = some 0 ∧ api.now = 2 * filterDeadline := ⟨_, _, rfl, rfl, rfl⟩
  obtain ⟨api', ans, hpoll⟩ := getFilterChanges_returns hrun 7
  exact ⟨api, trace, api', ans, hrun, hlast, hnow, hpoll⟩

/-- **`Unsubscribe` is called at most once for a subscription**, in any order of the calls and of the loop: a second
call would close its error channel again, and the event loop would panic. There are never more filters than the cap
allows. -/
theorem unsubscribed_once (hrun : run (historyStep codec) (newPublicAPI cap, []) steps = some (api, trace)) :
    api.unsubscribed.Nodup ∧ (∀ id ∈ api.unsubscribed, api.filters.get id = none) ∧
      (api.filters.keys.card : ℤ) ≤ max cap 0 := by
  obtain ⟨hsound, hcap, -, -⟩ := polling_invariant hrun
  exact ⟨hsound.once, fun id hid => hsound.gone hid, hcap ▸ hsound.bounded⟩

/-- The client uninstalls a filter that the loop has removed. -/
theorem unsubscribed_once_expired : ∃ api trace,
    run (historyStep (sampleCodec [])) (newPublicAPI 1, []) (sampleSteps ++ [.timeout, .uninstallFilter 7]) =
      some (api, trace) ∧ api.unsubscribed = [7] ∧ api.filters.get 7 = none := by
  obtain ⟨api, trace, hrun, hone⟩ : ∃ api trace,
      run (historyStep (sampleCodec [])) (newPublicAPI 1, []) (sampleSteps ++ [.timeout, .uninstallFilter 7]) =
        some (api, trace) ∧ api.unsubscribed = [7] := ⟨_, _, rfl, rfl⟩
  obtain ⟨-, hgone, -⟩ := unsubscribed_once hrun
  exact ⟨api, trace, hrun, hone, hgone 7 (by rw [hone]; exact List.mem_singleton_self 7)⟩

/-- **The loop removes a filter** if and only if five minutes have passed since it was made, or polled for the last
time. A filter that is there was not idle for so long when the loop came. -/
theorem expires_iff (hrun : run (historyStep codec) (newPublicAPI cap, []) steps = some (api, trace)) {id : ℕ}
    {f : Filter} (hf : api.filters.get id = some f) :
    ∃ t, lastUse trace id = some t ∧ (api.timeout.filters.get id = none ↔ t + filterDeadline ≤ api.now) ∧
      ∀ e ∈ trace, e.step = .timeout → e.time < t + filterDeadline := by
  obtain ⟨-, -, htimed, -⟩ := polling_invariant hrun
  obtain ⟨t, hlast, hstart, hbefore⟩ := htimed.timer hf
  refine ⟨t, hlast, ?_, hbefore⟩
  rw [FilterApi.timeout_filters, hf, Option.filter_eq_none_iff, ← Timer.ready_start, ← hstart]
  simp

/-- The poll was ten minutes ago. -/
theorem expires_idle : ∃ api trace,
    run (historyStep (sampleCodec [])) (newPublicAPI 1, []) sampleSteps = some (api, trace) ∧
      api.timeout.filters.get 7 = none := by
  obtain ⟨api, trace, f, hrun, hf, hlast, hnow⟩ : ∃ api trace f,
      run (historyStep (sampleCodec [])) (newPublicAPI 1, []) sampleSteps = some (api, trace) ∧
        api.filters.get 7 = some f ∧ lastUse trace 7 = some 0 ∧ api.now = 2 * filterDeadline :=
    ⟨_, _, _, rfl, rfl, rfl, rfl⟩
  obtain ⟨t, ht, hiff, -⟩ := expires_iff hrun hf
  obtain rfl := Option.some.inj (hlast.symm.trans ht)
  exact ⟨api, trace, hrun, hiff.mpr (by rw [hnow]; decide)⟩

end runs

end Smartdoge.Rpc
