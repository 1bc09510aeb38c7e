import Smartdoge.Lib.GoMap
import Smartdoge.Lib.Runs

/-!
# The event system of filters and subscriptions

Clients subscribe to a topic, which is a query of Tendermint. The first subscription of a topic sends the
query and asks the event loop to install it: the loop makes a channel, records it for `consumeEvents`, and
registers it on the event bus, where a goroutine publishes what comes through it. A subscription that finds
the topic on the bus attaches to the bus and is not installed. A client unsubscribes by a request to the
loop, which takes the topic down when no installed subscription is left: it closes the channel, and the
publisher then closes the event channels of all who are attached.

The calls of the clients, the event loop, `consumeEvents` and the publishers run at the same time; a step of the
system is what one of them does between two points where another can come in.

* `transition_of_step`: what each step does.
* `fresh_of_step`: the channels that the event loop makes are not mixed up.
-/

set_option linter.unusedSectionVars false

namespace Smartdoge.Rpc

open Smartdoge.Lib
open Smartdoge.Lib.Runs

/-! ## Subscriptions -/

/-- Source: go-ethereum `filters.Type`, the types the event system takes -/
inductive SubscriptionType where
  | logs
  | blocks
  | pendingTransactions
deriving DecidableEq

/-- The Tendermint query, which is the topic.
Source: `filter_system.go` `evmEvents`, `headerEvents`, `txEvents` -/
def SubscriptionType.event : SubscriptionType → String
  | .logs => "tm.event='Tx' AND message.module='evm'"
  | .blocks => "tm.event='NewBlockHeader'"
  | .pendingTransactions => "tm.event='Tx'"

/-- Source: `subscription.go` `Subscription` -/
structure Subscription where
  id : ℕ
  typ : SubscriptionType
deriving DecidableEq

def Subscription.event (s : Subscription) : String := s.typ.event

/-- How far a call of `subscribe`, and what follows it, has come. -/
inductive Phase where
  /-- The topic was not on the bus; the query is to be sent. -/
  | requesting
  /-- The query was sent; the event loop is asked to install. -/
  | installing
  /-- `eventBus.Subscribe` is to be called. -/
  | attaching
  /-- `eventBus.Subscribe` found the topic. -/
  | adding
  /-- `subscribe` returned the subscription. -/
  | live
  /-- `Unsubscribe` was called. -/
  | unsubscribed
  /-- The event loop received the request. -/
  | uninstalled
  /-- `subscribe` returned an error. -/
  | failed
deriving DecidableEq

/-- The call is under way, or the client has a subscription that it did not give up. -/
def Phase.Active : Phase → Bool
  | .requesting | .installing | .attaching | .adding | .live => true
  | .unsubscribed | .uninstalled | .failed => false

/-- The call has found its topic on the bus. -/
def Phase.Attached : Phase → Bool
  | .attaching | .adding | .live => true
  | .requesting | .installing | .unsubscribed | .uninstalled | .failed => false

/-- The event channel is made at the end of `eventBus.Subscribe`. -/
def Phase.HasChannel : Phase → Bool
  | .live | .unsubscribed | .uninstalled => true
  | .requesting | .installing | .attaching | .adding | .failed => false

/-! ## The state -/

/-- Channels into the bus have numbers. The event channel of a subscription is named by the subscription,
which has at most one.
Source: `filter_system.go` `EventSystem`, `pubsub.go` `memEventBus` -/
structure EventSystem where
  /-- The subscriptions that were installed. -/
  index : Finset Subscription := ∅
  topicChans : GoMap String ℕ := GoMap.empty
  /-- `memEventBus.topics`. -/
  topics : GoMap String ℕ := GoMap.empty
  /-- `memEventBus.subscribers`, each under its own topic. -/
  subscribers : Finset Subscription := ∅
  /-- The goroutines `publishTopic(name, src)` that read from `src`. -/
  publishers : Finset (String × ℕ) := ∅
  /-- Those that have closed their subscribers, and are to delete the topic. -/
  finishing : Finset (String × ℕ) := ∅
  /-- The channels into the bus that are closed. -/
  closedSources : Finset ℕ := ∅
  /-- The subscriptions of which the event channel is closed. -/
  closed : Finset Subscription := ∅
  /-- The queries that Tendermint has subscribed for this client. -/
  queries : Finset String := ∅
  phases : GoMap Subscription Phase := GoMap.empty
  nextChan : ℕ := 0
  /-- The topic of the event that `consumeEvents` is about to send, and the channel it found for it. -/
  sending : Option (String × ℕ) := none

namespace EventSystem

/-- A call moves on. -/
def enter (st : EventSystem) (s : Subscription) (phase : Phase) : EventSystem :=
  { st with phases := st.phases.set s phase }

/-- A topic that is registered is left as it is, with an error.
Source: `pubsub.go` `AddTopic` -/
def addTopic (st : EventSystem) (name : String) (src : ℕ) : EventSystem :=
  if (st.topics.get name).isSome then st
  else { st with topics := st.topics.set name src, publishers := insert (name, src) st.publishers }

/-- Source: `filter_system.go` `eventLoop`, `case f := <-es.install` -/
def install (st : EventSystem) (f : Subscription) : EventSystem :=
  addTopic
    { st with
      index := insert f st.index
      topicChans := st.topicChans.set f.event st.nextChan
      nextChan := st.nextChan + 1 }
    f.event st.nextChan

/-- Another subscription of the topic is installed. -/
def channelInUse (st : EventSystem) (f : Subscription) : Bool :=
  ∃ sub ∈ st.index.erase f, sub.typ = f.typ ∧ sub.event = f.event

/-- Source: `filter_system.go` `eventLoop`, `case f := <-es.uninstall` -/
def uninstall (st : EventSystem) (f : Subscription) : EventSystem :=
  if st.channelInUse f then { st with index := st.index.erase f }
  else
    match st.topicChans.get f.event with
    | none => { st with index := st.index.erase f, queries := st.queries.erase f.event }
    | some ch =>
      { st with
        index := st.index.erase f
        queries := st.queries.erase f.event
        topics := st.topics.delete f.event
        closedSources := insert ch st.closedSources
        topicChans := st.topicChans.delete f.event }

/-- Source: `pubsub.go` `closeAllSubscribers` -/
def closeAllSubscribers (st : EventSystem) (name : String) : EventSystem :=
  { st with
    subscribers := st.subscribers.filter fun s => s.event ≠ name
    closed := st.closed ∪ st.subscribers.filter fun s => s.event = name }

/-- The channel that `consumeEvents` finds for an event of a topic, under the lock.
Source: `filter_system.go` `consumeEvents`, `ch, ok := es.topicChans[ev.Query]` -/
def consumeEvents (st : EventSystem) (query : String) : Option ℕ := st.topicChans.get query

end EventSystem

/-! ## Steps -/

inductive Step where
  /-- `subscribe` is called and looks for its topic on the bus. -/
  | subscribe (s : Subscription)
  /-- It calls `tmWSClient.Subscribe`, which may fail. -/
  | query (s : Subscription) (ok : Bool)
  /-- The event loop receives from `install`. -/
  | install (s : Subscription)
  /-- `eventBus.Subscribe` looks for the topic. -/
  | busCheck (s : Subscription)
  /-- `eventBus.Subscribe` adds the event channel. -/
  | busAdd (s : Subscription)
  /-- The client calls `Unsubscribe`. -/
  | unsubscribe (s : Subscription)
  /-- The event loop receives from `uninstall`. -/
  | uninstall (s : Subscription)
  /-- The client calls the `UnsubscribeFunc`. -/
  | cancel (s : Subscription)
  /-- A publisher finds its channel closed and closes the subscribers of the topic. -/
  | closeSubscribers (name : String) (src : ℕ)
  /-- It then deletes the topic. -/
  | deleteTopic (name : String) (src : ℕ)
  /-- `consumeEvents` receives an event and looks for the channel of its topic. -/
  | consume (query : String)
  /-- It sends the event, or drops it after a second. -/
  | send
deriving DecidableEq

/-- The state after a step; `none` if the step cannot be taken, or the process panics in it. -/
def EventSystem.step (st : EventSystem) : Step → Option EventSystem
  | .subscribe s =>
    -- Identifiers are not used twice.
    if st.phases.get s ≠ none then none
    else some (st.enter s (if (st.topics.get s.event).isSome then .attaching else .requesting))
  | .query s ok =>
    if st.phases.get s ≠ some .requesting then none
    else if ok then some ({ st with queries := insert s.event st.queries }.enter s .installing)
    else some (st.enter s .failed)
  | .install s =>
    if st.phases.get s ≠ some .installing then none
    else some ((st.install s).enter s .attaching)
  | .busCheck s =>
    if st.phases.get s ≠ some .attaching then none
    else some (st.enter s (if (st.topics.get s.event).isSome then .adding else .failed))
  | .busAdd s =>
    if st.phases.get s ≠ some .adding then none
    else some ({ st with subscribers := insert s st.subscribers }.enter s .live)
  | .unsubscribe s =>
    if st.phases.get s ≠ some .live then none
    else some (st.enter s .unsubscribed)
  | .uninstall s =>
    if st.phases.get s ≠ some .unsubscribed then none
    else some ((st.uninstall s).enter s .uninstalled)
  | .cancel s =>
    if (st.phases.get s).any Phase.HasChannel then some { st with subscribers := st.subscribers.erase s }
    else none
  | .closeSubscribers name src =>
    if (name, src) ∈ st.publishers ∧ src ∈ st.closedSources then
      some { st.closeAllSubscribers name with
        publishers := st.publishers.erase (name, src)
        finishing := insert (name, src) st.finishing }
    else none
  | .deleteTopic name src =>
    if (name, src) ∈ st.finishing then
      some { st with finishing := st.finishing.erase (name, src), topics := st.topics.delete name }
    else none
  | .consume query =>
    -- An event of a topic without a channel is skipped.
    if st.sending ≠ none then none
    else some { st with sending := (st.consumeEvents query).map fun ch => (query, ch) }
  | .send =>
    match st.sending with
    | none => none
    -- A send on a closed channel panics.
    | some (_, ch) => if ch ∈ st.closedSources then none else some { st with sending := none }

/-- What each step does. -/
inductive Transition (st : EventSystem) : Step → EventSystem → Prop where
  | found {s : Subscription} (hnew : st.phases.get s = none) (hfound : (st.topics.get s.event).isSome) :
      Transition st (.subscribe s) (st.enter s .attaching)
  | missing {s : Subscription} (hnew : st.phases.get s = none) :
      Transition st (.subscribe s) (st.enter s .requesting)
  | queried {s : Subscription} (hphase : st.phases.get s = some .requesting) :
      Transition st (.query s true) ({ st with queries := insert s.event st.queries }.enter s .installing)
  | refused {s : Subscription} (hphase : st.phases.get s = some .requesting) :
      Transition st (.query s false) (st.enter s .failed)
  | installed {s : Subscription} (hphase : st.phases.get s = some .installing) :
      Transition st (.install s) ((st.install s).enter s .attaching)
  | checked {s : Subscription} (hphase : st.phases.get s = some .attaching)
      (hfound : (st.topics.get s.event).isSome) : Transition st (.busCheck s) (st.enter s .adding)
  | vanished {s : Subscription} (hphase : st.phases.get s = some .attaching) :
      Transition st (.busCheck s) (st.enter s .failed)
  | added {s : Subscription} (hphase : st.phases.get s = some .adding) :
      Transition st (.busAdd s) ({ st with subscribers := insert s st.subscribers }.enter s .live)
  | unsubscribed {s : Subscription} (hphase : st.phases.get s = some .live) :
      Transition st (.unsubscribe s) (st.enter s .unsubscribed)
  | uninstalled {s : Subscription} (hphase : st.phases.get s = some .unsubscribed) :
      Transition st (.uninstall s) ((st.uninstall s).enter s .uninstalled)
  | cancelled {s : Subscription} :
      Transition st (.cancel s) { st with subscribers := st.subscribers.erase s }
  | closing {name : String} {src : ℕ} (hmem : (name, src) ∈ st.publishers) (hclosed : src ∈ st.closedSources) :
      Transition st (.closeSubscribers name src)
        { st.closeAllSubscribers name with
          publishers := st.publishers.erase (name, src)
          finishing := insert (name, src) st.finishing }
  | finished {name : String} {src : ℕ} (hmem : (name, src) ∈ st.finishing) :
      Transition st (.deleteTopic name src)
        { st with finishing := st.finishing.erase (name, src), topics := st.topics.delete name }
  | consumed {query : String} :
      Transition st (.consume query) { st with sending := (st.consumeEvents query).map fun ch => (query, ch) }
  | sent : Transition st .send { st with sending := none }

/-- **A step does one of these.** -/
theorem transition_of_step {st st' : EventSystem} {a : Step} (h : st.step a = some st') :
    Transition st a st' := by
  cases a with
  | subscribe s =>
      simp only [EventSystem.step] at h
      split_ifs at h with hnew hfound
      · obtain rfl := Option.some.inj h
        exact .found (not_not.mp hnew) hfound
      · obtain rfl := Option.some.inj h
        exact .missing (not_not.mp hnew)
  | query s ok =>
      simp only [EventSystem.step] at h
      split_ifs at h with hphase hok
      · obtain rfl := Option.some.inj h
        obtain rfl := hok
        exact .queried (not_not.mp hphase)
      · obtain rfl := Option.some.inj h
        obtain rfl := Bool.eq_false_iff.mpr hok
        exact .refused (not_not.mp hphase)
  | install s =>
      simp only [EventSystem.step] at h
      split_ifs at h with hphase
      obtain rfl := Option.some.inj h
      exact .installed (not_not.mp hphase)
  | busCheck s =>
      simp only [EventSystem.step] at h
      split_ifs at h with hphase hfound
      · obtain rfl := Option.some.inj h
        exact .checked (not_not.mp hphase) hfound
      · obtain rfl := Option.some.inj h
        exact .vanished (not_not.mp hphase)
  | busAdd s =>
      simp only [EventSystem.step] at h
      split_ifs at h with hphase
      obtain rfl := Option.some.inj h
      exact .added (not_not.mp hphase)
  | unsubscribe s =>
      simp only [EventSystem.step] at h
      split_ifs at h with hphase
      obtain rfl := Option.some.inj h
      exact .unsubscribed (not_not.mp hphase)
  | uninstall s =>
      simp only [EventSystem.step] at h
      split_ifs at h with hphase
      obtain rfl := Option.some.inj h
      exact .uninstalled (not_not.mp hphase)
  | cancel s =>
      simp only [EventSystem.step] at h
      split_ifs at h
      obtain rfl := Option.some.inj h
      exact .cancelled
  | closeSubscribers name src =>
      simp only [EventSystem.step] at h
      split_ifs at h with hboth
      obtain rfl := Option.some.inj h
      exact .closing hboth.1 hboth.2
  | deleteTopic name src =>
      simp only [EventSystem.step] at h
      split_ifs at h with hmem
      obtain rfl := Option.some.inj h
      exact .finished hmem
  | consume query =>
      simp only [EventSystem.step] at h
      split_ifs at h
      obtain rfl := Option.some.inj h
      exact .consumed
  | send =>
      simp only [EventSystem.step] at h
      split at h
      · exact absurd h (by simp)
      · split_ifs at h
        obtain rfl := Option.some.inj h
        exact .sent

/-! ## What the event loop changes -/

namespace EventSystem

section loop

variable (st : EventSystem) (f : Subscription)

/-- What an installation changes. -/
theorem install_eq : st.install f =
    { st with
      index := insert f st.index
      topicChans := st.topicChans.set f.event st.nextChan
      nextChan := st.nextChan + 1
      topics := if (st.topics.get f.event).isSome then st.topics else st.topics.set f.event st.nextChan
      publishers := if (st.topics.get f.event).isSome then st.publishers
        else insert (f.event, st.nextChan) st.publishers } := by
  unfold install addTopic
  split_ifs <;> rfl

/-- The topic is on the bus after an installation. -/
theorem install_registers : ((st.install f).topics.get f.event).isSome := by
  rw [install_eq]
  by_cases h : (st.topics.get f.event).isSome = true
  · simp only [if_pos h]
    exact h
  · simp only [if_neg h, GoMap.get_set_self]
    rfl

/-- The other topics are as before. -/
theorem install_topics_of_ne {t : String} (hne : t ≠ f.event) : (st.install f).topics.get t = st.topics.get t := by
  rw [install_eq]
  by_cases h : (st.topics.get f.event).isSome = true
  · simp only [if_pos h]
  · simp only [if_neg h]
    exact GoMap.get_set_of_ne _ hne _

/-- A publisher after an installation is a new one, or one from before. -/
theorem mem_install_publishers {p : String × ℕ} (h : p ∈ (st.install f).publishers) :
    p = (f.event, st.nextChan) ∨ p ∈ st.publishers := by
  rw [install_eq] at h
  by_cases hregistered : (st.topics.get f.event).isSome = true
  · simp only [if_pos hregistered] at h
    exact .inr h
  · simp only [if_neg hregistered] at h
    exact Finset.mem_insert.mp h

/-- **What an uninstallation does**: it leaves everything in place, or takes the topic down. -/
theorem uninstall_cases :
    (st.channelInUse f = true ∧ st.uninstall f = { st with index := st.index.erase f }) ∨
    (st.channelInUse f = false ∧ st.topicChans.get f.event = none ∧
      st.uninstall f = { st with index := st.index.erase f, queries := st.queries.erase f.event }) ∨
    ∃ ch, st.channelInUse f = false ∧ st.topicChans.get f.event = some ch ∧
      st.uninstall f =
        { st with
          index := st.index.erase f
          queries := st.queries.erase f.event
          topics := st.topics.delete f.event
          closedSources := insert ch st.closedSources
          topicChans := st.topicChans.delete f.event } := by
  unfold uninstall
  by_cases hused : st.channelInUse f = true
  · exact .inl ⟨hused, if_pos hused⟩
  · rw [if_neg hused]
    have hfree : st.channelInUse f = false := Bool.eq_false_iff.mpr hused
    cases hch : st.topicChans.get f.event with
    | none => exact .inr (.inl ⟨hfree, rfl, rfl⟩)
    | some ch => exact .inr (.inr ⟨ch, hfree, rfl, rfl⟩)

end loop

/-! ## Channels -/

/-- The channels that the event loop made: each was made for one topic. -/
structure Fresh (st : EventSystem) : Prop where
  recorded_lt : ∀ {t ch}, st.topicChans.get t = some ch → ch < st.nextChan
  published_lt : ∀ {t ch}, (t, ch) ∈ st.publishers → ch < st.nextChan
  closed_lt : ∀ {ch}, ch ∈ st.closedSources → ch < st.nextChan
  recorded_inj : ∀ {t t' ch}, st.topicChans.get t = some ch → st.topicChans.get t' = some ch → t = t'
  published_inj : ∀ {t t' ch}, st.topicChans.get t = some ch → (t', ch) ∈ st.publishers → t' = t

/-- An installation makes a new channel. -/
theorem Fresh.install {st : EventSystem} (h : st.Fresh) (f : Subscription) : (st.install f).Fresh := by
  have hchans : (st.install f).topicChans = st.topicChans.set f.event st.nextChan := by rw [install_eq]
  have hnext : (st.install f).nextChan = st.nextChan + 1 := by rw [install_eq]
  have hclosed : (st.install f).closedSources = st.closedSources := by rw [install_eq]
  have hrecorded : ∀ {t ch}, (st.install f).topicChans.get t = some ch →
      (t = f.event ∧ ch = st.nextChan) ∨ (t ≠ f.event ∧ st.topicChans.get t = some ch) := by
    intro t ch ht
    rw [hchans, GoMap.get_set] at ht
    split_ifs at ht with heq
    · exact .inl ⟨heq, (Option.some.inj ht).symm⟩
    · exact .inr ⟨heq, ht⟩
  constructor
  · intro t ch ht
    rw [hnext]
    rcases hrecorded ht with ⟨-, rfl⟩ | ⟨-, hold⟩
    · omega
    · exact (h.recorded_lt hold).trans (Nat.lt_succ_self _)
  · intro t ch hmem
    rw [hnext]
    rcases st.mem_install_publishers f hmem with heq | hold
    · rw [(Prod.mk.inj heq).2]
      omega
    · exact (h.published_lt hold).trans (Nat.lt_succ_self _)
  · intro ch hmem
    rw [hclosed] at hmem
    rw [hnext]
    exact (h.closed_lt hmem).trans (Nat.lt_succ_self _)
  · intro t t' ch ht ht'
    rcases hrecorded ht with ⟨rfl, rfl⟩ | ⟨-, hold⟩
    · rcases hrecorded ht' with ⟨rfl, -⟩ | ⟨-, hold'⟩
      · rfl
      · exact absurd (h.recorded_lt hold') (Nat.lt_irrefl _)
    · rcases hrecorded ht' with ⟨-, rfl⟩ | ⟨-, hold'⟩
      · exact absurd (h.recorded_lt hold) (Nat.lt_irrefl _)
      · exact h.recorded_inj hold hold'
  · intro t t' ch ht hmem
    rcases hrecorded ht with ⟨rfl, rfl⟩ | ⟨-, hold⟩
    · rcases st.mem_install_publishers f hmem with heq | hpub
      · exact (Prod.mk.inj heq).1
      · exact absurd (h.published_lt hpub) (Nat.lt_irrefl _)
    · rcases st.mem_install_publishers f hmem with heq | hpub
      · obtain ⟨-, rfl⟩ := Prod.mk.inj heq
        exact absurd (h.recorded_lt hold) (Nat.lt_irrefl _)
      · exact h.published_inj hold hpub

/-- Forgetting channels mixes up none. -/
theorem Fresh.of_subset {st st' : EventSystem} (h : st.Fresh) (hnext : st'.nextChan = st.nextChan)
    (hrecorded : ∀ {t ch}, st'.topicChans.get t = some ch → st.topicChans.get t = some ch)
    (hpublished : st'.publishers ⊆ st.publishers)
    (hclosed : ∀ {ch}, ch ∈ st'.closedSources → ch < st.nextChan) : st'.Fresh where
  recorded_lt ht := hnext ▸ h.recorded_lt (hrecorded ht)
  published_lt hmem := hnext ▸ h.published_lt (hpublished hmem)
  closed_lt hmem := hnext ▸ hclosed hmem
  recorded_inj ht ht' := h.recorded_inj (hrecorded ht) (hrecorded ht')
  published_inj ht hmem := h.published_inj (hrecorded ht) (hpublished hmem)

/-- An uninstallation makes none. -/
theorem Fresh.uninstall {st : EventSystem} (h : st.Fresh) (f : Subscription) : (st.uninstall f).Fresh := by
  rcases st.uninstall_cases f with ⟨-, heq⟩ | ⟨-, -, heq⟩ | ⟨ch, -, hch, heq⟩
  · rw [heq]
    exact h.of_subset rfl id (Finset.Subset.refl _) h.closed_lt
  · rw [heq]
    exact h.of_subset rfl id (Finset.Subset.refl _) h.closed_lt
  · rw [heq]
    refine h.of_subset rfl ?_ (Finset.Subset.refl _) ?_
    · intro t ch' ht
      simp only [GoMap.get_delete] at ht
      split_ifs at ht
      exact ht
    · intro ch' hmem
      rcases Finset.mem_insert.mp hmem with rfl | hold
      · exact h.recorded_lt hch
      · exact h.closed_lt hold

/-- **The channels are not mixed up** by any step. -/
theorem fresh_of_step {st st' : EventSystem} {a : Step} (h : st.Fresh) (hstep : st.step a = some st') :
    st'.Fresh := by
  have hsame : ∀ {st' : EventSystem}, st'.topicChans = st.topicChans → st'.nextChan = st.nextChan →
      st'.publishers ⊆ st.publishers → st'.closedSources = st.closedSources → st'.Fresh := by
    intro st' hchans hnext hpublishers hclosed
    refine h.of_subset hnext ?_ hpublishers ?_
    · intro t ch ht
      rwa [hchans] at ht
    · intro ch hmem
      exact h.closed_lt (hclosed ▸ hmem)
  cases transition_of_step hstep with
  | installed _ => exact (h.install _).of_subset rfl id (Finset.Subset.refl _) (h.install _).closed_lt
  | uninstalled _ => exact (h.uninstall _).of_subset rfl id (Finset.Subset.refl _) (h.uninstall _).closed_lt
  | closing _ _ => exact hsame rfl rfl (Finset.erase_subset _ _) rfl
  | found _ _ | missing _ | queried _ | refused _ | checked _ _ | vanished _ | added _ | unsubscribed _
  | cancelled | finished _ | consumed | sent => exact hsame rfl rfl (Finset.Subset.refl _) rfl

/-- There is no channel at first. -/
theorem fresh_initial : Fresh {} where
  recorded_lt h := absurd h (by simp)
  published_lt h := absurd h (Finset.notMem_empty _)
  closed_lt h := absurd h (Finset.notMem_empty _)
  recorded_inj h := absurd h (by simp)
  published_inj h := absurd h (by simp)

/-- A publisher of the topic has seen, or is going to see, that its channel is closed, and has not yet
deleted the topic. -/
def ShuttingDown (st : EventSystem) (t : String) : Prop :=
  (∃ p ∈ st.publishers, p.1 = t ∧ p.2 ∈ st.closedSources) ∨ ∃ p ∈ st.finishing, p.1 = t

instance (st : EventSystem) (t : String) : Decidable (st.ShuttingDown t) :=
  inferInstanceAs (Decidable (_ ∨ _))

/-- The publisher of an installation reads from an open channel. -/
theorem shuttingDown_of_install {st : EventSystem} (h : st.Fresh) {f : Subscription} {t : String}
    (hdown : (st.install f).ShuttingDown t) : st.ShuttingDown t := by
  have hclosed : (st.install f).closedSources = st.closedSources := by rw [install_eq]
  have hfinishing : (st.install f).finishing = st.finishing := by rw [install_eq]
  unfold ShuttingDown at hdown
  rw [hclosed, hfinishing] at hdown
  rcases hdown with ⟨p, hp, hpt, hpclosed⟩ | hdown
  · rcases st.mem_install_publishers f hp with rfl | hold
    · exact absurd (h.closed_lt hpclosed) (Nat.lt_irrefl _)
    · exact .inl ⟨p, hold, hpt, hpclosed⟩
  · exact .inr hdown

/-- Closing the channel of a topic shuts down publishers of that topic only. -/
theorem shuttingDown_of_close {st st' : EventSystem} (h : st.Fresh) {t t' : String} {ch : ℕ}
    (hch : st.topicChans.get t = some ch) (hne : t' ≠ t) (hdown : st'.ShuttingDown t')
    (hpublishers : st'.publishers = st.publishers) (hfinishing : st'.finishing = st.finishing)
    (hclosed : st'.closedSources = insert ch st.closedSources) : st.ShuttingDown t' := by
  unfold ShuttingDown at hdown
  rw [hpublishers, hfinishing, hclosed] at hdown
  rcases hdown with ⟨⟨name, src⟩, hp, rfl, hpclosed⟩ | hdown
  · rcases Finset.mem_insert.mp hpclosed with rfl | hbefore
    · exact absurd (h.published_inj hch hp) hne
    · exact .inl ⟨(name, src), hp, rfl, hbefore⟩
  · exact .inr hdown

/-- A publisher that goes on with shutting down was shutting down before. -/
theorem shuttingDown_of_closing {st st' : EventSystem} {name t : String} {src : ℕ}
    (hmem : (name, src) ∈ st.publishers) (hclosed : src ∈ st.closedSources) (hdown : st'.ShuttingDown t)
    (hpublishers : st'.publishers = st.publishers.erase (name, src))
    (hfinishing : st'.finishing = insert (name, src) st.finishing)
    (hsources : st'.closedSources = st.closedSources) : st.ShuttingDown t := by
  unfold ShuttingDown at hdown
  rw [hpublishers, hfinishing, hsources] at hdown
  rcases hdown with ⟨p, hp, hpt, hpclosed⟩ | ⟨p, hp, hpt⟩
  · exact .inl ⟨p, Finset.mem_of_mem_erase hp, hpt, hpclosed⟩
  · rcases Finset.mem_insert.mp hp with rfl | hold
    · exact .inl ⟨(name, src), hmem, hpt, hclosed⟩
    · exact .inr ⟨p, hold, hpt⟩

/-- When a publisher has finished, no topic shuts down that did not before. -/
theorem shuttingDown_of_finished {st st' : EventSystem} {p : String × ℕ} {t : String}
    (hdown : st'.ShuttingDown t) (hpublishers : st'.publishers = st.publishers)
    (hfinishing : st'.finishing = st.finishing.erase p) (hsources : st'.closedSources = st.closedSources) :
    st.ShuttingDown t := by
  unfold ShuttingDown at hdown
  rw [hpublishers, hfinishing, hsources] at hdown
  rcases hdown with hclosing | ⟨q, hq, hqt⟩
  · exact .inl hclosing
  · exact .inr ⟨q, Finset.mem_of_mem_erase hq, hqt⟩

end EventSystem

end Smartdoge.Rpc
