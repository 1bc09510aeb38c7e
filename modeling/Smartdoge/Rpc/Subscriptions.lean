import Smartdoge.Rpc.EventSystem

/-!
# Runs of the event system

What holds of the event system after any number of steps, in any order.

The index that the event loop consults has only the subscriptions that were installed. One that found its
topic on the bus is not in it, and is cut off when the last installed one leaves. Two calls that both miss
the topic both install it: the second channel is recorded for `consumeEvents`, while the bus keeps the first
one.

* **`unsubscribe_spares_others`**: nobody else is cut off, in runs where the last installed subscription of a
  topic leaves after all others, and nobody subscribes while a publisher of the topic shuts down.
* **`routed_of_single_install`**: events are sent to the channel that is published, in runs where a topic is
  installed only while it is not on the bus and no publisher of it shuts down, and no channel is closed between the
  lookup and the send.
* `attached_cut_off`, `double_install_diverts`: what happens otherwise.
-/

set_option linter.unusedSectionVars false

namespace Smartdoge.Rpc

open Smartdoge.Lib
open Smartdoge.Lib.Runs

namespace EventSystem

/-! ## Routing -/

/-- **Events are routed to a live publisher**: the channel recorded for a topic is the one on the bus, and a
publisher of the topic reads what `consumeEvents` sends to it. -/
structure Routed (st : EventSystem) : Prop where
  same : ∀ t, st.topicChans.get t = st.topics.get t
  published : ∀ {t ch}, st.consumeEvents t = some ch → (t, ch) ∈ st.publishers ∧ ch ∉ st.closedSources

/-- A topic is installed only while it is not on the bus and no publisher of it shuts down. -/
def SingleInstall (st : EventSystem) : Step → Prop
  | .install s => st.topics.get s.event = none ∧ ¬st.ShuttingDown s.event
  | _ => True

instance (st : EventSystem) : ∀ a, Decidable (st.SingleInstall a)
  | .install _ => inferInstanceAs (Decidable (_ ∧ _))
  | .subscribe _ | .query _ _ | .busCheck _ | .busAdd _ | .unsubscribe _ | .uninstall _ | .cancel _
  | .closeSubscribers _ _ | .deleteTopic _ _ | .consume _ | .send => isTrue trivial

/-- The channel that `consumeEvents` found for the event it is about to send is open, and a publisher of the topic
reads it. -/
def SendsRead (st : EventSystem) : Prop :=
  ∀ p ∈ st.sending, p ∈ st.publishers ∧ p.2 ∉ st.closedSources

/-- No uninstallation closes the channel between the lookup and the send. -/
def SparesSend (st : EventSystem) : Step → Prop
  | .uninstall s => st.channelInUse s = true ∨ ∀ p ∈ st.sending, st.topicChans.get s.event ≠ some p.2
  | _ => True

instance (st : EventSystem) : ∀ a, Decidable (st.SparesSend a)
  | .uninstall _ => inferInstanceAs (Decidable (_ ∨ _))
  | .subscribe _ | .query _ _ | .install _ | .busCheck _ | .busAdd _ | .unsubscribe _ | .cancel _
  | .closeSubscribers _ _ | .deleteTopic _ _ | .consume _ | .send => isTrue trivial

/-- What is kept along a run: also that no publisher of a recorded topic shuts down. -/
structure Routing (st : EventSystem) : Prop extends Fresh st, Routed st where
  steady : ∀ {t ch}, st.topicChans.get t = some ch → ¬st.ShuttingDown t

/-- Steps that leave the channels alone. -/
theorem Routing.of_eq {st st' : EventSystem} (h : st.Routing) (hfresh : st'.Fresh)
    (hchans : st'.topicChans = st.topicChans) (htopics : st'.topics = st.topics)
    (hpublishers : st'.publishers = st.publishers) (hfinishing : st'.finishing = st.finishing)
    (hclosed : st'.closedSources = st.closedSources) : st'.Routing where
  toFresh := hfresh
  same t := by rw [hchans, htopics, h.same]
  published := by
    intro t ch ht
    rw [hpublishers, hclosed]
    exact h.published (hchans ▸ ht : st.topicChans.get t = some ch)
  steady := by
    intro t ch ht
    unfold ShuttingDown
    rw [hpublishers, hclosed, hfinishing]
    exact h.steady (hchans ▸ ht)

/-- An installation of a topic that nobody has, and that does not shut down. -/
theorem Routing.install {st : EventSystem} (h : st.Routing) {f : Subscription}
    (hnew : st.topics.get f.event = none) (hsteady : ¬st.ShuttingDown f.event) : (st.install f).Routing := by
  have heq : st.install f =
      { st with
        index := insert f st.index
        topicChans := st.topicChans.set f.event st.nextChan
        nextChan := st.nextChan + 1
        topics := st.topics.set f.event st.nextChan
        publishers := insert (f.event, st.nextChan) st.publishers } := by
    rw [install_eq]
    simp [hnew]
  have hunused : st.nextChan ∉ st.closedSources := fun hmem => absurd (h.closed_lt hmem) (Nat.lt_irrefl _)
  refine ⟨h.toFresh.install f, ⟨?_, ?_⟩, ?_⟩
  · intro t
    rw [heq]
    simp only [GoMap.get_set, h.same]
  · intro t ch ht
    rw [heq] at ht ⊢
    simp only [consumeEvents, GoMap.get_set] at ht
    split_ifs at ht with htopic
    · obtain rfl := Option.some.inj ht
      subst htopic
      exact ⟨Finset.mem_insert_self _ _, hunused⟩
    · obtain ⟨hmem, hopen⟩ := h.published ht
      exact ⟨Finset.mem_insert_of_mem hmem, hopen⟩
  · intro t ch ht hdown
    have hbefore := shuttingDown_of_install h.toFresh hdown
    rw [heq] at ht
    simp only [GoMap.get_set] at ht
    split_ifs at ht with htopic
    · subst htopic
      exact hsteady hbefore
    · exact h.steady ht hbefore

/-- An uninstallation. -/
theorem Routing.uninstall {st : EventSystem} (h : st.Routing) (f : Subscription) : (st.uninstall f).Routing := by
  rcases st.uninstall_cases f with ⟨-, heq⟩ | ⟨-, -, heq⟩ | ⟨ch, -, hch, heq⟩
  · exact h.of_eq (h.toFresh.uninstall f) (by rw [heq]) (by rw [heq]) (by rw [heq]) (by rw [heq]) (by rw [heq])
  · exact h.of_eq (h.toFresh.uninstall f) (by rw [heq]) (by rw [heq]) (by rw [heq]) (by rw [heq]) (by rw [heq])
  · -- The topic is neither recorded nor on the bus; its channel was that of no other topic.
    have hother : ∀ {t ch'}, (st.topicChans.delete f.event).get t = some ch' →
        t ≠ f.event ∧ st.topicChans.get t = some ch' := by
      intro t ch' ht
      rw [GoMap.get_delete] at ht
      split_ifs at ht with htopic
      exact ⟨htopic, ht⟩
    refine ⟨h.toFresh.uninstall f, ⟨?_, ?_⟩, ?_⟩
    · intro t
      rw [heq]
      simp only [GoMap.get_delete, h.same]
    · intro t ch' ht
      rw [heq] at ht ⊢
      obtain ⟨hne, hold⟩ := hother ht
      obtain ⟨hmem, hopen⟩ := h.published hold
      refine ⟨hmem, ?_⟩
      intro hclosed
      rcases Finset.mem_insert.mp hclosed with rfl | hbefore
      · exact hne (h.recorded_inj hold hch)
      · exact hopen hbefore
    · intro t ch' ht hdown
      rw [heq] at ht hdown
      obtain ⟨hne, hold⟩ := hother ht
      exact h.steady hold (shuttingDown_of_close h.toFresh hch hne hdown rfl rfl rfl)

/-- A publisher whose channel is closed is not that of a recorded channel. -/
theorem Routing.closing {st : EventSystem} (h : st.Routing) {name : String} {src : ℕ}
    (hmem : (name, src) ∈ st.publishers) (hclosed : src ∈ st.closedSources) {st' : EventSystem} (hfresh : st'.Fresh)
    (hchans : st'.topicChans = st.topicChans) (htopics : st'.topics = st.topics)
    (hpublishers : st'.publishers = st.publishers.erase (name, src))
    (hfinishing : st'.finishing = insert (name, src) st.finishing)
    (hsources : st'.closedSources = st.closedSources) : st'.Routing := by
  refine ⟨hfresh, ⟨?_, ?_⟩, ?_⟩
  · intro t
    rw [hchans, htopics, h.same]
  · intro t ch ht
    obtain ⟨hpublished, hopen⟩ := h.published (hchans ▸ ht : st.topicChans.get t = some ch)
    rw [hpublishers, hsources]
    refine ⟨Finset.mem_erase.mpr ⟨?_, hpublished⟩, hopen⟩
    intro heq
    obtain ⟨-, rfl⟩ := Prod.mk.inj heq
    exact hopen hclosed
  · intro t ch ht hdown
    rw [hchans] at ht
    exact h.steady ht (shuttingDown_of_closing hmem hclosed hdown hpublishers hfinishing hsources)

/-- A publisher that finishes deletes a topic that is not on the bus any more. -/
theorem Routing.finished {st : EventSystem} (h : st.Routing) {name : String} {src : ℕ}
    (hmem : (name, src) ∈ st.finishing) {st' : EventSystem} (hfresh : st'.Fresh)
    (hchans : st'.topicChans = st.topicChans) (htopics : st'.topics = st.topics.delete name)
    (hpublishers : st'.publishers = st.publishers)
    (hfinishing : st'.finishing = st.finishing.erase (name, src))
    (hsources : st'.closedSources = st.closedSources) : st'.Routing := by
  have hgone : st.topicChans.get name = none := by
    cases hch : st.topicChans.get name with
    | none => rfl
    | some ch => exact absurd (.inr ⟨(name, src), hmem, rfl⟩) (h.steady hch)
  refine ⟨hfresh, ⟨?_, ?_⟩, ?_⟩
  · intro t
    rw [hchans, htopics, GoMap.get_delete]
    split_ifs with htopic
    · rw [htopic, hgone]
    · exact h.same t
  · intro t ch ht
    rw [hpublishers, hsources]
    exact h.published (hchans ▸ ht : st.topicChans.get t = some ch)
  · intro t ch ht hdown
    rw [hchans] at ht
    exact h.steady ht (shuttingDown_of_finished hdown hpublishers hfinishing hsources)

/-- **Every step** of a run with single installations keeps the routing. -/
theorem routing_of_step {st st' : EventSystem} {a : Step} (h : st.Routing) (hok : st.SingleInstall a)
    (hstep : st.step a = some st') : st'.Routing := by
  have hfresh := fresh_of_step h.toFresh hstep
  cases transition_of_step hstep with
  | installed _ => exact (h.install hok.1 hok.2).of_eq hfresh rfl rfl rfl rfl rfl
  | uninstalled _ => exact (h.uninstall _).of_eq hfresh rfl rfl rfl rfl rfl
  | closing hmem hclosed => exact h.closing hmem hclosed hfresh rfl rfl rfl rfl rfl
  | finished hmem => exact h.finished hmem hfresh rfl rfl rfl rfl rfl
  | found _ _ | missing _ | queried _ | refused _ | checked _ _ | vanished _ | added _ | unsubscribed _
  | cancelled | consumed | sent => exact h.of_eq hfresh rfl rfl rfl rfl rfl

/-- Nothing is routed at first. -/
theorem routing_initial : Routing {} where
  toFresh := fresh_initial
  same _ := rfl
  published h := absurd h (by simp [consumeEvents])
  steady h := absurd h (by simp)

/-- A publisher that reads the channel goes on while the channel is open. -/
theorem SendsRead.of_open {st st' : EventSystem} (h : st.SendsRead) (hsending : st'.sending = st.sending)
    (hclosed : ∀ p ∈ st.sending, p.2 ∈ st'.closedSources → p.2 ∈ st.closedSources)
    (hpublishers : ∀ p ∈ st.publishers, p.2 ∉ st.closedSources → p ∈ st'.publishers) : st'.SendsRead := by
  intro p hp
  rw [hsending] at hp
  obtain ⟨hmem, hopen⟩ := h p hp
  exact ⟨hpublishers p hmem hopen, fun hclose => hopen (hclosed p hp hclose)⟩

/-- The channel of the event that is about to be sent stays open, unless an uninstallation closes it. -/
theorem sendsRead_of_step {st st' : EventSystem} {a : Step} (hrouting : st.Routing) (h : st.SendsRead)
    (hok : st.SparesSend a) (hstep : st.step a = some st') : st'.SendsRead := by
  cases transition_of_step hstep with
  | @installed s _ =>
      have hsending : (st.install s).sending = st.sending := by rw [install_eq]
      have hclosed : (st.install s).closedSources = st.closedSources := by rw [install_eq]
      refine h.of_open hsending (fun _ _ hmem => hclosed ▸ hmem) ?_
      intro p hp _
      show p ∈ (st.install s).publishers
      rw [install_eq]
      dsimp only
      split_ifs
      · exact hp
      · exact Finset.mem_insert_of_mem hp
  | @uninstalled s _ =>
      rcases st.uninstall_cases s with ⟨-, heq⟩ | ⟨-, -, heq⟩ | ⟨ch, hfree, hch, heq⟩
      · rw [heq]
        exact h.of_open rfl (fun _ _ => id) fun _ hp _ => hp
      · rw [heq]
        exact h.of_open rfl (fun _ _ => id) fun _ hp _ => hp
      · rw [heq]
        refine h.of_open rfl ?_ fun _ hp _ => hp
        intro p hp hmem
        rcases Finset.mem_insert.mp hmem with hsame | hbefore
        · rcases hok with hused | hother
          · rw [hfree] at hused
            exact absurd hused Bool.false_ne_true
          · exact absurd (hsame ▸ hch) (hother p hp)
        · exact hbefore
  | closing _ hclosed =>
      refine h.of_open rfl (fun _ _ => id) ?_
      intro p hp hopen
      refine Finset.mem_erase.mpr ⟨?_, hp⟩
      rintro rfl
      exact hopen hclosed
  | @consumed query =>
      intro p hp
      obtain ⟨ch, hch, rfl⟩ := Option.map_eq_some_iff.mp hp
      exact hrouting.published hch
  | sent =>
      intro p hp
      cases hp
  | found _ _ | missing _ | queried _ | refused _ | checked _ _ | vanished _ | added _ | unsubscribed _
  | cancelled | finished _ => exact h.of_open rfl (fun _ _ => id) fun _ hp _ => hp

/-- A state that a run leads to, with what can be evaluated of it. -/
theorem exists_of_run (steps : List Step) {P : EventSystem → Bool} (h : (run step {} steps).any P = true) :
    ∃ st, run step {} steps = some st ∧ P st = true := by
  cases hrun : run step {} steps with
  | none => rw [hrun] at h; exact absurd h (by simp)
  | some st => rw [hrun] at h; exact ⟨st, rfl, h⟩

/-- The steps by which a subscription that misses its topic becomes live. -/
def firstSubscribe (s : Subscription) : List Step :=
  [.subscribe s, .query s true, .install s, .busCheck s, .busAdd s]

/-- The steps by which a subscription that finds its topic becomes live. -/
def laterSubscribe (s : Subscription) : List Step := [.subscribe s, .busCheck s, .busAdd s]

/-- **Events are routed to a live publisher**, after every run in which a topic is installed only while it is
not on the bus and no publisher of it shuts down. An event is sent to a channel that a publisher reads, if moreover
no uninstallation closes the channel after `consumeEvents` has looked it up. -/
theorem routed_of_single_install {steps : List Step} {st : EventSystem}
    (hmeets : Meets step SingleInstall {} steps) (hrun : run step {} steps = some st) :
    st.Routed ∧ (Meets step SparesSend {} steps → st.SendsRead) := by
  constructor
  · exact (run_invariant (fun h hok hstep => routing_of_step h hok hstep) routing_initial hmeets hrun).toRouted
  · intro hspares
    have hkept : st.Routing ∧ st.SendsRead := by
      refine run_invariant (I := fun st => st.Routing ∧ st.SendsRead) ?_ ⟨routing_initial, ?_⟩ (hmeets.and hspares) hrun
      · rintro s a s' ⟨hrouting, hread⟩ ⟨hok, hok'⟩ hstep
        exact ⟨routing_of_step hrouting hok hstep, sendsRead_of_step hrouting hread hok' hstep⟩
      · intro p hp
        cases hp
    exact hkept.2

/-- One client after the other, and again after the topic was taken down; then an event comes. -/
theorem routed_after_teardown :
    let a : Subscription := ⟨0, .logs⟩
    let b : Subscription := ⟨1, .logs⟩
    let c : Subscription := ⟨2, .logs⟩
    let steps : List Step :=
      firstSubscribe a ++ laterSubscribe b ++ [.unsubscribe b, .uninstall b, .unsubscribe a, .uninstall a,
        .closeSubscribers a.event 0, .deleteTopic a.event 0] ++ firstSubscribe c ++ [.consume c.event]
    ∃ st, run step {} steps = some st ∧ st.sending = some (c.event, 1) ∧ c ∈ st.subscribers ∧ st.Routed ∧
      st.SendsRead := by
  intro a b c steps
  obtain ⟨st, hrun, hP⟩ := exists_of_run steps
    (P := fun st => decide (st.sending = some (c.event, 1) ∧ c ∈ st.subscribers)) (by decide +kernel)
  obtain ⟨hsending, hc⟩ := of_decide_eq_true hP
  obtain ⟨hrouted, hread⟩ := routed_of_single_install (by decide +kernel) hrun
  exact ⟨st, hrun, hsending, hc, hrouted, hread (by decide +kernel)⟩

/-- Two clients look for the topic before either is installed. The channel of the second is recorded, but
the bus keeps and publishes that of the first: an event goes to a channel that nobody reads. -/
theorem double_install_diverts :
    let a : Subscription := ⟨0, .logs⟩
    let b : Subscription := ⟨1, .logs⟩
    let steps : List Step :=
      [.subscribe a, .subscribe b, .query a true, .query b true, .install a, .install b,
        .busCheck a, .busAdd a, .busCheck b, .busAdd b, .consume a.event]
    ∃ st, run step {} steps = some st ∧ a ∈ st.subscribers ∧ b ∈ st.subscribers ∧
      st.consumeEvents a.event = some 1 ∧ st.sending = some (a.event, 1) ∧ st.topics.get a.event = some 0 ∧
      (∀ p ∈ st.publishers, p.2 ≠ 1) ∧ ¬st.Routed := by
  intro a b steps
  obtain ⟨st, hrun, hP⟩ := exists_of_run steps
    (P := fun st => decide (a ∈ st.subscribers ∧ b ∈ st.subscribers ∧ st.consumeEvents a.event = some 1 ∧
      st.sending = some (a.event, 1) ∧ st.topics.get a.event = some 0 ∧ ∀ p ∈ st.publishers, p.2 ≠ 1))
    (by decide +kernel)
  obtain ⟨ha, hb, hconsume, hsending, htopic, hpublishers⟩ := of_decide_eq_true hP
  refine ⟨st, hrun, ha, hb, hconsume, hsending, htopic, hpublishers, ?_⟩
  intro hrouted
  exact hpublishers _ (hrouted.published hconsume).1 rfl

/-- The last client leaves while an event is about to be sent: the send panics. -/
example : run step {} (firstSubscribe ⟨0, .logs⟩ ++ [.consume SubscriptionType.logs.event, .unsubscribe ⟨0, .logs⟩,
    .uninstall ⟨0, .logs⟩, .send]) = none := by
  decide +kernel

/-! ## Unsubscribing -/

/-- **Nobody is cut off**: a client that has a subscription and did not call `Unsubscribe` has an open event
channel, its topic is on the bus, and Tendermint has its query. -/
def Spares (st : EventSystem) : Prop :=
  ∀ s, st.phases.get s = some .live →
    s ∉ st.closed ∧ (st.topics.get s.event).isSome ∧ s.event ∈ st.queries

/-- The last installed subscription of a topic is uninstalled only when no other subscription of the topic is
active, and nobody subscribes while a publisher of the topic shuts down. -/
def InstallerLast (st : EventSystem) : Step → Prop
  | .subscribe s => ¬st.ShuttingDown s.event
  | .uninstall s => st.channelInUse s = true ∨
    ∀ s' ∈ st.phases.keys, s'.event = s.event → (st.phases.get s').any Phase.Active = false
  | _ => True

instance (st : EventSystem) : ∀ a, Decidable (st.InstallerLast a)
  | .subscribe _ => inferInstanceAs (Decidable (¬_))
  | .uninstall _ => inferInstanceAs (Decidable (_ ∨ _))
  | .query _ _ | .install _ | .busCheck _ | .busAdd _ | .unsubscribe _ | .cancel _
  | .closeSubscribers _ _ | .deleteTopic _ _ | .consume _ | .send => isTrue trivial

/-- What is kept along a run. -/
structure Sparing (st : EventSystem) : Prop where
  /-- No publisher of a topic shuts down while a subscription of it is active. -/
  steady : ∀ {s phase}, st.phases.get s = some phase → phase.Active = true → ¬st.ShuttingDown s.event
  attached : ∀ {s phase}, st.phases.get s = some phase → phase.Attached = true →
    (st.topics.get s.event).isSome
  queried : ∀ {s}, st.phases.get s = some .installing → s.event ∈ st.queries
  registered : ∀ {t}, (st.topics.get t).isSome → t ∈ st.queries ∧ (st.topicChans.get t).isSome
  /-- Only subscriptions that came to have an event channel are on the bus, or had theirs closed. -/
  channel : ∀ {s}, s ∈ st.subscribers ∪ st.closed → (st.phases.get s).any Phase.HasChannel = true
  opened : ∀ {s}, st.phases.get s = some .live → s ∉ st.closed

/-- What is kept along a run implies that nobody is cut off. -/
theorem Sparing.spares {st : EventSystem} (h : st.Sparing) : st.Spares := by
  intro s hlive
  have hregistered := h.attached hlive rfl
  exact ⟨h.opened hlive, hregistered, (h.registered hregistered).1⟩

/-- A call moves on, and nothing else changes. -/
theorem Sparing.enter {st : EventSystem} (h : st.Sparing) {s : Subscription} {phase : Phase}
    (hsteady : phase.Active = true → ¬st.ShuttingDown s.event)
    (hattached : phase.Attached = true → (st.topics.get s.event).isSome)
    (hqueried : phase = .installing → s.event ∈ st.queries)
    (hchannel : s ∈ st.subscribers ∪ st.closed → phase.HasChannel = true)
    (hopened : phase = .live → s ∉ st.closed) : (st.enter s phase).Sparing := by
  have hphases : ∀ {s' phase'}, (st.enter s phase).phases.get s' = some phase' →
      (s' = s ∧ phase' = phase) ∨ (s' ≠ s ∧ st.phases.get s' = some phase') := by
    intro s' phase' hget
    simp only [EventSystem.enter, GoMap.get_set] at hget
    split_ifs at hget with heq
    · exact .inl ⟨heq, (Option.some.inj hget).symm⟩
    · exact .inr ⟨heq, hget⟩
  constructor
  · intro s' phase' hget hactive
    rcases hphases hget with ⟨rfl, rfl⟩ | ⟨-, hold⟩
    · exact hsteady hactive
    · exact h.steady hold hactive
  · intro s' phase' hget hatt
    rcases hphases hget with ⟨rfl, rfl⟩ | ⟨-, hold⟩
    · exact hattached hatt
    · exact h.attached hold hatt
  · intro s' hget
    rcases hphases hget with ⟨rfl, heq⟩ | ⟨-, hold⟩
    · exact hqueried heq.symm
    · exact h.queried hold
  · intro t ht
    exact h.registered ht
  · intro s' hmem
    simp only [EventSystem.enter, GoMap.get_set]
    split_ifs with heq
    · subst heq
      exact hchannel hmem
    · exact h.channel hmem
  · intro s' hget
    rcases hphases hget with ⟨rfl, heq⟩ | ⟨-, hold⟩
    · exact hopened heq.symm
    · exact h.opened hold

/-- A subscription that relies on its topic is active. -/
theorem active_of_attached {phase : Phase} (h : phase.Attached = true) : phase.Active = true := by
  cases phase <;> first | rfl | exact absurd h (by decide)

/-- A call that has no event channel is not on the bus. -/
theorem Sparing.notMem {st : EventSystem} (h : st.Sparing) {s : Subscription}
    (hphase : (st.phases.get s).any Phase.HasChannel = false) : s ∉ st.subscribers ∪ st.closed := by
  intro hmem
  exact absurd (h.channel hmem) (by rw [hphase]; simp)

/-- A call moves on before it has an event channel. -/
theorem Sparing.enter_early {st : EventSystem} (h : st.Sparing) {s : Subscription} {phase : Phase}
    (hphase : (st.phases.get s).any Phase.HasChannel = false)
    (hsteady : phase.Active = true → ¬st.ShuttingDown s.event)
    (hattached : phase.Attached = true → (st.topics.get s.event).isSome)
    (hqueried : phase = .installing → s.event ∈ st.queries) : (st.enter s phase).Sparing := by
  apply h.enter hsteady hattached hqueried
  · intro hmem
    exact absurd hmem (h.notMem hphase)
  · intro _ hmem
    exact h.notMem hphase (Finset.mem_union_right _ hmem)

/-- The client gives up its subscription. -/
theorem Sparing.enter_late {st : EventSystem} (h : st.Sparing) {s : Subscription} {phase : Phase}
    (hactive : phase.Active = false) (hchannel : phase.HasChannel = true) : (st.enter s phase).Sparing := by
  apply h.enter
  · intro hphase
    exact absurd (hphase.symm.trans hactive) (by simp)
  · intro hphase
    exact absurd ((active_of_attached hphase).symm.trans hactive) (by simp)
  · rintro rfl
    exact absurd hactive (by simp [Phase.Active])
  · intro _
    exact hchannel
  · rintro rfl
    exact absurd hactive (by simp [Phase.Active])

/-- Only the subscribers on the bus change. -/
theorem Sparing.subscribers {st : EventSystem} (h : st.Sparing) {subs : Finset Subscription}
    (hsubs : ∀ s ∈ subs, (st.phases.get s).any Phase.HasChannel = true) :
    Sparing { st with subscribers := subs } where
  steady := h.steady
  attached := h.attached
  queried := h.queried
  registered := h.registered
  channel hmem := by
    rcases Finset.mem_union.mp hmem with hsub | hclosed
    · exact hsubs _ hsub
    · exact h.channel (Finset.mem_union_right _ hclosed)
  opened := h.opened

/-- An installation cuts nobody off. -/
theorem Sparing.install {st : EventSystem} (h : st.Sparing) (hfresh : st.Fresh) {f : Subscription}
    (hqueried : f.event ∈ st.queries) : (st.install f).Sparing := by
  have hqueries : (st.install f).queries = st.queries := by rw [install_eq]
  have hchans : (st.install f).topicChans = st.topicChans.set f.event st.nextChan := by rw [install_eq]
  have hsame : (st.install f).phases = st.phases ∧ (st.install f).subscribers = st.subscribers ∧
      (st.install f).closed = st.closed := by
    rw [install_eq]
    exact ⟨rfl, rfl, rfl⟩
  obtain ⟨hphases, hsubscribers, hclosed⟩ := hsame
  constructor
  · intro s phase hget hactive hdown
    rw [hphases] at hget
    exact h.steady hget hactive (shuttingDown_of_install hfresh hdown)
  · intro s phase hget hattached
    rw [hphases] at hget
    by_cases htopic : s.event = f.event
    · rw [htopic]
      exact st.install_registers f
    · rw [st.install_topics_of_ne f htopic]
      exact h.attached hget hattached
  · intro s hget
    rw [hphases] at hget
    rw [hqueries]
    exact h.queried hget
  · intro t ht
    rw [hqueries, hchans, GoMap.get_set]
    split_ifs with htopic
    · subst htopic
      exact ⟨hqueried, rfl⟩
    · rw [st.install_topics_of_ne f htopic] at ht
      exact h.registered ht
  · intro s hmem
    rw [hsubscribers, hclosed] at hmem
    rw [hphases]
    exact h.channel hmem
  · intro s hget
    rw [hphases] at hget
    rw [hclosed]
    exact h.opened hget

/-- The last installed subscription leaves when no other is active. -/
theorem Sparing.uninstall {st : EventSystem} (h : st.Sparing) (hfresh : st.Fresh) {f : Subscription}
    (hok : st.InstallerLast (.uninstall f)) : (st.uninstall f).Sparing := by
  -- Where the topic is taken down, the active subscriptions are of other topics.
  have hother : st.channelInUse f = false → ∀ {s phase}, st.phases.get s = some phase →
      phase.Active = true → s.event ≠ f.event := by
    intro hfree s phase hget hactive hevent
    rcases hok with hused | hidle
    · exact absurd (hused.symm.trans hfree) (by simp)
    · have hinactive := hidle s (GoMap.mem_keys_of_get hget) hevent
      rw [hget] at hinactive
      exact absurd (hactive.symm.trans hinactive) (by simp)
  rcases st.uninstall_cases f with ⟨-, heq⟩ | ⟨hfree, hnone, heq⟩ | ⟨ch, hfree, hch, heq⟩
  · rw [heq]
    exact ⟨h.steady, h.attached, h.queried, h.registered, h.channel, h.opened⟩
  · rw [heq]
    refine ⟨h.steady, h.attached, ?_, ?_, h.channel, h.opened⟩
    · intro s hget
      exact Finset.mem_erase.mpr ⟨hother hfree hget rfl, h.queried hget⟩
    · intro t ht
      obtain ⟨hquery, hchan⟩ := h.registered ht
      refine ⟨Finset.mem_erase.mpr ⟨?_, hquery⟩, hchan⟩
      rintro rfl
      rw [hnone] at hchan
      exact absurd hchan (by simp)
  · rw [heq]
    refine ⟨?_, ?_, ?_, ?_, h.channel, h.opened⟩
    · intro s phase hget hactive hdown
      have hne := hother hfree hget hactive
      exact h.steady hget hactive (shuttingDown_of_close hfresh hch hne hdown rfl rfl rfl)
    · intro s phase hget hattached
      have hne := hother hfree hget (active_of_attached hattached)
      simp only [GoMap.get_delete_of_ne _ hne]
      exact h.attached hget hattached
    · intro s hget
      exact Finset.mem_erase.mpr ⟨hother hfree hget rfl, h.queried hget⟩
    · intro t ht
      simp only [GoMap.get_delete] at ht ⊢
      split_ifs at ht ⊢ with htopic
      · exact absurd ht (by simp)
      · obtain ⟨hquery, hchan⟩ := h.registered ht
        exact ⟨Finset.mem_erase.mpr ⟨htopic, hquery⟩, hchan⟩

/-- A publisher that shuts down closes no event channel of an active subscription. -/
theorem Sparing.closing {st : EventSystem} (h : st.Sparing) {name : String} {src : ℕ}
    (hmem : (name, src) ∈ st.publishers) (hclosed : src ∈ st.closedSources) :
    Sparing { st.closeAllSubscribers name with
      publishers := st.publishers.erase (name, src)
      finishing := insert (name, src) st.finishing } where
  steady hget hactive hdown :=
    h.steady hget hactive (shuttingDown_of_closing hmem hclosed hdown rfl rfl rfl)
  attached := h.attached
  queried := h.queried
  registered := h.registered
  channel := by
    intro s hs
    apply h.channel
    simp only [closeAllSubscribers, Finset.mem_union, Finset.mem_filter] at hs ⊢
    rcases hs with ⟨hsub, -⟩ | hold | ⟨hsub, -⟩
    · exact .inl hsub
    · exact .inr hold
    · exact .inl hsub
  opened := by
    intro s hlive hs
    rcases Finset.mem_union.mp hs with hold | hnew
    · exact h.opened hlive hold
    · have hevent : s.event = name := (Finset.mem_filter.mp hnew).2
      exact h.steady hlive rfl (.inl ⟨(name, src), hmem, hevent.symm, hclosed⟩)

/-- A publisher that finishes deletes no topic of an active subscription. -/
theorem Sparing.finished {st : EventSystem} (h : st.Sparing) {name : String} {src : ℕ}
    (hmem : (name, src) ∈ st.finishing) :
    Sparing { st with finishing := st.finishing.erase (name, src), topics := st.topics.delete name } where
  steady hget hactive hdown := h.steady hget hactive (shuttingDown_of_finished hdown rfl rfl rfl)
  attached := by
    intro s phase hget hattached
    have hne : s.event ≠ name := by
      intro hevent
      exact h.steady hget (active_of_attached hattached) (.inr ⟨(name, src), hmem, hevent.symm⟩)
    simp only [GoMap.get_delete_of_ne _ hne]
    exact h.attached hget hattached
  queried := h.queried
  registered := by
    intro t ht
    simp only [GoMap.get_delete] at ht
    split_ifs at ht with htopic
    · exact absurd ht (by simp)
    · exact h.registered ht
  channel := h.channel
  opened := h.opened

/-- **Every step** of a run in which the installer leaves last cuts nobody off. -/
theorem sparing_of_step {st st' : EventSystem} {a : Step} (hfresh : st.Fresh) (h : st.Sparing)
    (hok : st.InstallerLast a) (hstep : st.step a = some st') : st'.Sparing := by
  cases transition_of_step hstep with
  | found hnew hfound =>
      exact h.enter_early (by rw [hnew]; rfl) (fun _ => hok) (fun _ => hfound) (fun heq => absurd heq (by decide))
  | missing hnew =>
      exact h.enter_early (by rw [hnew]; rfl) (fun _ => hok) (fun hatt => absurd hatt (by decide)) (fun heq => absurd heq (by decide))
  | @queried s hphase =>
      have hmore : Sparing { st with queries := insert s.event st.queries } :=
        ⟨h.steady, h.attached, fun hget => Finset.mem_insert_of_mem (h.queried hget),
          fun ht => ⟨Finset.mem_insert_of_mem (h.registered ht).1, (h.registered ht).2⟩, h.channel, h.opened⟩
      refine hmore.enter_early ?_ (fun _ => h.steady hphase rfl) (fun hatt => absurd hatt (by decide))
        (fun _ => Finset.mem_insert_self _ _)
      simp only [hphase]
      rfl
  | refused hphase =>
      exact h.enter_early (by rw [hphase]; rfl) (fun hact => absurd hact (by decide)) (fun hatt => absurd hatt (by decide))
        (fun heq => absurd heq (by decide))
  | @installed s hphase =>
      have hinstalled := h.install hfresh (h.queried hphase)
      have hphases : (st.install s).phases = st.phases := by rw [install_eq]
      refine hinstalled.enter_early (by rw [hphases, hphase]; rfl) ?_ (fun _ => st.install_registers s)
        (fun heq => absurd heq (by decide))
      intro _ hdown
      exact h.steady hphase rfl (shuttingDown_of_install hfresh hdown)
  | checked hphase hfound =>
      exact h.enter_early (by rw [hphase]; rfl) (fun _ => h.steady hphase rfl) (fun _ => hfound)
        (fun heq => absurd heq (by decide))
  | vanished hphase =>
      exact h.enter_early (by rw [hphase]; rfl) (fun hact => absurd hact (by decide)) (fun hatt => absurd hatt (by decide))
        (fun heq => absurd heq (by decide))
  | @added s hphase =>
      have hlive : (st.enter s .live).Sparing := h.enter_early (by rw [hphase]; rfl)
        (fun _ => h.steady hphase rfl) (fun _ => h.attached hphase rfl) (fun heq => absurd heq (by decide))
      refine hlive.subscribers ?_
      intro s' hs'
      rcases Finset.mem_insert.mp hs' with rfl | hold
      · simp [EventSystem.enter, Phase.HasChannel]
      · exact hlive.channel (Finset.mem_union_left _ hold)
  | unsubscribed _ => exact h.enter_late rfl rfl
  | uninstalled _ => exact (h.uninstall hfresh hok).enter_late rfl rfl
  | cancelled =>
      refine h.subscribers ?_
      intro s' hs'
      exact h.channel (Finset.mem_union_left _ (Finset.mem_of_mem_erase hs'))
  | closing hmem hclosed => exact h.closing hmem hclosed
  | finished hmem => exact h.finished hmem
  | consumed | sent => exact ⟨h.steady, h.attached, h.queried, h.registered, h.channel, h.opened⟩

/-- There is nobody to cut off at first. -/
theorem sparing_initial : Sparing {} where
  steady h := absurd h (by simp)
  attached h := absurd h (by simp)
  queried h := absurd h (by simp)
  registered h := absurd h (by simp)
  channel h := absurd h (by simp)
  opened h := absurd h (by simp)

/-- **Unsubscribing cuts off nobody else**, after every run in which the last installed subscription of a topic
is uninstalled only when no other of the topic is active, and nobody subscribes while a publisher of the
topic shuts down. -/
theorem unsubscribe_spares_others {steps : List Step} {st : EventSystem}
    (hmeets : Meets step InstallerLast {} steps) (hrun : run step {} steps = some st) : st.Spares := by
  have hkept : st.Fresh ∧ st.Sparing := by
    refine run_invariant (I := fun st => st.Fresh ∧ st.Sparing) ?_ ⟨fresh_initial, sparing_initial⟩ hmeets hrun
    intro s a s' hinv hok hstep
    exact ⟨fresh_of_step hinv.1 hstep, sparing_of_step hinv.1 hinv.2 hok hstep⟩
  exact hkept.2.spares

/-- The second client found the topic on the bus, and is not in the index. When the first one unsubscribes, the
topic is taken down, and the event channel of the second is closed. -/
theorem attached_cut_off :
    let a : Subscription := ⟨0, .logs⟩
    let b : Subscription := ⟨1, .logs⟩
    let steps : List Step :=
      firstSubscribe a ++ laterSubscribe b ++ [.unsubscribe a, .uninstall a, .closeSubscribers a.event 0]
    ∃ st, run step {} steps = some st ∧ st.phases.get b = some .live ∧ b ∈ st.closed ∧
      st.topics.get b.event = none ∧ b.event ∉ st.queries ∧ ¬st.Spares := by
  intro a b steps
  obtain ⟨st, hrun, hP⟩ := exists_of_run steps
    (P := fun st => decide (st.phases.get b = some .live ∧ b ∈ st.closed ∧ st.topics.get b.event = none ∧
      b.event ∉ st.queries)) (by decide +kernel)
  obtain ⟨hlive, hclosed, htopic, hquery⟩ := of_decide_eq_true hP
  refine ⟨st, hrun, hlive, hclosed, htopic, hquery, ?_⟩
  intro hspares
  exact (hspares b hlive).1 hclosed

/-- Two clients share a topic, the installed one leaves last, and a third one comes when the publisher is
done. -/
theorem unsubscribe_spares_third :
    let a : Subscription := ⟨0, .logs⟩
    let b : Subscription := ⟨1, .logs⟩
    let c : Subscription := ⟨2, .logs⟩
    let steps : List Step :=
      firstSubscribe a ++ laterSubscribe b ++ [.unsubscribe b, .uninstall b, .unsubscribe a, .uninstall a,
        .closeSubscribers a.event 0, .deleteTopic a.event 0] ++ firstSubscribe c
    ∃ st, run step {} steps = some st ∧ st.phases.get c = some .live ∧ a ∈ st.closed ∧ st.Spares := by
  intro a b c steps
  obtain ⟨st, hrun, hP⟩ := exists_of_run steps
    (P := fun st => decide (st.phases.get c = some .live ∧ a ∈ st.closed)) (by decide +kernel)
  obtain ⟨hlive, hclosed⟩ := of_decide_eq_true hP
  exact ⟨st, hrun, hlive, hclosed, unsubscribe_spares_others (by decide +kernel) hrun⟩

end EventSystem

end Smartdoge.Rpc
