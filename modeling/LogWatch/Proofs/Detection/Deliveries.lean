import LogWatch.Engine.Sink
import Mathlib.Logic.Relation

/-!
# The sink and its delivery, side by side

The sink takes one detection after the other; it gives it to the store, publishes it and offers it for
delivery.  Whoever delivers takes the detections from the queue between them and sends them out, in its
own time, and may stop doing so.  When no more detections come, the sink waits until the queue is empty.

* `SinkRun`, `SinkRun.SinkStep`, `SinkRun.DeliveryStep` — the steps of both, in any order;
* `SinkRun.runs_accept`, `SinkRun.runs_deliverNext?` — what a sink does at once is made of these steps;
* `SinkRun.Invariant` — where the detections are;
* `SinkRun.only_deliveries_are_skipped` — all detections are published, and stored unless the store
  refuses; those that find no place for delivery are skipped, and all others have gone out in the end.
-/

namespace LogWatch.Engine

open Alert

namespace Sink

/-- Is there a place for one more delivery? -/
def takes (s : Sink) : Bool :=
  s.delivering && s.pending.hasRoom

theorem offer_of_takes {s : Sink} (h : s.takes = true) (event : NotifyEvent) :
    s.offer event = { s with pending := s.pending.push event } :=
  if_pos h

theorem offer_of_not_takes {s : Sink} (h : s.takes = false) (event : NotifyEvent) :
    s.offer event = { s with skipped := s.skipped ++ [event] } :=
  if_neg (Bool.eq_false_iff.1 h)

/-- A store keeps a detection unless it refuses it. -/
theorem notifications_record (store : Store) (event : NotifyEvent) :
    (record store event).notifications =
      store.notifications ++ if (store.saveNotify event).isOk then [event] else [] := by
  unfold record Store.saveNotify
  split
  · rename_i h
    split at h
    · cases h
    · cases h
      rfl
  · rename_i h
    split at h
    · simp [Except.isOk, Except.toBool]
    · cases h

end Sink

/-! ## Steps -/

namespace SinkRun

/-- What the sink has in hand. -/
inductive Hand where
  | free
  /-- A detection that has not been stored yet. -/
  | received (event : NotifyEvent)
  /-- A detection that has been given to the store. -/
  | recorded (event : NotifyEvent)
  /-- A detection that has been published as well. -/
  | published (event : NotifyEvent)

namespace Hand

/-- The detection in hand if it has not been given to the store. -/
def unrecorded : Hand → List NotifyEvent
  | .received event => [event]
  | .free | .recorded _ | .published _ => []

/-- The detection in hand if it has not been published. -/
def unpublished : Hand → List NotifyEvent
  | .received event | .recorded event => [event]
  | .free | .published _ => []

/-- The detection in hand, which has not been offered for delivery. -/
def unoffered : Hand → List NotifyEvent
  | .received event | .recorded event | .published event => [event]
  | .free => []

end Hand

/-- How far the sink is. -/
inductive Phase where
  /-- Detections are taken as they come. -/
  | receiving
  /-- No more detections can come; those in the queue are delivered. -/
  | closing
  | returned
deriving DecidableEq

end SinkRun

/-- A sink and its delivery, which work side by side. -/
structure SinkRun where
  store : Store
  sink : Sink
  phase : SinkRun.Phase
  hand : SinkRun.Hand
  /-- The detection that is being sent out. -/
  outgoing : Option NotifyEvent
  /-- The detections that the sink has taken, in order. -/
  received : List NotifyEvent
  /-- The detections that the store was given, and whether it kept them. -/
  saves : List (NotifyEvent × Bool)
  /-- The detections that were offered for delivery, and whether there was a place for them. -/
  offers : List (NotifyEvent × Bool)

namespace SinkRun

/-- A sink that has seen nothing, with a store. -/
def start (store : Store) (dispatcher : Dispatcher) : SinkRun where
  store := store
  sink := .start dispatcher
  phase := .receiving
  hand := .free
  outgoing := none
  received := []
  saves := []
  offers := []

/-- What the sink can do next. -/
inductive SinkStep (s : SinkRun) : SinkRun → Prop
  /-- A detection comes. -/
  | receive (event : NotifyEvent) : s.phase = .receiving → s.hand = .free →
      SinkStep s { s with hand := .received event, received := s.received ++ [event] }
  | record {event : NotifyEvent} : s.hand = .received event →
      SinkStep s { s with
        store := Sink.record s.store event
        hand := .recorded event
        saves := s.saves ++ [(event, (s.store.saveNotify event).isOk)] }
  | publish {event : NotifyEvent} : s.hand = .recorded event →
      SinkStep s { s with sink := s.sink.publish event, hand := .published event }
  | offer {event : NotifyEvent} : s.hand = .published event →
      SinkStep s { s with
        sink := s.sink.offer event
        hand := .free
        offers := s.offers ++ [(event, s.sink.takes)] }
  /-- There is no one left who could send a detection. -/
  | close : s.phase = .receiving → s.hand = .free → SinkStep s { s with phase := .closing }
  /-- The delivery has come to its end, or there is none. -/
  | finish : s.phase = .closing →
      (s.sink.delivering = true → s.sink.pending.entries = [] ∧ s.outgoing = none) →
      SinkStep s { s with phase := .returned }

/-- What the delivery can do next. -/
inductive DeliveryStep (s : SinkRun) : SinkRun → Prop
  | take {event : NotifyEvent} {rest : Queue NotifyEvent} : s.sink.delivering = true →
      s.outgoing = none → s.sink.pending.next? = some (event, rest) →
      DeliveryStep s { s with sink := { s.sink with pending := rest }, outgoing := some event }
  /-- The detection has gone out on every channel. -/
  | dispatch (environment : String → Option String) (now : String) {event : NotifyEvent} :
      s.sink.delivering = true → s.outgoing = some event →
      DeliveryStep s { s with
        sink := { s.sink with
          dispatched := s.sink.dispatched ++
            [(event, s.sink.dispatcher.dispatch environment now event)] }
        outgoing := none }
  /-- The delivery breaks down, and what waits for it is lost. -/
  | breakDown : s.sink.delivering = true →
      DeliveryStep s { s with
        sink := { s.sink with delivering := false, pending := .empty deliveryRoom }
        outgoing := none }

/-- What can happen next. -/
inductive Step (s : SinkRun) : SinkRun → Prop
  | sink {t : SinkRun} : s.SinkStep t → Step s t
  | delivery {t : SinkRun} : s.DeliveryStep t → Step s t
  /-- Others use the store as well, but they do not touch its notifications. -/
  | beside {store : Store} : store.notifications = s.store.notifications →
      Step s { s with store := store }

/-- Steps one after the other. -/
abbrev Run : SinkRun → SinkRun → Prop :=
  Relation.ReflTransGen Step

/-- Steps of the sink alone. -/
abbrev Alone : SinkRun → SinkRun → Prop :=
  Relation.ReflTransGen SinkStep

/-- The detections that went out, in order. -/
def dispatched (s : SinkRun) : List NotifyEvent :=
  s.sink.dispatched.map (·.1)

/-- The detections that were kept of those that were given away. -/
def kept (log : List (NotifyEvent × Bool)) : List NotifyEvent :=
  (log.filter (·.2)).map (·.1)

/-- The others. -/
def refused (log : List (NotifyEvent × Bool)) : List NotifyEvent :=
  (log.filter (!·.2)).map (·.1)

theorem kept_append (log : List (NotifyEvent × Bool)) (event : NotifyEvent) (b : Bool) :
    kept (log ++ [(event, b)]) = kept log ++ if b then [event] else [] := by
  cases b <;> simp [kept]

theorem refused_append (log : List (NotifyEvent × Bool)) (event : NotifyEvent) (b : Bool) :
    refused (log ++ [(event, b)]) = refused log ++ if b then [] else [event] := by
  cases b <;> simp [refused]

theorem kept_sublist (log : List (NotifyEvent × Bool)) : (kept log).Sublist (log.map (·.1)) :=
  List.filter_sublist.map _

theorem kept_eq_of_all {log : List (NotifyEvent × Bool)} (h : ∀ entry ∈ log, entry.2 = true) :
    kept log = log.map (·.1) := by
  rw [kept, List.filter_eq_self.2 h]

/-! ## What is done at once -/

variable {s t : SinkRun}

/-- A detection accepted at once. -/
def accept (s : SinkRun) (event : NotifyEvent) : SinkRun :=
  { s with
    store := (Sink.accept s.store s.sink event).1
    sink := (Sink.accept s.store s.sink event).2
    received := s.received ++ [event]
    saves := s.saves ++ [(event, (s.store.saveNotify event).isOk)]
    offers := s.offers ++ [(event, (s.sink.publish event).takes)] }

/-- A sink that is free makes four steps for it. -/
theorem runs_accept (hphase : s.phase = .receiving) (hhand : s.hand = .free) (event : NotifyEvent) :
    s.Alone (s.accept event) := by
  have hrun : s.Alone s := .refl
  have hrun := hrun.tail (.receive event hphase hhand)
  have hrun := hrun.tail (.record rfl)
  have hrun := hrun.tail (.publish rfl)
  have hrun := hrun.tail (.offer rfl)
  rw [← hhand] at hrun
  exact hrun

theorem dispatched_accept (s : SinkRun) (event : NotifyEvent) :
    (s.accept event).dispatched = s.dispatched := by
  unfold dispatched accept Sink.accept Sink.offer
  split <;> rfl

/-- However many detections come, a sink that is free takes them without a single delivery. -/
theorem exists_alone (hphase : s.phase = .receiving) (hhand : s.hand = .free)
    (events : List NotifyEvent) :
    ∃ t, s.Alone t ∧ t.phase = .receiving ∧ t.hand = .free ∧ t.received = s.received ++ events ∧
      t.dispatched = s.dispatched := by
  induction events generalizing s with
  | nil => exact ⟨s, .refl, hphase, hhand, (List.append_nil _).symm, rfl⟩
  | cons event events ih =>
    have hone := runs_accept hphase hhand event
    obtain ⟨t, hrun, hreceiving, hfree, hreceived, hdispatched⟩ := @ih (s.accept event) hphase hhand
    refine ⟨t, hone.trans hrun, hreceiving, hfree, ?_, ?_⟩
    · rw [hreceived, accept, List.append_assoc, List.singleton_append]
    · rw [hdispatched, dispatched_accept]

/-- A delivery at once is two steps. -/
theorem runs_deliverNext? {environment : String → Option String} {now : String} {sink : Sink}
    (houtgoing : s.outgoing = none) (h : s.sink.deliverNext? environment now = some sink) :
    Relation.ReflTransGen DeliveryStep s { s with sink := sink } := by
  unfold Sink.deliverNext? at h
  split at h
  · rename_i hdelivering
    obtain ⟨⟨event, rest⟩, hnext, rfl⟩ := Option.map_eq_some_iff.1 h
    have hrun : Relation.ReflTransGen DeliveryStep s s := .refl
    have hrun := hrun.tail (.take hdelivering houtgoing hnext)
    have hrun := hrun.tail (.dispatch environment now hdelivering rfl)
    rw [← houtgoing] at hrun
    exact hrun
  · cases h

/-! ## The invariant -/

/-- What holds of a sink that started with some notifications in its store. -/
structure Invariant (before : List NotifyEvent) (s : SinkRun) : Prop where
  stored : s.store.notifications = before ++ kept s.saves
  saved : s.saves.map (·.1) ++ s.hand.unrecorded = s.received
  published : s.sink.published ++ s.hand.unpublished = s.received
  offered : s.offers.map (·.1) ++ s.hand.unoffered = s.received
  skipped : s.sink.skipped = refused s.offers
  capacity : s.sink.pending.capacity = deliveryRoom
  room : s.sink.pending.size ≤ deliveryRoom
  /-- What found a place has gone out, is going out or waits, unless the delivery has broken down. -/
  queued : s.sink.delivering = true →
    s.dispatched ++ (s.outgoing.toList ++ s.sink.pending.entries) = kept s.offers
  /-- What has gone out, and what is going out behind it. -/
  inOrder : s.dispatched ++ s.outgoing.toList <+: kept s.offers
  closed : s.phase ≠ .receiving → s.hand = .free
  returned : s.phase = .returned → s.sink.delivering = true →
    s.sink.pending.entries = [] ∧ s.outgoing = none

theorem invariant_start (store : Store) (dispatcher : Dispatcher) :
    (start store dispatcher).Invariant store.notifications where
  stored := (List.append_nil _).symm
  saved := rfl
  published := rfl
  offered := rfl
  skipped := rfl
  capacity := rfl
  room := Nat.zero_le _
  queued := fun _ => rfl
  inOrder := List.prefix_refl _
  closed := fun _ => rfl
  returned := nofun

variable {before : List NotifyEvent}

/-- A sink without a place for delivery has a full queue, or nobody delivers. -/
theorem Invariant.full (h : s.Invariant before) (htakes : s.sink.takes = false) :
    s.sink.pending.size = deliveryRoom ∨ s.sink.delivering = false := by
  cases hdelivering : s.sink.delivering with
  | false => exact .inr rfl
  | true =>
    left
    have hroom := h.room
    have hfull : ¬ s.sink.pending.size < s.sink.pending.capacity := by
      simpa [Sink.takes, hdelivering, Queue.hasRoom] using htakes
    rw [h.capacity] at hfull
    omega

namespace Invariant

variable (h : s.Invariant before)

include h

/-- Where the detections are while the sink has something in hand. -/
theorem inHand {hand : Hand} (hhand : s.hand = hand) :
    s.saves.map (·.1) ++ hand.unrecorded = s.received ∧
      s.sink.published ++ hand.unpublished = s.received ∧
        s.offers.map (·.1) ++ hand.unoffered = s.received := by
  subst hhand
  exact ⟨h.saved, h.published, h.offered⟩

theorem receive (event : NotifyEvent) (hphase : s.phase = .receiving) (hhand : s.hand = .free) :
    Invariant before { s with hand := .received event, received := s.received ++ [event] } := by
  obtain ⟨hsaved, hpublished, hoffered⟩ := h.inHand hhand
  rw [Hand.unrecorded, List.append_nil] at hsaved
  rw [Hand.unpublished, List.append_nil] at hpublished
  rw [Hand.unoffered, List.append_nil] at hoffered
  exact
    { h with
      saved := congrArg (· ++ [event]) hsaved
      published := congrArg (· ++ [event]) hpublished
      offered := congrArg (· ++ [event]) hoffered
      closed := fun hclosed => absurd hphase hclosed }

theorem record {event : NotifyEvent} (hhand : s.hand = .received event) :
    Invariant before { s with
      store := Sink.record s.store event
      hand := .recorded event
      saves := s.saves ++ [(event, (s.store.saveNotify event).isOk)] } := by
  obtain ⟨hsaved, hpublished, hoffered⟩ := h.inHand hhand
  exact
    { h with
      stored := by
        rw [Sink.notifications_record, h.stored, kept_append, List.append_assoc]
      saved := by
        rw [List.map_append, ← hsaved]
        simp [Hand.unrecorded]
      published := hpublished
      offered := hoffered
      closed := by
        intro hclosed
        rw [h.closed hclosed] at hhand
        cases hhand }

theorem publish {event : NotifyEvent} (hhand : s.hand = .recorded event) :
    Invariant before { s with sink := s.sink.publish event, hand := .published event } := by
  obtain ⟨hsaved, hpublished, hoffered⟩ := h.inHand hhand
  exact
    { h with
      saved := hsaved
      published := by
        rw [← hpublished]
        simp [Sink.publish, Hand.unpublished]
      offered := hoffered
      closed := by
        intro hclosed
        rw [h.closed hclosed] at hhand
        cases hhand }

/-- A detection that finds a place waits behind all others. -/
theorem offer_taken {event : NotifyEvent} (htakes : s.sink.takes = true)
    (hhand : s.hand = .published event) :
    Invariant before { s with
      sink := { s.sink with pending := s.sink.pending.push event }
      hand := .free
      offers := s.offers ++ [(event, true)] } := by
  obtain ⟨hsaved, hpublished, hoffered⟩ := h.inHand hhand
  obtain ⟨hdelivering, hroom⟩ := Bool.and_eq_true_iff.1 htakes
  have hplace : s.sink.pending.size < s.sink.pending.capacity := by simpa [Queue.hasRoom] using hroom
  exact
    { h with
      saved := hsaved
      published := hpublished
      offered := by
        rw [← hoffered]
        simp [Hand.unoffered]
      skipped := by
        rw [refused_append, h.skipped]
        simp
      room := by
        rw [Queue.size_push]
        exact Nat.succ_le_of_lt (h.capacity ▸ hplace)
      queued := by
        intro _
        rw [kept_append, ← h.queued hdelivering]
        simp [dispatched]
      inOrder := by
        rw [kept_append]
        exact h.inOrder.trans (List.prefix_append ..)
      closed := fun _ => rfl
      returned := by
        intro hreturned
        have hclosed : s.phase ≠ .receiving := by
          rw [show s.phase = .returned from hreturned]
          nofun
        rw [h.closed hclosed] at hhand
        cases hhand }

theorem offer_skipped {event : NotifyEvent} (hhand : s.hand = .published event) :
    Invariant before { s with
      sink := { s.sink with skipped := s.sink.skipped ++ [event] }
      hand := .free
      offers := s.offers ++ [(event, false)] } := by
  obtain ⟨hsaved, hpublished, hoffered⟩ := h.inHand hhand
  exact
    { h with
      saved := hsaved
      published := hpublished
      offered := by
        rw [← hoffered]
        simp [Hand.unoffered]
      skipped := by
        rw [refused_append, h.skipped]
        simp
      queued := by
        intro hdelivering
        rw [kept_append, ← h.queued hdelivering]
        simp [dispatched]
      inOrder := by
        rw [kept_append]
        exact h.inOrder.trans (List.prefix_append ..)
      closed := fun _ => rfl }

theorem offer {event : NotifyEvent} (hhand : s.hand = .published event) :
    Invariant before { s with
      sink := s.sink.offer event
      hand := .free
      offers := s.offers ++ [(event, s.sink.takes)] } := by
  cases htakes : s.sink.takes with
  | true =>
    rw [Sink.offer_of_takes htakes]
    exact h.offer_taken htakes hhand
  | false =>
    rw [Sink.offer_of_not_takes htakes]
    exact h.offer_skipped hhand

/-- A step of the sink keeps the invariant. -/
theorem sinkStep (hstep : s.SinkStep t) : t.Invariant before := by
  cases hstep with
  | receive event hphase hhand => exact h.receive event hphase hhand
  | record hhand => exact h.record hhand
  | publish hhand => exact h.publish hhand
  | offer hhand => exact h.offer hhand
  | close _ hhand => exact { h with closed := fun _ => hhand, returned := nofun }
  | finish hclosing hidle =>
    exact { h with closed := fun _ => h.closed (by simp [hclosing]), returned := fun _ => hidle }

theorem take {event : NotifyEvent} {rest : Queue NotifyEvent} (hdelivering : s.sink.delivering = true)
    (houtgoing : s.outgoing = none) (hnext : s.sink.pending.next? = some (event, rest)) :
    Invariant before { s with
      sink := { s.sink with pending := rest }
      outgoing := some event } := by
  obtain ⟨hentries, hcapacity⟩ := Queue.next?_eq_some.1 hnext
  have hsize := Queue.size_of_next? hnext
  have hroom := h.room
  have hqueued := h.queued hdelivering
  rw [houtgoing, hentries] at hqueued
  exact
    { h with
      capacity := hcapacity.symm.trans h.capacity
      room := by
        show rest.size ≤ deliveryRoom
        omega
      queued := by
        intro _
        exact hqueued
      inOrder := ⟨rest.entries, by simpa [dispatched] using hqueued⟩
      returned := by
        intro hreturned _
        rw [(h.returned hreturned hdelivering).1] at hentries
        cases hentries }

/-- What goes out is the first of what is on its way. -/
theorem dispatch (deliveries : List Delivery) {event : NotifyEvent}
    (hdelivering : s.sink.delivering = true) (houtgoing : s.outgoing = some event) :
    Invariant before { s with
      sink := { s.sink with dispatched := s.sink.dispatched ++ [(event, deliveries)] }
      outgoing := none } := by
  have hqueued := h.queued hdelivering
  have hinOrder := h.inOrder
  rw [houtgoing] at hqueued hinOrder
  exact
    { h with
      queued := by
        intro _
        rw [← hqueued]
        simp [dispatched]
      inOrder := by
        simpa [dispatched] using hinOrder
      returned := fun hreturned hdelivers => ⟨(h.returned hreturned hdelivers).1, rfl⟩ }

theorem deliveryStep (hstep : s.DeliveryStep t) : t.Invariant before := by
  cases hstep with
  | take hdelivering houtgoing hnext => exact h.take hdelivering houtgoing hnext
  | dispatch environment now hdelivering houtgoing => exact h.dispatch _ hdelivering houtgoing
  | breakDown _ =>
    exact { h with
      capacity := rfl
      room := Nat.zero_le _
      queued := nofun
      inOrder := by
        rw [Option.toList_none, List.append_nil]
        exact (List.prefix_append ..).trans h.inOrder
      returned := nofun }

/-- Every step keeps the invariant. -/
theorem step (hstep : s.Step t) : t.Invariant before := by
  cases hstep with
  | sink hstep => exact h.sinkStep hstep
  | delivery hstep => exact h.deliveryStep hstep
  | beside hstore => exact { h with stored := hstore.trans h.stored }

/-- A run keeps the invariant. -/
theorem run (hrun : s.Run t) : t.Invariant before := by
  induction hrun with
  | refl => exact h
  | tail _ hstep ih => exact ih.step hstep

/-- A store that refuses nothing has all that it was given. -/
theorem stored_of_all (hall : ∀ save ∈ s.saves, save.2 = true) :
    s.store.notifications ++ s.hand.unrecorded = before ++ s.received := by
  rw [h.stored, kept_eq_of_all hall, List.append_assoc, h.saved]

/-- What has gone out or is going out was received, in the same order. -/
theorem dispatched_sublist : (s.dispatched ++ s.outgoing.toList).Sublist s.received := by
  have hkept : (kept s.offers).Sublist s.received := by
    rw [← h.offered]
    exact (kept_sublist _).trans (List.sublist_append_left ..)
  exact h.inOrder.sublist.trans hkept

/-- A step skips one detection at most, and only where the queue is full or nobody delivers. -/
theorem skipped_of_step (hstep : s.Step t) :
    t.sink.skipped = s.sink.skipped ∨
      (∃ event, t.sink.skipped = s.sink.skipped ++ [event]) ∧
        (s.sink.pending.size = deliveryRoom ∨ s.sink.delivering = false) := by
  cases hstep with
  | sink hstep =>
    cases hstep with
    | @offer event _ =>
      cases htakes : s.sink.takes with
      | true =>
        left
        rw [Sink.offer_of_takes htakes]
      | false =>
        right
        rw [Sink.offer_of_not_takes htakes]
        exact ⟨⟨event, rfl⟩, h.full htakes⟩
    | _ => exact .inl rfl
  | delivery hstep => cases hstep <;> exact .inl rfl
  | beside _ => exact .inl rfl

/-- When the sink has returned and its delivery has not broken down, all that found a place has gone
out. -/
theorem of_returned (hreturned : s.phase = .returned) (hdelivering : s.sink.delivering = true) :
    s.dispatched = kept s.offers := by
  obtain ⟨hentries, houtgoing⟩ := h.returned hreturned hdelivering
  have hqueued := h.queued hdelivering
  rwa [hentries, houtgoing, Option.toList_none, List.append_nil, List.append_nil] at hqueued

end Invariant

/-! ## The whole run -/

/-- A sink publishes all detections that it takes, in order, and stores those of them that the store does
not refuse; delivery does not hold it up.  A detection is skipped only where the delivery has broken
down or 256 others wait for it, and what goes out was received in the same order.  When the sink has
returned, everything that was not skipped has gone out, unless the delivery has broken down. -/
theorem only_deliveries_are_skipped {store : Store} {dispatcher : Dispatcher}
    (hrun : (start store dispatcher).Run s) :
    (s.saves.map (·.1) ++ s.hand.unrecorded = s.received ∧
      s.store.notifications = store.notifications ++ kept s.saves ∧
      ((∀ save ∈ s.saves, save.2 = true) →
        s.store.notifications ++ s.hand.unrecorded = store.notifications ++ s.received)) ∧
    s.sink.published ++ s.hand.unpublished = s.received ∧
    (s.phase = .receiving → s.hand = .free → ∀ events, ∃ t, s.Alone t ∧ t.phase = .receiving ∧
      t.hand = .free ∧ t.received = s.received ++ events ∧ t.dispatched = s.dispatched) ∧
    (s.dispatched ++ s.outgoing.toList).Sublist s.received ∧
    (s.offers.map (·.1) ++ s.hand.unoffered = s.received ∧ s.sink.skipped = refused s.offers) ∧
    (∀ t, s.Step t → t.sink.skipped = s.sink.skipped ∨
      (∃ event, t.sink.skipped = s.sink.skipped ++ [event]) ∧
        (s.sink.pending.size = 256 ∨ s.sink.delivering = false)) ∧
    (s.phase = .returned → s.hand = .free ∧
      (s.sink.delivering = true → s.dispatched = kept s.offers)) := by
  have h := (invariant_start store dispatcher).run hrun
  refine ⟨⟨h.saved, h.stored, h.stored_of_all⟩, h.published, exists_alone, h.dispatched_sublist,
    ⟨h.offered, h.skipped⟩, fun t => h.skipped_of_step, ?_⟩
  intro hreturned
  refine ⟨h.closed ?_, h.of_returned hreturned⟩
  rw [hreturned]
  nofun

/-- A detection of a rule. -/
def alarm (ruleId : String) : NotifyEvent where
  id := ⟨0⟩
  time := ⟨0, 0⟩
  kind := .rule
  source := "dc-01"
  ruleId := ruleId
  level := .medium
  title := ruleId
  tags := []
  body := ""
  score := none

/-- The first of two detections goes out while the sink has the second one in hand; the second one goes
out when no more can come. -/
theorem only_deliveries_are_skipped_twoAlarms :
    ∃ s, (start .empty .empty).Run s ∧ s.phase = .returned ∧
      s.store.notifications = [alarm "login", alarm "logout"] ∧
      s.dispatched = [alarm "login", alarm "logout"] ∧ s.sink.skipped = [] := by
  have hrun : (start .empty .empty).Run (start .empty .empty) := .refl
  have hrun := hrun.tail (.sink (.receive (alarm "login") rfl rfl))
  have hrun := hrun.tail (.sink (.record rfl))
  have hrun := hrun.tail (.sink (.publish rfl))
  have hrun := hrun.tail (.sink (.offer rfl))
  have hrun := hrun.tail (.sink (.receive (alarm "logout") rfl rfl))
  have hrun := hrun.tail (.delivery (.take rfl rfl rfl))
  have hrun := hrun.tail (.sink (.record rfl))
  have hrun := hrun.tail (.sink (.publish rfl))
  have hrun := hrun.tail (.delivery (.dispatch (fun _ => none) "" rfl rfl))
  have hrun := hrun.tail (.sink (.offer rfl))
  have hrun := hrun.tail (.sink (.close rfl rfl))
  have hrun := hrun.tail (.delivery (.take rfl rfl rfl))
  have hrun := hrun.tail (.delivery (.dispatch (fun _ => none) "" rfl rfl))
  have hrun := hrun.tail (.sink (.finish rfl fun _ => ⟨rfl, rfl⟩))
  obtain ⟨⟨-, hstored, -⟩, -, -, -, ⟨-, hskipped⟩, -, hreturned⟩ := only_deliveries_are_skipped hrun
  exact ⟨_, hrun, rfl, hstored, (hreturned rfl).2 rfl, hskipped⟩

/-- A store that refuses notifications. -/
def refusing : Store :=
  { Store.empty with outages := [.saveNotify] }

/-- What such a store is given is published and goes out, but it is not stored. -/
theorem published_but_not_stored :
    ∃ s, (start refusing .empty).Run s ∧ s.phase = .returned ∧ s.sink.delivering = true ∧
      s.received = [alarm "login"] ∧ s.sink.published = [alarm "login"] ∧
      s.dispatched = [alarm "login"] ∧ s.store.notifications = [] := by
  have hrun : (start refusing .empty).Run (start refusing .empty) := .refl
  have hrun := hrun.tail (.sink (.receive (alarm "login") rfl rfl))
  have hrun := hrun.tail (.sink (.record rfl))
  have hrun := hrun.tail (.sink (.publish rfl))
  have hrun := hrun.tail (.sink (.offer rfl))
  have hrun := hrun.tail (.delivery (.take rfl rfl rfl))
  have hrun := hrun.tail (.delivery (.dispatch (fun _ => none) "" rfl rfl))
  have hrun := hrun.tail (.sink (.close rfl rfl))
  have hrun := hrun.tail (.sink (.finish rfl fun _ => ⟨rfl, rfl⟩))
  exact ⟨_, hrun, rfl, rfl, rfl, rfl, rfl, rfl⟩

end SinkRun

end LogWatch.Engine
