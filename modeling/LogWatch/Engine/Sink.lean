import LogWatch.Alert.Dispatcher
import LogWatch.Engine.Queue
import LogWatch.Report.Store

/-!
# The sink

Every detection ends here: it is stored, published, and queued for delivery.  Delivery may be slow, so
it has a queue of its own; a detection that finds this queue full is not delivered, but it is stored
and published all the same.

* `Sink.accept` — a detection is stored, published and queued;
* `Sink.deliverNext?` — the next queued detection goes out on every channel.
-/

namespace LogWatch.Engine

open Alert

/-- How many detections may wait for delivery. -/
def deliveryRoom : Nat :=
  256

/-- What has become of the detections. -/
structure Sink where
  dispatcher : Dispatcher
  /-- Is there still someone who delivers? -/
  delivering : Bool
  /-- The detections that wait for delivery. -/
  pending : Queue NotifyEvent
  /-- The detections that were published, in order. -/
  published : List NotifyEvent
  /-- The detections that found no place for delivery. -/
  skipped : List NotifyEvent
  /-- The detections that went out, and what came of it on each channel. -/
  dispatched : List (NotifyEvent × List Delivery)

namespace Sink

/-- A sink that has seen nothing. -/
def start (dispatcher : Dispatcher) : Sink :=
  ⟨dispatcher, true, .empty deliveryRoom, [], [], []⟩

/-- The store with a detection; if it cannot be stored, the store as it was. -/
def record (store : Store) (event : NotifyEvent) : Store :=
  match store.saveNotify event with
  | .ok store => store
  | .error _ => store

/-- A detection queued for delivery, or skipped if there is no place for it. -/
def offer (s : Sink) (event : NotifyEvent) : Sink :=
  if s.delivering && s.pending.hasRoom then { s with pending := s.pending.push event }
  else { s with skipped := s.skipped ++ [event] }

/-- A detection published. -/
def publish (s : Sink) (event : NotifyEvent) : Sink :=
  { s with published := s.published ++ [event] }

/-- A detection stored, published and queued for delivery. -/
def accept (store : Store) (s : Sink) (event : NotifyEvent) : Store × Sink :=
  (record store event, (s.publish event).offer event)

/-- The next queued detection goes out. -/
def deliverNext? (environment : String → Option String) (now : String) (s : Sink) : Option Sink :=
  if s.delivering then
    s.pending.next?.map fun (event, rest) =>
      { s with
        pending := rest
        dispatched := s.dispatched ++ [(event, s.dispatcher.dispatch environment now event)] }
  else none

/-- The detections that went out are delivered one by one. -/
def deliveries (s : Sink) : List Delivery :=
  s.dispatched.flatMap (·.2)

/-- A queued detection takes at most one place. -/
theorem pending_size_offer_le (s : Sink) (event : NotifyEvent) :
    (s.offer event).pending.size ≤ s.pending.size + 1 := by
  unfold offer
  split <;> simp

/-- A detection that goes out leaves the queue. -/
theorem pending_size_of_deliverNext? {environment : String → Option String} {now : String}
    {s t : Sink} (h : s.deliverNext? environment now = some t) :
    t.pending.size < s.pending.size := by
  unfold deliverNext? at h
  split at h
  · obtain ⟨⟨event, rest⟩, hn, rfl⟩ := Option.map_eq_some_iff.1 h
    have := Queue.size_of_next? hn
    simp only
    omega
  · cases h

end Sink

end LogWatch.Engine
