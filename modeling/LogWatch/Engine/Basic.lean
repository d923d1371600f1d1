import LogWatch.Engine.Detection
import LogWatch.Engine.Scoring
import LogWatch.Engine.Sink
import LogWatch.Report.Window
import LogWatch.Time.Timestamp

/-!
# The engine

The stages of the engine and the queues between them.  Records wait for detection, closed windows for
the scorer, detections for the sink, and those that are to be delivered for the channels.

* `Engine.detectNext?`, `Engine.scoreNext?`, `Engine.acceptNext?`, `Engine.deliverNext?` — a step of
  each stage, if there is work for it and room for what it makes;
* `Engine.settle` — steps until there is no more work; `Engine.step?_settle` says that none is left.
-/

namespace LogWatch

open Engine Intake Report Rule Anomaly Time

/-- The state of an engine. -/
structure Engine where
  /-- What the clock shows. -/
  now : Instant
  /-- Are records still taken? -/
  isOpen : Bool
  environment : Environment
  normalizer : Normalizer
  corpus : RuleCorpus
  windows : PerSource Window
  scorer : Scorer
  store : Store
  /-- The records that wait for detection. -/
  records : Queue LogRecord
  /-- What the scorer is asked for. -/
  requests : Queue ScoringRequest
  /-- The detections that wait for the sink. -/
  events : Queue NotifyEvent
  sink : Sink
  /-- How many detections there were. -/
  raised : Nat

namespace Engine

/-- The identifier of the next detection. -/
def nextId (e : Engine) : EventId :=
  ⟨BitVec.ofNat 128 e.raised⟩

/-- The engine with one more detection, if there is one. -/
def raise (e : Engine) : Option NotifyEvent → Engine
  | none => e
  | some event => { e with events := e.events.push event, raised := e.raised + 1 }

/-! ## Steps -/

/-- The next record is tried on the rules that are in use. -/
def detectNext? (e : Engine) : Option Engine :=
  if e.events.hasRoom then
    e.records.next?.map fun (record, rest) =>
      { e with records := rest }.raise (detect? e.normalizer e.corpus e.nextId record)
  else none

/-- The scorer after a request. -/
def score (e : Engine) : ScoringRequest → Engine
  | .observe source time vector =>
    match Scoring.observe e.store e.scorer source time vector with
    | (alert, scorer, store) =>
      { e with scorer := scorer, store := store }.raise
        (alert.map fun (x : AnomalyScore) => .anomaly e.nextId x.time source x.calibrated)
  | .clear source => { e with scorer := (Scoring.clear e.store e.scorer source).2 }

/-- The scorer takes the next request. -/
def scoreNext? (e : Engine) : Option Engine :=
  if e.events.hasRoom then
    e.requests.next?.map fun (request, rest) => { e with requests := rest }.score request
  else none

/-- The sink takes the next detection. -/
def acceptNext? (e : Engine) : Option Engine :=
  e.events.next?.map fun (event, rest) =>
    match e.sink.accept e.store event with
    | (store, sink) => { e with events := rest, store := store, sink := sink }

/-- The next detection is delivered. -/
def deliverNext? (e : Engine) : Option Engine :=
  (e.sink.deliverNext? e.environment e.now.toText).map fun sink => { e with sink := sink }

/-- A step of the last stage that can make one. -/
def step? (e : Engine) : Option Engine :=
  e.deliverNext?.or (e.acceptNext?.or (e.scoreNext?.or e.detectNext?))

/-! ## Until there is nothing to do -/

/-- How much there is to do: every record, request and detection counts with the steps that may come of
it. -/
def work (e : Engine) : Nat :=
  3 * e.records.size + 3 * e.requests.size + 2 * e.events.size + e.sink.pending.size

theorem work_raise_le (e : Engine) (event : Option NotifyEvent) :
    (e.raise event).work ≤ e.work + 2 := by
  cases event with
  | none => exact Nat.le_add_right _ 2
  | some event =>
    simp only [raise, work, Queue.size_push]
    omega

theorem work_score_le (e : Engine) (request : ScoringRequest) :
    (e.score request).work ≤ e.work + 2 := by
  cases request with
  | observe source time vector => exact work_raise_le _ _
  | clear source => exact Nat.le_add_right _ 2

theorem work_of_detectNext? {e f : Engine} (h : e.detectNext? = some f) : f.work < e.work := by
  unfold detectNext? at h
  split at h
  · obtain ⟨⟨record, rest⟩, hn, rfl⟩ := Option.map_eq_some_iff.1 h
    have hs := Queue.size_of_next? hn
    have hr := work_raise_le { e with records := rest }
      (detect? e.normalizer e.corpus e.nextId record)
    simp only [work] at hr ⊢
    omega
  · cases h

theorem work_of_scoreNext? {e f : Engine} (h : e.scoreNext? = some f) : f.work < e.work := by
  unfold scoreNext? at h
  split at h
  · obtain ⟨⟨request, rest⟩, hn, rfl⟩ := Option.map_eq_some_iff.1 h
    have hs := Queue.size_of_next? hn
    have hr := work_score_le { e with requests := rest } request
    simp only [work] at hr ⊢
    omega
  · cases h

theorem work_of_acceptNext? {e f : Engine} (h : e.acceptNext? = some f) : f.work < e.work := by
  unfold acceptNext? at h
  obtain ⟨⟨event, rest⟩, hn, rfl⟩ := Option.map_eq_some_iff.1 h
  have hs := Queue.size_of_next? hn
  have hp := Sink.pending_size_offer_le (e.sink.publish event) event
  simp only [work, Sink.accept, Sink.publish] at hp ⊢
  omega

theorem work_of_deliverNext? {e f : Engine} (h : e.deliverNext? = some f) : f.work < e.work := by
  unfold deliverNext? at h
  obtain ⟨sink, hn, rfl⟩ := Option.map_eq_some_iff.1 h
  have hp := Sink.pending_size_of_deliverNext? hn
  simp only [work]
  omega

/-- Every step leaves less to do. -/
theorem work_of_step? {e f : Engine} (h : e.step? = some f) : f.work < e.work := by
  simp only [step?, Option.or_eq_some_iff] at h
  rcases h with h | ⟨-, h | ⟨-, h | ⟨-, h⟩⟩⟩
  · exact work_of_deliverNext? h
  · exact work_of_acceptNext? h
  · exact work_of_scoreNext? h
  · exact work_of_detectNext? h

/-- At most so many steps. -/
def run : Nat → Engine → Engine
  | 0, e => e
  | n + 1, e =>
    match e.step? with
    | some next => run n next
    | none => e

/-- The engine when there is nothing more to do. -/
def settle (e : Engine) : Engine :=
  run e.work e

/-- As many steps as there is work leave no step to be made. -/
theorem step?_run {n : Nat} {e : Engine} (h : e.work ≤ n) : (run n e).step? = none := by
  induction n generalizing e with
  | zero =>
    cases hs : e.step? with
    | none => exact hs
    | some f => exact absurd (work_of_step? hs) (by omega)
  | succ n ih =>
    unfold run
    split
    · rename_i next hs
      exact ih (by have := work_of_step? hs; omega)
    · assumption

/-- A settled engine has no step left. -/
theorem step?_settle (e : Engine) : e.settle.step? = none :=
  step?_run (Nat.le_refl _)

end Engine

end LogWatch
