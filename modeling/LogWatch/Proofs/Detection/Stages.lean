import LogWatch.Engine.Control
import LogWatch.Proofs.Outcome
import Mathlib.Logic.Relation

/-!
# Detection while an engine runs and shuts down

The stages of an engine work side by side.  Callers submit records and wait for room, the worker takes
the records one by one and tries them on the rules that are in use, the sink stores what it is sent, and
the rules are replaced at any time.  Shutting down is a matter of several steps, between which all this
goes on.

* `Stages`, `Stages.Step` — the steps of callers, worker, sink, scorer and control, in any order;
* `Stages.Invariant` — where the records and the detections are;
* `Stages.Invariant.progress` — an engine that is not finished can make a step towards the end;
* `Stages.shutdown_stores_detections` — once it is finished, the store holds the detections of all
  records that were submitted, in order.
-/

namespace LogWatch.Engine

open Intake Rule

/-! ## Stages -/

/-- The detections of rules among some detections. -/
def ruleEvents (events : List NotifyEvent) : List NotifyEvent :=
  events.filter fun event => event.kind = .rule

/-- A record that the worker has tried, the rules that were in use then, and the identifier that it drew
for a detection. -/
structure Trial where
  record : LogRecord
  corpus : RuleCorpus
  id : EventId

/-- What has come of a trial. -/
def Trial.detection? (normalizer : Normalizer) (x : Trial) : Option NotifyEvent :=
  detect? normalizer x.corpus x.id x.record

/-- What the worker has in hand. -/
inductive Hand where
  | free
  /-- A record that has left the queue. -/
  | record (r : LogRecord)
  /-- A detection that waits for room. -/
  | detection (d : NotifyEvent)

namespace Hand

/-- The hand after a trial. -/
def ofDetection : Option NotifyEvent → Hand
  | none => .free
  | some d => .detection d

/-- The record in hand that has not been tried yet. -/
def records : Hand → List LogRecord
  | .record r => [r]
  | _ => []

/-- The detection in hand. -/
def events : Hand → List NotifyEvent
  | .detection d => [d]
  | _ => []

end Hand

/-- How far the worker is. -/
inductive Phase where
  /-- Records are taken as they come. -/
  | taking
  /-- The queue takes no more records; those that it still holds are taken. -/
  | draining
  | stopped
deriving DecidableEq

/-- An engine whose stages work side by side. -/
structure Stages where
  engine : Engine
  /-- The records of the calls that have been let in and wait for room. -/
  calls : List LogRecord
  /-- May there be more calls? -/
  callers : Bool
  worker : Phase
  hand : Hand
  /-- Does the scorer still run? -/
  scoring : Bool
  /-- Does the sink still run? -/
  sinking : Bool
  /-- The records of the calls that have succeeded, in order. -/
  submitted : List LogRecord
  /-- What the worker has tried, in order. -/
  trials : List Trial

/-- What windows, scorer and delivery do to an engine leaves detection and notifications alone. -/
structure Beside (e f : Engine) : Prop where
  isOpen : f.isOpen = e.isOpen
  normalizer : f.normalizer = e.normalizer
  corpus : f.corpus = e.corpus
  records : f.records = e.records
  events : f.events = e.events
  notifications : f.store.notifications = e.store.notifications
  available : f.store.available .saveNotify = e.store.available .saveNotify

theorem Beside.refl (e : Engine) : e.Beside e :=
  ⟨rfl, rfl, rfl, rfl, rfl, rfl, rfl⟩

namespace Stages

/-- What can happen next. -/
inductive Step (s : Stages) : Stages → Prop
  /-- A call finds the engine open. -/
  | call {r : LogRecord} : s.engine.isOpen = true → s.callers = true →
      r.sourceType.isDetectable = true → Step s { s with calls := s.calls ++ [r] }
  /-- There is room for the record of a call, and the call succeeds. -/
  | queue {before after : List LogRecord} {r : LogRecord} : s.calls = before ++ r :: after →
      s.worker = .taking → s.engine.records.hasRoom = true →
      Step s { s with
        engine := { s.engine with records := s.engine.records.push r }
        calls := before ++ after
        submitted := s.submitted ++ [r] }
  /-- A call fails: it is turned away by a stage that closes, or its caller gives up. -/
  | fail {before after : List LogRecord} {r : LogRecord} : s.calls = before ++ r :: after →
      Step s { s with calls := before ++ after }
  /-- The worker takes the next record. -/
  | take {r : LogRecord} {rest : Queue LogRecord} : s.worker ≠ .stopped → s.hand = .free →
      s.engine.records.next? = some (r, rest) →
      Step s { s with engine := { s.engine with records := rest }, hand := .record r }
  /-- The worker tries its record on the rules in use, and draws an identifier for the detection. -/
  | evaluate (id : EventId) {r : LogRecord} : s.hand = .record r →
      Step s { s with
        hand := .ofDetection (detect? s.engine.normalizer s.engine.corpus id r)
        trials := s.trials ++ [⟨r, s.engine.corpus, id⟩] }
  /-- There is room for the detection of the worker. -/
  | send {event : NotifyEvent} : s.hand = .detection event → s.engine.events.hasRoom = true →
      Step s { s with engine := s.engine.raise (some event), hand := .free }
  /-- The rules are replaced, if they can be loaded. -/
  | reload (repository : Repository) : Step s { s with engine := (s.engine.reload repository).2 }
  /-- There is room for an alert of the scorer. -/
  | alert {event : NotifyEvent} : s.scoring = true → event.kind ≠ .rule →
      s.engine.events.hasRoom = true → Step s { s with engine := s.engine.raise (some event) }
  /-- Another stage does its work. -/
  | beside {f : Engine} : s.engine.Beside f → Step s { s with engine := f }
  /-- The sink takes the next detection. -/
  | accept {f : Engine} : s.sinking = true → s.engine.acceptNext? = some f →
      Step s { s with engine := f }
  /-- The engine is told to shut down. -/
  | signal : Step s { s with engine := { s.engine with isOpen := false } }
  /-- The last caller is gone. -/
  | release : s.engine.isOpen = false → s.calls = [] → Step s { s with callers := false }
  /-- The worker learns that the engine shuts down: the queue takes no more records, and keeps those that
  it holds. -/
  | close : s.engine.isOpen = false → s.worker = .taking → s.hand = .free →
      Step s { s with worker := .draining }
  /-- The worker finds its queue empty, and no record can come any more. -/
  | stop : s.hand = .free → s.engine.records.entries = [] →
      s.worker = .draining ∨ s.worker = .taking ∧ s.callers = false →
      Step s { s with worker := .stopped }
  | stopScorer : s.engine.isOpen = false → Step s { s with scoring := false }
  /-- The sink finds its queue empty, and no detection can come any more. -/
  | stopSink : s.worker = .stopped → s.scoring = false → s.engine.events.entries = [] →
      Step s { s with sinking := false }

/-- Steps one after the other. -/
abbrev Run : Stages → Stages → Prop :=
  Relation.ReflTransGen Step

/-- The stages of an engine when it starts. -/
def start (e : Engine) : Stages where
  engine := e
  calls := []
  callers := true
  worker := .taking
  hand := .free
  scoring := true
  sinking := true
  submitted := []
  trials := []

/-- Shutting down is over: all stages have stopped. -/
structure Finished (s : Stages) : Prop where
  callers : s.callers = false
  worker : s.worker = .stopped
  scoring : s.scoring = false
  sinking : s.sinking = false

/-- The detections on their way, those that are stored in front. -/
def onTheirWay (s : Stages) : List NotifyEvent :=
  s.engine.store.notifications ++ (s.engine.events.entries ++ s.hand.events)

end Stages

/-! ## Detections of rules -/

theorem ruleEvents_append (xs ys : List NotifyEvent) :
    ruleEvents (xs ++ ys) = ruleEvents xs ++ ruleEvents ys :=
  List.filter_append ..

theorem ruleEvents_cons_of_kind_ne {event : NotifyEvent} (h : event.kind ≠ .rule)
    (xs : List NotifyEvent) : ruleEvents (event :: xs) = ruleEvents xs :=
  List.filter_cons_of_neg (by simpa using h)

/-- What the worker detects is a detection of a rule. -/
theorem ruleEvents_detection (normalizer : Normalizer) (x : Trial) :
    ruleEvents (x.detection? normalizer).toList = (x.detection? normalizer).toList := by
  rw [Trial.detection?, detect?]
  cases matchedRule? normalizer x.corpus x.record <;> rfl

theorem filterMap_detection_singleton (normalizer : Normalizer) (x : Trial) :
    [x].filterMap (Trial.detection? normalizer) = (x.detection? normalizer).toList := by
  rw [List.filterMap_cons]
  cases x.detection? normalizer <;> rfl

theorem Hand.events_record (r : LogRecord) : (Hand.record r).events = [] :=
  rfl

theorem Hand.records_ofDetection (d : Option NotifyEvent) : (Hand.ofDetection d).records = [] := by
  cases d <;> rfl

theorem Hand.events_ofDetection (d : Option NotifyEvent) : (Hand.ofDetection d).events = d.toList := by
  cases d <;> rfl

namespace Stages.Step

/-- The worker detects something. -/
theorem detect {s : Stages} (id : EventId) {r : LogRecord} {d : NotifyEvent}
    (hhand : s.hand = .record r)
    (hd : detect? s.engine.normalizer s.engine.corpus id r = some d) :
    Step s { s with hand := .detection d, trials := s.trials ++ [⟨r, s.engine.corpus, id⟩] } := by
  have hstep := Step.evaluate id hhand
  rwa [hd] at hstep

/-- The worker detects nothing. -/
theorem pass {s : Stages} (id : EventId) {r : LogRecord} (hhand : s.hand = .record r)
    (hnone : detect? s.engine.normalizer s.engine.corpus id r = none) :
    Step s { s with hand := .free, trials := s.trials ++ [⟨r, s.engine.corpus, id⟩] } := by
  have hstep := Step.evaluate id hhand
  rwa [hnone] at hstep

end Stages.Step

/-- What the sink does to an engine. -/
theorem acceptNext?_eq_some {e f : Engine} :
    e.acceptNext? = some f ↔ ∃ event rest, e.events.next? = some (event, rest) ∧
      f = { e with
        events := rest
        store := Sink.record e.store event
        sink := (e.sink.publish event).offer event } := by
  rw [acceptNext?, Option.map_eq_some_iff]
  constructor
  · rintro ⟨⟨event, rest⟩, hnext, rfl⟩
    exact ⟨event, rest, hnext, rfl⟩
  · rintro ⟨event, rest, hnext, rfl⟩
    exact ⟨(event, rest), hnext, rfl⟩

/-- A store that can take notifications takes the one that the sink gives it, and can take more. -/
theorem Sink.record_of_available {store : Store} (h : store.available .saveNotify = .ok ())
    (event : NotifyEvent) :
    (Sink.record store event).notifications = store.notifications ++ [event] ∧
      (Sink.record store event).available .saveNotify = .ok () := by
  rw [Sink.record, Store.saveNotify, h]
  exact ⟨rfl, h⟩

/-! ## The invariant -/

namespace Stages

/-- What holds of stages that came about from an engine. -/
structure Invariant (e : Engine) (s : Stages) : Prop where
  normalizer : s.engine.normalizer = e.normalizer
  available : s.engine.store.available .saveNotify = .ok ()
  /-- Every record has been tried, or is in hand, or waits. -/
  records : e.records.entries ++ s.submitted =
    s.trials.map (·.record) ++ (s.hand.records ++ s.engine.records.entries)
  /-- Every detection is stored or on its way. -/
  events : ruleEvents s.onTheirWay = ruleEvents (e.store.notifications ++ e.events.entries) ++
    s.trials.filterMap (Trial.detection? e.normalizer)
  stopped : s.worker = .stopped → s.hand = .free ∧ s.engine.records.entries = []
  released : s.callers = false → s.calls = []
  sunk : s.sinking = false →
    s.worker = .stopped ∧ s.scoring = false ∧ s.engine.events.entries = []

theorem invariant_start {e : Engine} (h : e.store.available .saveNotify = .ok ()) :
    (start e).Invariant e where
  normalizer := rfl
  available := h
  records := List.append_nil _
  events := by simp [onTheirWay, start, Hand.events]
  stopped := nofun
  released := fun _ => rfl
  sunk := nofun

variable {e : Engine} {s : Stages}

namespace Invariant

variable (h : s.Invariant e)

include h

theorem call {r : LogRecord} (hcallers : s.callers = true) :
    Invariant e { s with calls := s.calls ++ [r] } :=
  { h with
    released := by
      intro hgone
      rw [hcallers] at hgone
      cases hgone }

theorem fail {before after : List LogRecord} {r : LogRecord}
    (hcalls : s.calls = before ++ r :: after) : Invariant e { s with calls := before ++ after } :=
  { h with
    released := by
      intro hgone
      rw [h.released hgone] at hcalls
      simp at hcalls }

/-- The record of a call that succeeds is the last one that waits. -/
theorem queue {before after : List LogRecord} {r : LogRecord} (hcalls : s.calls = before ++ r :: after)
    (hworker : s.worker = .taking) :
    Invariant e { s with
      engine := { s.engine with records := s.engine.records.push r }
      calls := before ++ after
      submitted := s.submitted ++ [r] } :=
  { h with
    records := by
      show e.records.entries ++ (s.submitted ++ [r]) =
        s.trials.map (·.record) ++ (s.hand.records ++ (s.engine.records.entries ++ [r]))
      rw [← List.append_assoc, h.records]
      simp only [List.append_assoc]
    stopped := by
      intro hstopped
      rw [hworker] at hstopped
      cases hstopped
    released := (h.fail hcalls).released }

theorem take {r : LogRecord} {rest : Queue LogRecord} (hworker : s.worker ≠ .stopped)
    (hhand : s.hand = .free) (hnext : s.engine.records.next? = some (r, rest)) :
    Invariant e { s with engine := { s.engine with records := rest }, hand := .record r } :=
  { h with
    records := by
      have hrecords := h.records
      rw [hhand, (Queue.next?_eq_some.1 hnext).1] at hrecords
      exact hrecords
    events := by
      have hevents := h.events
      rw [onTheirWay, hhand] at hevents
      exact hevents
    stopped := fun hstopped => absurd hstopped hworker }

/-- What the worker has detected goes behind all that is on its way. -/
theorem evaluate (id : EventId) {r : LogRecord} (hhand : s.hand = .record r) :
    Invariant e { s with
      hand := .ofDetection (detect? s.engine.normalizer s.engine.corpus id r)
      trials := s.trials ++ [⟨r, s.engine.corpus, id⟩] } :=
  { h with
    records := by
      have hrecords := h.records
      rw [hhand] at hrecords
      rw [Hand.records_ofDetection, List.map_append, hrecords, List.append_assoc]
      rfl
    events := by
      have hevents := h.events
      rw [onTheirWay, hhand, Hand.events_record, List.append_nil] at hevents
      have hdetection := ruleEvents_detection e.normalizer ⟨r, s.engine.corpus, id⟩
      rw [onTheirWay, Hand.events_ofDetection, h.normalizer, ← List.append_assoc, ruleEvents_append,
        hevents, List.filterMap_append, List.append_assoc, filterMap_detection_singleton]
      exact congrArg _ (congrArg _ hdetection)
    stopped := by
      intro hstopped
      rw [(h.stopped hstopped).1] at hhand
      cases hhand }

theorem send {event : NotifyEvent} (hhand : s.hand = .detection event) :
    Invariant e { s with engine := s.engine.raise (some event), hand := .free } :=
  { h with
    records := by
      have hrecords := h.records
      rw [hhand] at hrecords
      exact hrecords
    events := by
      have hevents := h.events
      rw [onTheirWay, hhand] at hevents
      show ruleEvents (s.engine.store.notifications ++
        ((s.engine.events.entries ++ [event]) ++ [])) = _
      rw [List.append_nil]
      exact hevents
    stopped := by
      intro hstopped
      rw [(h.stopped hstopped).1] at hhand
      cases hhand
    sunk := by
      intro hsunk
      rw [(h.stopped (h.sunk hsunk).1).1] at hhand
      cases hhand }

/-- An alert does not come between the detections of rules. -/
theorem alert {event : NotifyEvent} (hscoring : s.scoring = true) (hkind : event.kind ≠ .rule) :
    Invariant e { s with engine := s.engine.raise (some event) } :=
  { h with
    events := by
      rw [← h.events]
      show ruleEvents (s.engine.store.notifications ++
        ((s.engine.events.entries ++ [event]) ++ s.hand.events)) = _
      rw [List.append_assoc, List.singleton_append, onTheirWay]
      simp only [ruleEvents_append, ruleEvents_cons_of_kind_ne hkind]
    sunk := by
      intro hsunk
      rw [(h.sunk hsunk).2.1] at hscoring
      cases hscoring }

theorem beside {f : Engine} (hbeside : s.engine.Beside f) : Invariant e { s with engine := f } where
  normalizer := hbeside.normalizer.trans h.normalizer
  available := hbeside.available.trans h.available
  records := by
    rw [hbeside.records]
    exact h.records
  events := by
    rw [onTheirWay, hbeside.notifications, hbeside.events]
    exact h.events
  stopped := by
    rw [hbeside.records]
    exact h.stopped
  released := h.released
  sunk := by
    rw [hbeside.events]
    exact h.sunk

/-- The first detection that is on its way is stored behind all others. -/
theorem accept {f : Engine} (hsinking : s.sinking = true) (haccept : s.engine.acceptNext? = some f) :
    Invariant e { s with engine := f } := by
  obtain ⟨event, rest, hnext, rfl⟩ := acceptNext?_eq_some.1 haccept
  obtain ⟨hentries, -⟩ := Queue.next?_eq_some.1 hnext
  obtain ⟨hnotifications, havailable⟩ := Sink.record_of_available h.available event
  exact
    { h with
      available := havailable
      events := by
        rw [← h.events, onTheirWay, onTheirWay, hentries, hnotifications, List.append_assoc]
        rfl
      sunk := by
        intro hsunk
        rw [hsinking] at hsunk
        cases hsunk }

/-- Every step keeps the invariant. -/
theorem step {t : Stages} (hstep : s.Step t) : t.Invariant e := by
  cases hstep with
  | call _ hcallers _ => exact h.call hcallers
  | queue hcalls hworker _ => exact h.queue hcalls hworker
  | fail hcalls => exact h.fail hcalls
  | take hworker hhand hnext => exact h.take hworker hhand hnext
  | evaluate id hhand => exact h.evaluate id hhand
  | send hhand _ => exact h.send hhand
  | reload repository => exact { h with }
  | alert hscoring hkind _ => exact h.alert hscoring hkind
  | beside hbeside => exact h.beside hbeside
  | accept hsinking haccept => exact h.accept hsinking haccept
  | signal => exact { h with }
  | release _ hcalls => exact { h with released := fun _ => hcalls }
  | close _ hworker hhand =>
    refine { h with stopped := nofun, sunk := ?_ }
    intro hsunk
    rw [(h.sunk hsunk).1] at hworker
    cases hworker
  | stop hhand hrecords _ =>
    exact { h with
      stopped := fun _ => ⟨hhand, hrecords⟩
      sunk := fun hsunk => ⟨rfl, (h.sunk hsunk).2⟩ }
  | stopScorer _ =>
    exact { h with sunk := fun hsunk => ⟨(h.sunk hsunk).1, rfl, (h.sunk hsunk).2.2⟩ }
  | stopSink hworker hscoring hevents =>
    exact { h with sunk := fun _ => ⟨hworker, hscoring, hevents⟩ }

/-- A run keeps the invariant. -/
theorem run {t : Stages} (hrun : s.Run t) : t.Invariant e := by
  induction hrun with
  | refl => exact h
  | tail _ hstep ih => exact ih.step hstep

/-- When all stages have stopped, every record has been tried and every detection is stored. -/
theorem of_finished (hfinished : s.Finished) :
    s.trials.map (·.record) = e.records.entries ++ s.submitted ∧
      ruleEvents s.engine.store.notifications =
        ruleEvents (e.store.notifications ++ e.events.entries) ++
          s.trials.filterMap (Trial.detection? e.normalizer) := by
  obtain ⟨hfree, hrecords⟩ := h.stopped hfinished.worker
  obtain ⟨-, -, hevents⟩ := h.sunk hfinished.sinking
  have hall := h.records
  have hstored := h.events
  rw [hfree, hrecords] at hall
  rw [onTheirWay, hfree, hevents] at hstored
  refine ⟨?_, ?_⟩
  · rw [hall]
    exact (List.append_nil _).symm
  · rw [← hstored]
    exact congrArg ruleEvents (List.append_nil _).symm

end Invariant

end Stages

/-! ## Towards the end -/

/-- The steps that are left until the worker has stopped, apart from its records. -/
def Phase.load : Phase → Nat
  | .taking => 2
  | .draining => 1
  | .stopped => 0

/-- The steps that may come of what the worker has in hand. -/
def Hand.load : Hand → Nat
  | .free => 0
  | .record _ => 3
  | .detection _ => 2

theorem Hand.load_ofDetection_le (d : Option NotifyEvent) : (Hand.ofDetection d).load ≤ 2 := by
  cases d with
  | none => exact Nat.zero_le 2
  | some d => exact Nat.le_refl 2

theorem Queue.hasRoom_of_entries_eq_nil {α : Type} {q : Queue α} (h : q.entries = [])
    (hcapacity : 0 < q.capacity) : q.hasRoom = true := by
  rw [hasRoom, size, h]
  exact decide_eq_true hcapacity

theorem Queue.exists_next? {α : Type} {q : Queue α} (h : q.entries ≠ []) :
    ∃ a rest, q.next? = some (a, rest) := by
  cases hnext : q.next? with
  | none => exact absurd (next?_eq_none.1 hnext) h
  | some p => exact ⟨p.1, p.2, rfl⟩

namespace Stages

/-- The steps that may be left until all stages have stopped. -/
def load (s : Stages) : Nat :=
  s.engine.isOpen.toNat + s.scoring.toNat + s.calls.length + s.callers.toNat + s.engine.events.size +
    s.hand.load + 4 * s.engine.records.size + s.worker.load + s.sinking.toNat

section Progress

variable {e : Engine} {s : Stages}

theorem Invariant.exists_accept (h : s.Invariant e) (hevents : s.engine.events.entries ≠ []) :
    ∃ t, s.Step t ∧ t.load < s.load := by
  obtain ⟨event, rest, hnext⟩ := Queue.exists_next? hevents
  have hsinking : s.sinking = true :=
    eq_true_of_ne_false fun hsunk => hevents (h.sunk hsunk).2.2
  refine ⟨_, .accept hsinking (acceptNext?_eq_some.2 ⟨event, rest, hnext, rfl⟩), ?_⟩
  have hsize := Queue.size_of_next? hnext
  simp only [load]
  omega

/-- The worker goes on if there is room for its detection. -/
theorem exists_worker_step (hopen : s.engine.isOpen = false) (hworker : s.worker ≠ .stopped)
    (hroom : s.engine.events.hasRoom = true) : ∃ t, s.Step t ∧ t.load < s.load := by
  cases hhand : s.hand with
  | record r =>
    refine ⟨_, .evaluate ⟨0⟩ hhand, ?_⟩
    have hnew := Hand.load_ofDetection_le (detect? s.engine.normalizer s.engine.corpus ⟨0⟩ r)
    have hold : (Hand.record r).load = 3 := rfl
    simp only [load, hhand]
    omega
  | detection d =>
    refine ⟨_, .send hhand hroom, ?_⟩
    simp only [load, hhand, Hand.load, raise, Queue.size_push]
    omega
  | free =>
    cases hphase : s.worker with
    | stopped => exact absurd hphase hworker
    | taking =>
      refine ⟨_, .close hopen hphase hhand, ?_⟩
      simp only [load, hphase, Phase.load]
      omega
    | draining =>
      by_cases hrecords : s.engine.records.entries = []
      · refine ⟨_, .stop hhand hrecords (Or.inl hphase), ?_⟩
        simp only [load, hphase, Phase.load]
        omega
      · obtain ⟨r, rest, hnext⟩ := Queue.exists_next? hrecords
        refine ⟨_, .take hworker hhand hnext, ?_⟩
        have hsize := Queue.size_of_next? hnext
        simp only [load, hhand, Hand.load]
        omega

/-- Unless all stages have stopped there is a step that brings this nearer. -/
theorem Invariant.progress (h : s.Invariant e) (hplaces : 0 < s.engine.events.capacity)
    (hnot : ¬ s.Finished) : ∃ t, s.Step t ∧ t.load < s.load := by
  by_cases hopen : s.engine.isOpen = true
  · refine ⟨_, .signal, ?_⟩
    simp only [load, hopen, Bool.toNat_true, Bool.toNat_false]
    omega
  rw [Bool.not_eq_true] at hopen
  by_cases hscoring : s.scoring = true
  · refine ⟨_, .stopScorer hopen, ?_⟩
    simp only [load, hscoring, Bool.toNat_true, Bool.toNat_false]
    omega
  rw [Bool.not_eq_true] at hscoring
  cases hcalls : s.calls with
  | cons r after =>
    have hfirst : s.calls = [] ++ r :: after := hcalls
    refine ⟨_, .fail hfirst, ?_⟩
    simp only [load, hcalls, List.nil_append, List.length_cons]
    omega
  | nil =>
    by_cases hcallers : s.callers = true
    · refine ⟨_, .release hopen hcalls, ?_⟩
      simp only [load, hcallers, Bool.toNat_true, Bool.toNat_false]
      omega
    rw [Bool.not_eq_true] at hcallers
    by_cases hevents : s.engine.events.entries = []
    · by_cases hworker : s.worker = .stopped
      · by_cases hsinking : s.sinking = true
        · refine ⟨_, .stopSink hworker hscoring hevents, ?_⟩
          simp only [load, hsinking, Bool.toNat_true, Bool.toNat_false]
          omega
        · rw [Bool.not_eq_true] at hsinking
          exact absurd ⟨hcallers, hworker, hscoring, hsinking⟩ hnot
      · have hroom := Queue.hasRoom_of_entries_eq_nil hevents hplaces
        exact exists_worker_step hopen hworker hroom
    · exact h.exists_accept hevents

/-- No step gives a queue more places. -/
theorem Step.capacity {t : Stages} (hstep : s.Step t) :
    t.engine.records.capacity = s.engine.records.capacity ∧
      t.engine.events.capacity = s.engine.events.capacity := by
  cases hstep with
  | take _ _ hnext => exact ⟨(Queue.next?_eq_some.1 hnext).2.symm, rfl⟩
  | beside hbeside =>
    exact ⟨congrArg Queue.capacity hbeside.records, congrArg Queue.capacity hbeside.events⟩
  | accept _ haccept =>
    obtain ⟨event, rest, hnext, rfl⟩ := acceptNext?_eq_some.1 haccept
    exact ⟨rfl, (Queue.next?_eq_some.1 hnext).2.symm⟩
  | _ => exact ⟨rfl, rfl⟩

theorem Run.capacity {t : Stages} (hrun : s.Run t) :
    t.engine.records.capacity = s.engine.records.capacity ∧
      t.engine.events.capacity = s.engine.events.capacity := by
  induction hrun with
  | refl => exact ⟨rfl, rfl⟩
  | tail _ hstep ih => exact ⟨hstep.capacity.1.trans ih.1, hstep.capacity.2.trans ih.2⟩

/-- From wherever the stages have come to, they can come to their end. -/
theorem Invariant.exists_finished (h : s.Invariant e) (hplaces : 0 < s.engine.events.capacity) :
    ∃ t, s.Run t ∧ t.Finished := by
  induction hload : s.load using Nat.strongRecOn generalizing s with
  | ind n ih =>
    by_cases hfinished : s.Finished
    · exact ⟨s, .refl, hfinished⟩
    · obtain ⟨t, hstep, hless⟩ := h.progress hplaces hfinished
      have hplaces' : 0 < t.engine.events.capacity := hstep.capacity.2 ▸ hplaces
      obtain ⟨u, hrun, hu⟩ := ih t.load (hload ▸ hless) (h.step hstep) hplaces' rfl
      exact ⟨u, .head hstep hrun, hu⟩

end Progress

/-! ## The moment of a trial -/

/-- A step leaves the trials as they are, or the worker tries the record in its hand on the rules that
are in use. -/
theorem Step.trials {s t : Stages} (hstep : s.Step t) :
    t.trials = s.trials ∨ ∃ x, s.hand = .record x.record ∧ s.engine.corpus = x.corpus ∧
      t.trials = s.trials ++ [x] := by
  cases hstep with
  | evaluate id hhand => exact Or.inr ⟨_, hhand, rfl, rfl⟩
  | _ => exact Or.inl rfl

/-- Every trial has its moment in the run. -/
theorem exists_moment {e : Engine} {s : Stages} (hrun : (start e).Run s) {before after : List Trial}
    {x : Trial} (hx : s.trials = before ++ x :: after) :
    ∃ t u, (start e).Run t ∧ t.Step u ∧ u.Run s ∧ t.hand = .record x.record ∧
      t.engine.corpus = x.corpus ∧ t.trials = before ∧ u.trials = before ++ [x] := by
  induction hrun generalizing after with
  | refl => simp [start] at hx
  | @tail s s' hrun hstep ih =>
    have hlater : ∀ {after : List Trial}, s.trials = before ++ x :: after →
        ∃ t u, (start e).Run t ∧ t.Step u ∧ u.Run s' ∧ t.hand = .record x.record ∧
          t.engine.corpus = x.corpus ∧ t.trials = before ∧ u.trials = before ++ [x] := by
      intro after hbefore
      obtain ⟨t, u, ht, htu, hu, hmoment⟩ := ih hbefore
      exact ⟨t, u, ht, htu, hu.tail hstep, hmoment⟩
    rcases hstep.trials with hsame | ⟨y, hhand, hcorpus, hnew⟩
    · exact hlater (hsame ▸ hx)
    · rw [hnew] at hx
      rcases List.eq_nil_or_concat after with rfl | ⟨front, last, rfl⟩
      · obtain ⟨hbefore, hlast⟩ := List.append_inj' hx rfl
        cases hlast
        exact ⟨s, s', hrun, hstep, .refl, hhand, hcorpus, hbefore, hbefore ▸ hnew⟩
      · rw [List.concat_eq_append, ← List.cons_append, ← List.append_assoc] at hx
        exact hlater (List.append_inj' hx rfl).1

end Stages

/-! ## Shutting down -/

/-- An engine that has nothing to do yet and has places for detections. -/
structure Fresh (e : Engine) : Prop where
  records : e.records.entries = []
  events : e.events.entries = []
  places : 0 < e.events.capacity

/-- An engine that starts is fresh. -/
theorem fresh_of_start {settings : Settings} {around : Surroundings}
    {dispatcher : Except Alert.NotifyError Alert.Dispatcher} {repository : Repository} {store : Store}
    {seed : UInt64} {now : Time.Instant} {e : Engine}
    (h : Engine.start settings around dispatcher repository store seed now = .ok e) : e.Fresh := by
  rw [Engine.start] at h
  obtain ⟨channels, -, h⟩ := bind_eq_ok h
  obtain ⟨corpus, -, h⟩ := bind_eq_ok h
  obtain ⟨scorer, -, h⟩ := bind_eq_ok h
  dsimp only at h
  split at h
  · cases h
  · rename_i hplaces
    split at h
    · cases h
    · cases h
      refine ⟨rfl, rfl, Nat.pos_of_ne_zero ?_⟩
      exact fun hzero => hplaces (Or.inl hzero)

namespace Stages

/-- An engine that is told to shut down can always come to its end, whatever its stages are doing.  Then
every record whose call succeeded has been tried once, in the order of the calls, each on the rules
that were in use when the worker tried it, and the store holds what has been detected in this order
and no other detections of rules. -/
theorem shutdown_stores_detections {e : Engine} {s : Stages} (hfresh : e.Fresh)
    (hstore : e.store.available .saveNotify = .ok ()) (hrun : (start e).Run s) :
    (∃ t, s.Run t ∧ t.Finished) ∧
    (s.Finished →
      s.trials.map (·.record) = s.submitted ∧
      ruleEvents s.engine.store.notifications = ruleEvents e.store.notifications ++
        s.trials.filterMap (Trial.detection? e.normalizer) ∧
      ∀ before x after, s.trials = before ++ x :: after →
        ∃ t u, (start e).Run t ∧ t.Step u ∧ u.Run s ∧ t.hand = .record x.record ∧
          t.engine.corpus = x.corpus ∧ t.trials = before ∧ u.trials = before ++ [x]) := by
  have h := (invariant_start hstore).run hrun
  have hplaces : 0 < s.engine.events.capacity := (Run.capacity hrun).2 ▸ hfresh.places
  refine ⟨h.exists_finished hplaces, ?_⟩
  intro hfinished
  obtain ⟨hrecords, hevents⟩ := h.of_finished hfinished
  rw [hfresh.records] at hrecords
  rw [hfresh.events, List.append_nil] at hevents
  exact ⟨hrecords, hevents, fun before x after hx => exists_moment hrun hx⟩

/-- A rule that asks for a name. -/
def rootLogin : DetectionRule where
  id := "root-login"
  title := "Root login"
  description := none
  status := none
  level := .high
  tags := []
  logSource := {}
  falsePositives := []
  detection := ⟨[("login", .keywords [.text "root"])], .selection "login"⟩

/-- A record with this name. -/
def loginOfRoot : LogRecord :=
  ⟨⟨0, 0⟩, .syslog, "10.0.0.5", "\x7b\"user\":\"root\"\x7d", none⟩

/-- An engine with this rule, and one place in each queue. -/
def watchful : Engine where
  now := ⟨0, 0⟩
  isOpen := true
  environment := fun _ => none
  normalizer := .json
  corpus := ⟨[rootLogin], {}⟩
  windows := .ofFun fun source => .start source .default ⟨0, 0⟩
  scorer := .start .default 0
  store := .empty
  records := .empty 1
  requests := .empty 1
  events := .empty 1
  sink := .start .empty
  raised := 0

/-- The first of two records has been tried and the second one waits when the engine is told to shut down
and its rule is taken away.  Both are tried, each on the rules of its moment, and the first one is
detected. -/
theorem shutdown_stores_detections_watchful :
    ∃ s, (start watchful).Run s ∧ s.Finished ∧ s.submitted = [loginOfRoot, loginOfRoot] ∧
      s.trials = [⟨loginOfRoot, watchful.corpus, ⟨7⟩⟩, ⟨loginOfRoot, .empty, ⟨8⟩⟩] ∧
      (ruleEvents s.engine.store.notifications).map (·.ruleId) = ["root-login"] := by
  have hfound : (detect? watchful.normalizer watchful.corpus ⟨7⟩ loginOfRoot).isSome = true := by
    decide +kernel
  obtain ⟨d, hd⟩ := Option.isSome_iff_exists.1 hfound
  have hlost : detect? watchful.normalizer .empty ⟨8⟩ loginOfRoot = none := by
    rw [← Option.not_isSome_iff_eq_none]
    decide +kernel
  have hrun : (start watchful).Run (start watchful) := .refl
  have hrun := hrun.tail (@Step.call _ loginOfRoot rfl rfl rfl)
  have hrun := hrun.tail (@Step.queue _ [] [] loginOfRoot rfl rfl rfl)
  have hrun := hrun.tail (.take nofun rfl rfl)
  have hrun := hrun.tail (@Step.call _ loginOfRoot rfl rfl rfl)
  have hrun := hrun.tail (@Step.queue _ [] [] loginOfRoot rfl rfl rfl)
  have hrun := hrun.tail (.detect ⟨7⟩ rfl hd)
  have hrun := hrun.tail .signal
  have hrun := hrun.tail (.reload (.fixed [] none))
  have hrun := hrun.tail (.send rfl rfl)
  have hrun := hrun.tail (.close rfl rfl rfl)
  have hrun := hrun.tail (.take nofun rfl rfl)
  have hrun := hrun.tail (.pass ⟨8⟩ rfl hlost)
  have hrun := hrun.tail (.release rfl rfl)
  have hrun := hrun.tail (.stop rfl rfl (Or.inl rfl))
  have hrun := hrun.tail (.accept rfl rfl)
  have hrun := hrun.tail (.stopScorer rfl)
  have hrun := hrun.tail (.stopSink rfl rfl rfl)
  have h := (shutdown_stores_detections ⟨rfl, rfl, by decide⟩ rfl hrun).2 ⟨rfl, rfl, rfl, rfl⟩
  have hnames : (ruleEvents watchful.store.notifications ++
      [⟨loginOfRoot, watchful.corpus, ⟨7⟩⟩, ⟨loginOfRoot, .empty, ⟨8⟩⟩].filterMap
        (Trial.detection? watchful.normalizer)).map (·.ruleId) = ["root-login"] := by
    decide +kernel
  refine ⟨_, hrun, ⟨rfl, rfl, rfl, rfl⟩, rfl, rfl, ?_⟩
  rw [h.2.1]
  exact hnames

end Stages

end LogWatch.Engine
