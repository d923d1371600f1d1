import LogWatch.Anomaly.Calibration
import LogWatch.Anomaly.Forest
import LogWatch.Report.Store
import LogWatch.Settings

/-!
# The anomaly scorer

Each report adds a point to the history of its source.  The whole history is scored anew by an isolation
forest and calibrated, and the newest point may raise an alert once the history is long and old
enough.

* `Scorer.load`, `Scorer.loadAll` — histories from the store;
* `Scorer.clear`, `Scorer.clearAll` — histories dropped and loaded again;
* `Scorer.observe` — one more point, the scores, and whether they raise an alert.
-/

namespace LogWatch.Anomaly

open Time

/-- What a report adds to the history of its source. -/
structure HistoryPoint where
  time : Instant
  vector : List Float

/-- The scorer: its settings, the seed of its forests and the history of each source. -/
structure Scorer where
  settings : AnomalySettings
  seed : UInt64
  histories : PerSource (List HistoryPoint)

/-- What has come of an observation. -/
inductive Outcome where
  /-- There are too few points to be scored. -/
  | insufficient (points : Nat)
  /-- The history has been scored; `alert` tells whether its newest point stands out. -/
  | scored (scores : List AnomalyScore) (alert : Option AnomalyScore)

/-- Why nothing has come of an observation. -/
inductive ObserveError where
  /-- All points have one score. -/
  | degenerate
  | store (error : StoreError)
  /-- The rows could not be split. -/
  | unsplittable
deriving DecidableEq, Repr

/-- The error in words. -/
def ObserveError.message (source : SourceType) : ObserveError → String
  | .degenerate => "degenerate scores for " ++ source.name ++ ": all points scored identically"
  | .store error => "report store error: " ++ error.message
  | .unsplittable => "a column of the history is too wide"

namespace Scorer

/-- The seed where none is given. -/
def defaultSeed : UInt64 :=
  0x5eed1e7e

/-- A scorer without histories. -/
def start (settings : AnomalySettings) (seed : UInt64) : Scorer :=
  ⟨settings, seed, .const []⟩

/-- The scorer without its histories. -/
def blank (s : Scorer) : Scorer :=
  start s.settings s.seed

/-- The history of a source. -/
def history (s : Scorer) (source : SourceType) : List HistoryPoint :=
  s.histories.get source

/-- The scorer with another history of a source. -/
def setHistory (s : Scorer) (source : SourceType) (points : List HistoryPoint) : Scorer :=
  { s with histories := s.histories.set source points }

/-- The point that a report adds. -/
def pointOf (summary : Summary) : HistoryPoint :=
  ⟨summary.time, summary.vector⟩

/-! ## Loading -/

/-- The points of a source in the store. -/
def storedPoints (store : Store) (source : SourceType) : Except StoreError (List HistoryPoint) :=
  (store.visitSummaries source .earliest .latest
    (fun points summary => (points ++ [pointOf summary], true)) []).1

/-- The history of a source replaced by what the store holds, and the number of its points. -/
def load (store : Store) (s : Scorer) (source : SourceType) : Except StoreError Nat × Scorer :=
  match storedPoints store source with
  | .error e => (.error e, s)
  | .ok points => (.ok points.length, s.setHistory source points)

/-- The histories of some sources loaded in order, up to the first failure. -/
def loadEach (store : Store) (s : Scorer) : List SourceType → Except StoreError Unit × Scorer
  | [] => (.ok (), s)
  | source :: rest =>
    match s.load store source with
    | (.error e, s) => (.error e, s)
    | (.ok _, s) => s.loadEach store rest

/-- All histories loaded. -/
def loadAll (store : Store) (s : Scorer) : Except StoreError Unit × Scorer :=
  s.loadEach store SourceType.all

/-- The history of a source dropped and loaded again, and the number of its points.  If the store fails
it stays dropped. -/
def clear (store : Store) (s : Scorer) (source : SourceType) : Except StoreError Nat × Scorer :=
  (s.setHistory source []).load store source

/-- All histories dropped and loaded again, up to the first failure. -/
def clearAll (store : Store) (s : Scorer) : Except StoreError Unit × Scorer :=
  s.blank.loadEach store SourceType.all

/-! ## Observing -/

/-- A history with one point more; a point of the time of the newest one takes its place. -/
def addPoint (points : List HistoryPoint) (p : HistoryPoint) : List HistoryPoint :=
  match points.getLast? with
  | some newest => if newest.time = p.time then points.dropLast ++ [p] else points ++ [p]
  | none => [p]

/-- The time from the first to the last point, in nanoseconds. -/
def span (points : List HistoryPoint) : Int :=
  match points.head?, points.getLast? with
  | some first, some last => last.time.since first.time
  | _, _ => 0

/-- The nanoseconds of an hour. -/
def nanosPerHour : Int :=
  3600 * 1000000000

/-- How long a history must be before the time of week takes part in the comparison: seven days. -/
def timeDataSpan : Int :=
  7 * 24 * nanosPerHour

/-- The row of a point; with the time of week it ends in a mark for weekends and the hour. -/
def row (withTime : Bool) (p : HistoryPoint) : Row :=
  if withTime then
    p.vector ++ [if p.time.isWeekend then 1.0 else 0.0, Float.ofNat p.time.hour]
  else p.vector

/-- Is a history long and old enough for alerts? -/
def alertsReady (settings : AnomalySettings) (points : List HistoryPoint) : Bool :=
  settings.minAlertPoints ≤ points.length &&
    settings.notifyDelayHours.toNat * nanosPerHour < span points

/-- Does a score stand out? -/
def standsOut (settings : AnomalySettings) (score : AnomalyScore) : Bool :=
  match settings.threshold with
  | some threshold => threshold < score.calibrated
  | none => false

/-- The points with their raw and calibrated scores. -/
def scoresOf : List HistoryPoint → List Float → List Float → List AnomalyScore
  | p :: ps, raw :: raws, calibrated :: rest => ⟨p.time, raw, calibrated⟩ :: scoresOf ps raws rest
  | _, _, _ => []

/-- The newest score, if it raises an alert. -/
def alertOf (settings : AnomalySettings) (points : List HistoryPoint)
    (scores : List AnomalyScore) : Option AnomalyScore :=
  if alertsReady settings points then scores.getLast?.filter (standsOut settings) else none

/-- One more point of a source, given how rows are scored: what has come of it, the scorer with the
point and the store with the scores.  Only points with as many numbers as the new one are scored. -/
def observeWith (rawScores? : UInt64 → List Row → Option (List Float)) (store : Store) (s : Scorer)
    (source : SourceType) (time : Instant) (vector : List Float) :
    Except ObserveError Outcome × Scorer × Store :=
  let history := addPoint (s.history source) ⟨time, vector⟩
  let s := s.setHistory source history
  let points := history.filter fun p => p.vector.length == vector.length
  if points.length < s.settings.minPoints then
    let counted := if history.length < s.settings.minPoints then history else points
    (.ok (.insufficient counted.length), s, store)
  else
    let withTime := s.settings.useTimeData && timeDataSpan ≤ span points
    let rows := points.map (row withTime)
    match rawScores? (s.seed + UInt64.ofNat rows.length) rows with
    | none => (.error .unsplittable, s, store)
    | some raw =>
      match calibrate? raw with
      | none => (.error .degenerate, s, store)
      | some calibrated =>
        let scores := scoresOf points raw calibrated
        match store.saveScores source scores with
        | .error e => (.error (.store e), s, store)
        | .ok store => (.ok (.scored scores (alertOf s.settings points scores)), s, store)

/-- One more point of a source, scored by an isolation forest.  The forest grows by the choices of
`Choices.mixing`; what `observeWith` guarantees holds for any others. -/
def observe (store : Store) (s : Scorer) (source : SourceType) (time : Instant)
    (vector : List Float) : Except ObserveError Outcome × Scorer × Store :=
  observeWith (forestScores? Choices.mixing s.settings.trees s.settings.sampleSize) store s source
    time vector

end Scorer

end LogWatch.Anomaly
