import LogWatch.Anomaly.Scorer
import LogWatch.Engine.Queue

/-!
# Scoring

The scorer takes requests from a queue: points of closed windows, and wishes to forget what it has
learned.  Its work may break off; then it starts anew from what the store holds.

* `publish` — a closed window is stored first and scored later;
* `observe` — the scorer after one more point, and the score that raises an alert;
* `clear` — the scorer after it has forgotten and loaded again.
-/

namespace LogWatch.Engine

open Anomaly Time

/-- What the scorer may be asked for. -/
inductive ScoringRequest where
  /-- One more point of a source. -/
  | observe (source : SourceType) (time : Instant) (vector : List Float)
  /-- To forget the history of a source, or all of them. -/
  | clear (source : Option SourceType)

/-- How many requests may wait for the scorer. -/
def scoringRoom : Nat :=
  64

/-- The point of a closed window as a request. -/
def ScoringRequest.ofSummary (s : Summary) : ScoringRequest :=
  .observe s.source s.time s.vector

/-- The store with the summary of a closed window; if it cannot be stored, the store as it was. -/
def storeSummary (store : Store) (s : Summary) : Store :=
  match store.saveSummary s with
  | .ok store => store
  | .error _ => store

namespace Scoring

/-- The scorer after its work broke off: without histories, and then with as many as can be loaded. -/
def restart (store : Store) (s : Scorer) : Scorer :=
  (s.blank.loadAll store).2

/-- The scorer and the store after one more point, and the score that raises an alert. -/
def observe (store : Store) (s : Scorer) (source : SourceType) (time : Instant)
    (vector : List Float) : Option AnomalyScore × Scorer × Store :=
  match s.observe store source time vector with
  | (.ok (.scored _ alert), s, store) => (alert, s, store)
  | (.ok (.insufficient _), s, store) => (none, s, store)
  | (.error .unsplittable, s, store) => (none, restart store s, store)
  | (.error (.store .brokenOff), s, store) =>
    let store := { store with breaking := false }
    (none, restart store s, store)
  | (.error _, s, store) => (none, s, store)

/-- The scorer after it has forgotten a history, or all of them, and loaded again. -/
def clear (store : Store) (s : Scorer) : Option SourceType → Except StoreError Unit × Scorer
  | none => s.clearAll store
  | some source =>
    match s.clear store source with
    | (.ok _, s) => (.ok (), s)
    | (.error e, s) => (.error e, s)

end Scoring

end LogWatch.Engine
