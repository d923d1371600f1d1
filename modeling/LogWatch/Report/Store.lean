import LogWatch.Event.Basic
import LogWatch.Report.Summary

/-!
# The report store

Where summaries, scores and notifications are kept, by source and in order of time.  Summaries of
one time are kept in the order in which they were saved; of scores of one time the last one stays.

* `Store.saveSummary`, `Store.saveScores`, `Store.saveNotify`, `Store.clearReport`;
* `Store.visitSummaries`, `Store.visitScores` — a visitor is shown the entries between two times
  until it declines;
* a store may be unusable (`Store.poisoned`), after a range was asked for whose start is after its
  end, single operations may be out of order (`Store.outages`), and the saving of scores may break
  off once (`Store.breaking`).
-/

namespace LogWatch

open Time

/-- The score of one point of a history. -/
structure AnomalyScore where
  time : Instant
  raw : Float
  calibrated : Float

/-- Operations of a store that may be out of order. -/
inductive StoreOperation where
  | saveSummary
  | saveScores
  | saveNotify
  | visitSummaries
deriving DecidableEq, Repr

/-- Why an operation failed. -/
inductive StoreError where
  | poisoned
  | storage (text : String)
  /-- The start of a range was after its end: the caller breaks off, and the store cannot be used
  any more. -/
  | reversedRange
  /-- The saving of scores broke off, and the caller with it. -/
  | brokenOff
deriving DecidableEq, Repr

/-- The error in words. -/
def StoreError.message : StoreError → String
  | .poisoned => "Store lock poisoned: poisoned lock: another task failed inside"
  | .storage text => "Storage error: " ++ text
  | .reversedRange => "range start is greater than range end"
  | .brokenOff => "score write failed"

/-- A summary with its place: its time in nanoseconds, and its number among all that were saved. -/
structure StoredSummary where
  nanos : Int
  number : Nat
  summary : Summary

/-- A score with its time in nanoseconds. -/
structure StoredScore where
  nanos : Int
  score : AnomalyScore

/-- Summaries, scores and notifications. -/
structure Store where
  summaries : PerSource (List StoredSummary)
  scores : PerSource (List StoredScore)
  notifications : List NotifyEvent
  saved : Nat
  poisoned : Bool
  outages : List StoreOperation
  /-- Does the next attempt to save scores break off? -/
  breaking : Bool

namespace Store

/-- A store with nothing in it. -/
def empty : Store :=
  ⟨.const [], .const [], [], 0, false, [], false⟩

/-! ## Ordered lists -/

/-- A summary put at its place: after all that are not later. -/
def insertSummary (e : StoredSummary) : List StoredSummary → List StoredSummary
  | [] => [e]
  | f :: rest =>
    if e.nanos < f.nanos ∨ (e.nanos = f.nanos ∧ e.number < f.number) then e :: f :: rest
    else f :: insertSummary e rest

/-- A score put at its place; one of the same time is replaced. -/
def insertScore (e : StoredScore) : List StoredScore → List StoredScore
  | [] => [e]
  | f :: rest =>
    if e.nanos < f.nanos then e :: f :: rest
    else if e.nanos = f.nanos then e :: rest
    else f :: insertScore e rest

/-- Entries shown to a visitor in order until it declines. -/
def visitWhile {α σ : Type} (visit : σ → α → σ × Bool) : List α → σ → σ
  | [], s => s
  | a :: rest, s =>
    match visit s a with
    | (s, true) => visitWhile visit rest s
    | (s, false) => s

/-! ## Reading -/

/-- How many summaries of a source there are; none in an unusable store. -/
def summaryCount (s : Store) (source : SourceType) : Nat :=
  if s.poisoned then 0 else (s.summaries.get source).length

/-- The summaries of a source in order; none in an unusable store. -/
def allSummaries (s : Store) (source : SourceType) : List Summary :=
  if s.poisoned then [] else (s.summaries.get source).map (·.summary)

/-- The scores of a source in order; none in an unusable store. -/
def allScores (s : Store) (source : SourceType) : List AnomalyScore :=
  if s.poisoned then [] else (s.scores.get source).map (·.score)

/-- The notifications in the order in which they were saved; none in an unusable store. -/
def allNotifications (s : Store) : List NotifyEvent :=
  if s.poisoned then [] else s.notifications

/-- Is an operation possible at all? -/
def available (s : Store) (op : StoreOperation) : Except StoreError Unit :=
  if s.outages.contains op then .error (.storage "forced")
  else if s.poisoned then .error .poisoned
  else .ok ()

/-- The store after a range was asked for the wrong way round. -/
def poison (s : Store) : Store :=
  { s with poisoned := true }

/-- The summaries of a source between two times, both included, shown to a visitor. -/
def visitSummaries {σ : Type} (s : Store) (source : SourceType) (first last : Instant)
    (visit : σ → Summary → σ × Bool) (init : σ) : Except StoreError σ × Store :=
  match s.available .visitSummaries with
  | .error e => (.error e, s)
  | .ok () =>
    let entries := s.summaries.get source
    let low := first.clampedNanos
    let high := last.clampedNanos
    if entries.isEmpty then (.ok init, s)
    else if high < low then (.error .reversedRange, s.poison)
    else
      let inside := entries.filter fun e => low ≤ e.nanos && e.nanos ≤ high
      (.ok (visitWhile visit (inside.map (·.summary)) init), s)

/-- The scores of a source between two times, both included, shown to a visitor. -/
def visitScores {σ : Type} (s : Store) (source : SourceType) (first last : Instant)
    (visit : σ → AnomalyScore → σ × Bool) (init : σ) : Except StoreError σ × Store :=
  if s.poisoned then (.error .poisoned, s)
  else
    let entries := s.scores.get source
    let low := first.clampedNanos
    let high := last.clampedNanos
    if entries.isEmpty then (.ok init, s)
    else if high < low then (.error .reversedRange, s.poison)
    else
      let inside := entries.filter fun e => low ≤ e.nanos && e.nanos ≤ high
      (.ok (visitWhile visit (inside.map (·.score)) init), s)

/-- A visitor that collects entries, at least one, and declines once it has `limit` of them. -/
def collect {α : Type} (limit : Option Nat) (seen : List α) (a : α) : List α × Bool :=
  let seen := seen ++ [a]
  (seen, match limit with
    | some n => seen.length < n
    | none => true)

/-! ## Writing -/

/-- A summary saved under its time. -/
def saveSummary (s : Store) (summary : Summary) : Except StoreError Store :=
  match s.available .saveSummary with
  | .error e => .error e
  | .ok () =>
    let number := s.saved + 1
    let entry : StoredSummary := ⟨summary.time.clampedNanos, number, summary⟩
    .ok
      { s with
        saved := number
        summaries := s.summaries.set summary.source
          (insertSummary entry (s.summaries.get summary.source)) }

/-- Scores saved under their times. -/
def saveScores (s : Store) (source : SourceType) (scores : List AnomalyScore) :
    Except StoreError Store :=
  if s.breaking then .error .brokenOff
  else
    match s.available .saveScores with
    | .error e => .error e
    | .ok () =>
      let entries := scores.foldl
        (fun es (x : AnomalyScore) => insertScore ⟨x.time.clampedNanos, x⟩ es) (s.scores.get source)
      .ok { s with scores := s.scores.set source entries }

/-- A notification added to the others. -/
def saveNotify (s : Store) (event : NotifyEvent) : Except StoreError Store :=
  match s.available .saveNotify with
  | .error e => .error e
  | .ok () => .ok { s with notifications := s.notifications ++ [event] }

/-- All summaries and scores of a source removed. -/
def clearReport (s : Store) (source : SourceType) : Except StoreError Store :=
  if s.poisoned then .error .poisoned
  else
    .ok
      { s with
        summaries := s.summaries.set source []
        scores := s.scores.set source [] }

end Store

end LogWatch
