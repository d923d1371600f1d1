import LogWatch.Engine.Control
import LogWatch.Proofs.Scoring.Loading

/-!
# From the flush of a window to its point

A flush saves its summary and then asks the scorer to observe its point; between the two, and while the
request waits, other flushes and wishes to clear a history may come.  A history that is loaded while a
point is on its way holds that point already.

* `Pipeline`, `Pipeline.Step`, `Pipeline.Reachable` — the steps of flushes and of the scorer, in any order;
* `Tracks` — what is known of one history while points are on their way;
* `Pipeline.Reachable.invariant` — every history is tracked, and the store is in order;
* `Pipeline.onePointEach_iff_backlog` — when nothing is on its way a history has one point for each
  summary just when at most one point was on its way as it was last loaded.
-/

namespace LogWatch.Engine

open Time Anomaly

/-! ## The pipeline -/

/-- Flushes, the requests they make, and the scorer that serves them. -/
structure Pipeline where
  store : Store
  scorer : Scorer
  /-- The summary of each source that has been saved but not sent yet. -/
  unsent : PerSource (Option Summary)
  requests : Queue ScoringRequest
  /-- How many points of a source were on their way when its history was last loaded. -/
  backlog : PerSource Nat

/-- The point of a source that a request carries. -/
def pointFor? (source : SourceType) : ScoringRequest → Option HistoryPoint
  | .observe other time vector => if other = source then some ⟨time, vector⟩ else none
  | .clear _ => none

namespace Pipeline

/-- The points of a source that are on their way to the scorer, those that come first in front. -/
def inFlight (p : Pipeline) (source : SourceType) : List HistoryPoint :=
  p.requests.entries.filterMap (pointFor? source) ++
    ((p.unsent.get source).map Scorer.pointOf).toList

/-- The pipeline after the history of a source has been loaded, or all histories have. -/
def noteLoad (p : Pipeline) : Option SourceType → Pipeline
  | none => { p with backlog := .ofFun fun source => (p.inFlight source).length }
  | some source => { p with backlog := p.backlog.set source (p.inFlight source).length }

/-- The pipeline with another scorer and store. -/
def work (p : Pipeline) (scorer : Scorer) (store : Store) : Pipeline :=
  { p with scorer := scorer, store := store }

/-- The scorer serves a request that has left the queue. -/
def serve (p : Pipeline) : ScoringRequest → Pipeline
  | .observe source time vector =>
    let result := Scoring.observe p.store p.scorer source time vector
    if Scoring.breaksOff p.store p.scorer source time vector then
      (p.work result.2.1 result.2.2).noteLoad none
    else p.work result.2.1 result.2.2
  | .clear source => (p.work (Scoring.clear p.store p.scorer source).2 p.store).noteLoad source

/-- What can happen next. -/
inductive Step (p : Pipeline) : Pipeline → Prop
  /-- A source that has nothing left to send saves the summary of a window that has closed. -/
  | save {summary : Summary} {store : Store} : p.unsent.get summary.source = none →
      p.store.IsNext summary → p.store.saveSummary summary = .ok store →
      Step p { p with store := store, unsent := p.unsent.set summary.source (some summary) }
  /-- The saved summary is sent to the scorer. -/
  | send {summary : Summary} : p.unsent.get summary.source = some summary →
      p.requests.hasRoom = true →
      Step p { p with
        unsent := p.unsent.set summary.source none
        requests := p.requests.push (.ofSummary summary) }
  /-- The scorer is asked to forget the history of a source, or all of them. -/
  | ask (source : Option SourceType) : p.requests.hasRoom = true →
      Step p { p with requests := p.requests.push (.clear source) }
  /-- The scorer takes the next request. -/
  | serve {request : ScoringRequest} {rest : Queue ScoringRequest} :
      p.requests.next? = some (request, rest) →
      Step p ({ p with requests := rest }.serve request)
  /-- Whether the next saving of scores breaks off is left open. -/
  | disturb (breaking : Bool) :
      Step p { p with store := { p.store with breaking := breaking } }

/-- A pipeline whose scorer starts with what the store holds. -/
def start (store : Store) (scorer : Scorer) : Pipeline where
  store := store
  scorer := scorer
  unsent := .const none
  requests := .empty scoringRoom
  backlog := .const 0

/-- The pipelines that come about by steps in any order. -/
inductive Reachable : Pipeline → Prop
  | start {settings : AnomalySettings} {seed : UInt64} {store : Store} {scorer : Scorer} :
      store.InOrder → startScorer settings seed store = .ok scorer →
      Reachable (start store scorer)
  | step {p q : Pipeline} : Reachable p → Step p q → Reachable q

/-- The history of a source has one point for each summary that has been saved, in ascending order of
their times. -/
def OnePointEach (p : Pipeline) (source : SourceType) : Prop :=
  p.scorer.history source = p.store.points source ∧
    (p.scorer.history source).Pairwise fun a b => a.time < b.time

end Pipeline

/-! ## One history -/

/-- A history, the points that have been saved, those of them that are still on their way, and how many
were on their way when the history was loaded.  `done` are the points that have arrived. -/
def Tracks (saved inFlight history : List HistoryPoint) (backlog : Nat) : Prop :=
  ∃ done, saved = done ++ inFlight ∧
    -- A single point that was loaded early is replaced by itself when it arrives.
    (backlog ≤ 1 → history = done ∨ ∃ p rest, inFlight = p :: rest ∧ history = done ++ [p]) ∧
    -- Of several ones the newest has been loaded, so none finds itself at the end.
    (2 ≤ backlog → history.length = done.length + backlog ∧
      ∀ p ∈ history.getLast?, p ∈ done ∨ p ∈ inFlight.tail)

namespace Tracks

variable {saved inFlight history : List HistoryPoint} {backlog : Nat} {p : HistoryPoint}

/-- A flush adds a point that is on its way. -/
theorem save (h : Tracks saved inFlight history backlog) :
    Tracks (saved ++ [p]) (inFlight ++ [p]) history backlog := by
  obtain ⟨done, rfl, hfew, hmany⟩ := h
  refine ⟨done, List.append_assoc .., ?_, ?_⟩
  · intro hb
    rcases hfew hb with hdone | ⟨q, rest, rfl, hhistory⟩
    · exact Or.inl hdone
    · exact Or.inr ⟨q, rest ++ [p], rfl, hhistory⟩
  · intro hb
    obtain ⟨hlength, hlast⟩ := hmany hb
    refine ⟨hlength, fun q hq => (hlast q hq).imp_right ?_⟩
    cases inFlight with
    | nil => exact nofun
    | cons r rest => exact List.mem_append_left _

/-- A history that is loaded holds all points. -/
theorem load (h : Tracks saved inFlight history backlog) :
    Tracks saved inFlight saved inFlight.length := by
  obtain ⟨done, rfl, -, -⟩ := h
  refine ⟨done, rfl, ?_, ?_⟩
  · intro hb
    match inFlight, hb with
    | [], _ => exact Or.inl (List.append_nil _)
    | [q], _ => exact Or.inr ⟨q, [], rfl, rfl⟩
  · intro hb
    refine ⟨List.length_append, ?_⟩
    match inFlight, hb with
    | q :: r :: rest, _ =>
      intro s hs
      rw [List.getLast?_append, List.getLast?_cons_cons, List.getLast?_cons, Option.some_or] at hs
      exact Or.inr (List.mem_of_getLast? (List.getLast?_cons.trans hs))

theorem addPoint_of_ne (h : ∀ q ∈ history.getLast?, q.time ≠ p.time) :
    Scorer.addPoint history p = history ++ [p] := by
  rw [Scorer.addPoint]
  split
  · rename_i q hq
    rw [if_neg (h q hq)]
  · rename_i hnone
    rw [List.getLast?_eq_none_iff.1 hnone, List.nil_append]

theorem addPoint_concat_self (done : List HistoryPoint) (p : HistoryPoint) :
    Scorer.addPoint (done ++ [p]) p = done ++ [p] := by
  rw [Scorer.addPoint, List.getLast?_concat]
  dsimp only
  rw [if_pos rfl, List.dropLast_concat]

/-- The time of a point is not that of another one. -/
theorem time_ne {done rest : List HistoryPoint}
    (hascending : (done ++ p :: rest).Pairwise fun a b => a.time < b.time) {q : HistoryPoint}
    (hq : q ∈ done ∨ q ∈ rest) : q.time ≠ p.time := by
  rw [List.pairwise_append, List.pairwise_cons] at hascending
  obtain ⟨-, ⟨hrest, -⟩, hdone⟩ := hascending
  intro heq
  rcases hq with hq | hq
  · have hlt := hdone q hq p List.mem_cons_self
    rw [heq] at hlt
    exact Instant.lt_irrefl _ hlt
  · have hlt := hrest q hq
    rw [heq] at hlt
    exact Instant.lt_irrefl _ hlt

/-- The first point that is on its way arrives. -/
theorem observe (hascending : saved.Pairwise fun a b => a.time < b.time)
    (h : Tracks saved (p :: inFlight) history backlog) :
    Tracks saved inFlight (Scorer.addPoint history p) backlog := by
  obtain ⟨done, rfl, hfew, hmany⟩ := h
  refine ⟨done ++ [p], (List.append_cons ..), ?_, ?_⟩
  · intro hb
    refine Or.inl ?_
    rcases hfew hb with rfl | ⟨q, rest, heq, rfl⟩
    · refine addPoint_of_ne fun q hq => time_ne hascending (Or.inl (List.mem_of_getLast? hq))
    · cases heq
      exact addPoint_concat_self _ _
  · intro hb
    obtain ⟨hlength, hlast⟩ := hmany hb
    have hadd : Scorer.addPoint history p = history ++ [p] :=
      addPoint_of_ne fun q hq => time_ne hascending (hlast q hq)
    rw [hadd]
    refine ⟨?_, ?_⟩
    · rw [List.length_append, List.length_append, hlength, Nat.add_right_comm]
    · intro q hq
      rw [List.getLast?_concat] at hq
      cases hq
      exact Or.inl (List.mem_append_right _ List.mem_cons_self)

/-- The first point that is on its way is lost, and the history is loaded. -/
theorem lose (h : Tracks saved (p :: inFlight) history backlog) :
    Tracks saved inFlight saved inFlight.length := by
  obtain ⟨done, rfl, -, -⟩ := h
  have hlater : Tracks (done ++ p :: inFlight) inFlight (done ++ [p]) 0 :=
    ⟨done ++ [p], List.append_cons .., fun _ => Or.inl rfl, fun hb => absurd hb (by decide)⟩
  exact hlater.load

/-- When nothing is on its way, the history has as many points too many as were on their way when it
was loaded, unless this was a single one. -/
theorem idle (h : Tracks saved [] history backlog) :
    (backlog ≤ 1 → history = saved) ∧ (2 ≤ backlog → history.length = saved.length + backlog) := by
  obtain ⟨done, rfl, hfew, hmany⟩ := h
  rw [List.append_nil]
  refine ⟨?_, fun hb => (hmany hb).1⟩
  intro hb
  rcases hfew hb with hdone | ⟨q, rest, heq, -⟩
  · exact hdone
  · cases heq

end Tracks

/-! ## Steps -/

namespace Pipeline

/-- What holds of every pipeline that comes about. -/
structure Invariant (p : Pipeline) : Prop where
  readable : p.store.IsReadable
  inOrder : p.store.InOrder
  tracks : ∀ source, Tracks (p.store.points source) (p.inFlight source)
    (p.scorer.history source) (p.backlog.get source)

theorem pointFor?_ofSummary (source : SourceType) (summary : Summary) :
    pointFor? source (.ofSummary summary) =
      if summary.source = source then some (Scorer.pointOf summary) else none :=
  rfl

theorem filterMap_push (f : ScoringRequest → Option HistoryPoint) (q : Queue ScoringRequest)
    (request : ScoringRequest) :
    (q.push request).entries.filterMap f = q.entries.filterMap f ++ (f request).toList := by
  rw [Queue.entries_push, List.filterMap_append, List.filterMap_cons]
  cases f request <;> rfl

theorem invariant_start {settings : AnomalySettings} {seed : UInt64} {store : Store}
    {scorer : Scorer} (horder : store.InOrder)
    (h : startScorer settings seed store = .ok scorer) : (start store scorer).Invariant := by
  rw [startScorer] at h
  split at h
  · rename_i hload
    cases h
    have hreadable := Scorer.isReadable_of_loadAll hload
    refine ⟨hreadable, horder, fun source => ?_⟩
    have hhistory : scorer.history source = store.points source := by
      have hall := Scorer.history_loadEach_all hreadable horder (.start settings seed) source
      rw [← Scorer.loadAll, hload] at hall
      exact hall
    refine ⟨store.points source, ?_, fun _ => Or.inl hhistory, ?_⟩
    · simp [inFlight, start]
    · intro hb
      simp [start] at hb
  · cases h

theorem Invariant.save {p : Pipeline} (h : p.Invariant) {summary : Summary} {store : Store}
    (hnone : p.unsent.get summary.source = none) (hnext : p.store.IsNext summary)
    (hsave : p.store.saveSummary summary = .ok store) :
    Invariant { p with
      store := store, unsent := p.unsent.set summary.source (some summary) } := by
  refine ⟨Store.isReadable_of_saveSummary h.inOrder hnext hsave h.readable,
    Store.inOrder_of_saveSummary h.inOrder hnext hsave, fun source => ?_⟩
  by_cases hsource : source = summary.source
  · subst hsource
    have hadd := (h.tracks summary.source).save (p := Scorer.pointOf summary)
    simpa [Store.points_of_saveSummary h.inOrder hnext hsave, inFlight, hnone] using hadd
  · simpa [Store.points_of_saveSummary_of_ne h.inOrder hnext hsave hsource, inFlight, hsource]
      using h.tracks source

theorem Invariant.send {p : Pipeline} (h : p.Invariant) {summary : Summary}
    (hsome : p.unsent.get summary.source = some summary) :
    Invariant { p with
      unsent := p.unsent.set summary.source none
      requests := p.requests.push (.ofSummary summary) } := by
  refine ⟨h.readable, h.inOrder, fun source => ?_⟩
  have hsame : inFlight { p with
      unsent := p.unsent.set summary.source none
      requests := p.requests.push (.ofSummary summary) } source = p.inFlight source := by
    rw [inFlight, inFlight, filterMap_push, pointFor?_ofSummary]
    by_cases hsource : source = summary.source
    · subst hsource
      simp [hsome]
    · simp [hsource, Ne.symm hsource]
  rw [hsame]
  exact h.tracks source

theorem Invariant.ask {p : Pipeline} (h : p.Invariant) (wish : Option SourceType) :
    Invariant { p with requests := p.requests.push (.clear wish) } := by
  refine ⟨h.readable, h.inOrder, fun source => ?_⟩
  have hsame : inFlight { p with requests := p.requests.push (.clear wish) } source =
      p.inFlight source := by
    rw [inFlight, filterMap_push, inFlight]
    exact congrArg (· ++ _) (List.append_nil _)
  rw [hsame]
  exact h.tracks source

theorem Invariant.disturb {p : Pipeline} (h : p.Invariant) (breaking : Bool) :
    Invariant { p with store := { p.store with breaking := breaking } } :=
  ⟨h.readable, ⟨h.inOrder.place, h.inOrder.ascending⟩, h.tracks⟩

/-! ## Serving -/

/-- A request that leaves the queue takes its point with it. -/
theorem inFlight_of_next? {p : Pipeline} {request : ScoringRequest} {rest : Queue ScoringRequest}
    (h : p.requests.next? = some (request, rest)) (source : SourceType) :
    p.inFlight source = (pointFor? source request).toList ++
      inFlight { p with requests := rest } source := by
  rw [inFlight, (Queue.next?_eq_some.1 h).1, List.filterMap_cons, inFlight]
  cases pointFor? source request <;> rfl

@[simp] theorem store_noteLoad (p : Pipeline) (source : Option SourceType) :
    (p.noteLoad source).store = p.store := by
  cases source <;> rfl

@[simp] theorem scorer_noteLoad (p : Pipeline) (source : Option SourceType) :
    (p.noteLoad source).scorer = p.scorer := by
  cases source <;> rfl

@[simp] theorem inFlight_noteLoad (p : Pipeline) (wish : Option SourceType) (source : SourceType) :
    (p.noteLoad wish).inFlight source = p.inFlight source := by
  cases wish <;> rfl

@[simp] theorem store_work (p : Pipeline) (scorer : Scorer) (store : Store) :
    (p.work scorer store).store = store := rfl

@[simp] theorem scorer_work (p : Pipeline) (scorer : Scorer) (store : Store) :
    (p.work scorer store).scorer = scorer := rfl

@[simp] theorem inFlight_work (p : Pipeline) (scorer : Scorer) (store : Store)
    (source : SourceType) : (p.work scorer store).inFlight source = p.inFlight source := rfl

@[simp] theorem backlog_work (p : Pipeline) (scorer : Scorer) (store : Store) :
    (p.work scorer store).backlog = p.backlog := rfl

@[simp] theorem backlog_noteLoad_none (p : Pipeline) (source : SourceType) :
    (p.noteLoad none).backlog.get source = (p.inFlight source).length :=
  PerSource.get_ofFun ..

@[simp] theorem backlog_noteLoad_self (p : Pipeline) (source : SourceType) :
    (p.noteLoad (some source)).backlog.get source = (p.inFlight source).length :=
  PerSource.get_set_self ..

@[simp] theorem backlog_noteLoad_of_ne (p : Pipeline) {source other : SourceType}
    (h : other ≠ source) : (p.noteLoad (some source)).backlog.get other = p.backlog.get other :=
  PerSource.get_set_of_ne _ h _

/-- What has to hold of a pipeline when a request is about to be served. -/
structure Due (p : Pipeline) (request : ScoringRequest) : Prop where
  readable : p.store.IsReadable
  inOrder : p.store.InOrder
  tracks : ∀ source, Tracks (p.store.points source)
    ((pointFor? source request).toList ++ p.inFlight source)
    (p.scorer.history source) (p.backlog.get source)

theorem Invariant.due {p : Pipeline} (h : p.Invariant) {request : ScoringRequest}
    {rest : Queue ScoringRequest} (hnext : p.requests.next? = some (request, rest)) :
    Due { p with requests := rest } request := by
  refine ⟨h.readable, h.inOrder, fun source => ?_⟩
  have htracks := h.tracks source
  rwa [inFlight_of_next? hnext] at htracks

/-- Whether the point of a request is another source's or is lost, a history that is loaded is
tracked. -/
theorem Due.load {p : Pipeline} {request : ScoringRequest} (h : p.Due request)
    (source : SourceType) :
    Tracks (p.store.points source) (p.inFlight source) (p.store.points source)
      (p.inFlight source).length := by
  have htracks := h.tracks source
  cases hpoint : pointFor? source request with
  | none =>
    rw [hpoint] at htracks
    exact htracks.load
  | some point =>
    rw [hpoint] at htracks
    exact htracks.lose

/-- The point of an observation arrives. -/
theorem Due.invariant_observe {p : Pipeline} {source : SourceType} {time : Instant}
    {vector : List Float} (h : p.Due (.observe source time vector))
    (hbreaks : Scoring.breaksOff p.store p.scorer source time vector = false) :
    (p.serve (.observe source time vector)).Invariant := by
  have hsame := Scoring.sameReports_observe p.store p.scorer source time vector
  have hscorer := Scoring.observe_of_not_breaksOff hbreaks
  rw [serve, hbreaks, if_neg Bool.false_ne_true]
  refine ⟨hsame.isReadable h.readable, hsame.inOrder h.inOrder, fun other => ?_⟩
  have htracks := h.tracks other
  rw [store_work, scorer_work, inFlight_work, backlog_work, hsame.points_eq, hscorer]
  by_cases hother : source = other
  · subst hother
    rw [pointFor?, if_pos rfl] at htracks
    rw [Scorer.history_setHistory_self]
    exact htracks.observe (h.inOrder.ascending_points source)
  · rw [pointFor?, if_neg hother] at htracks
    rw [Scorer.history_setHistory_of_ne _ (Ne.symm hother)]
    exact htracks

/-- The work breaks off, and all histories are loaded. -/
theorem Due.invariant_breaksOff {p : Pipeline} {source : SourceType} {time : Instant}
    {vector : List Float} (h : p.Due (.observe source time vector))
    (hbreaks : Scoring.breaksOff p.store p.scorer source time vector = true) :
    (p.serve (.observe source time vector)).Invariant := by
  have hsame := Scoring.sameReports_observe p.store p.scorer source time vector
  have hhistory := Scoring.history_observe_of_breaksOff h.readable h.inOrder hbreaks
  rw [serve, hbreaks, if_pos rfl]
  refine ⟨hsame.isReadable h.readable, hsame.inOrder h.inOrder, fun other => ?_⟩
  simpa [hhistory, hsame.points_eq] using h.load other

/-- The histories that are forgotten are loaded again, the others stay. -/
theorem Due.invariant_clear {p : Pipeline} {wish : Option SourceType} (h : p.Due (.clear wish)) :
    (p.serve (.clear wish)).Invariant := by
  rw [serve]
  refine ⟨by simpa using h.readable, by simpa using h.inOrder, fun other => ?_⟩
  cases wish with
  | none => simpa [Scoring.history_clear_none h.readable h.inOrder] using h.load other
  | some source =>
    by_cases hother : other = source
    · subst hother
      simpa [Scoring.history_clear_some_self h.readable h.inOrder] using h.load other
    · have htracks := h.tracks other
      rw [pointFor?] at htracks
      simpa [Scoring.history_clear_some_of_ne h.readable h.inOrder _ hother, hother] using htracks

theorem Due.invariant {p : Pipeline} {request : ScoringRequest} (h : p.Due request) :
    (p.serve request).Invariant := by
  cases request with
  | clear wish => exact h.invariant_clear
  | observe source time vector =>
    cases hbreaks : Scoring.breaksOff p.store p.scorer source time vector with
    | false => exact h.invariant_observe hbreaks
    | true => exact h.invariant_breaksOff hbreaks

/-! ## The engine -/

/-- The part of an engine that flushes and scores.  An engine sends a summary as soon as it is saved. -/
def ofEngine (e : Engine) (backlog : PerSource Nat) : Pipeline where
  store := e.store
  scorer := e.scorer
  unsent := .const none
  requests := e.requests
  backlog := backlog

theorem ofEngine_raise (e : Engine) (event : Option NotifyEvent) (backlog : PerSource Nat) :
    ofEngine (e.raise event) backlog = ofEngine e backlog := by
  cases event <;> rfl

theorem ofEngine_score_observe (e : Engine) (source : SourceType) (time : Instant)
    (vector : List Float) (backlog : PerSource Nat) :
    ofEngine (e.score (.observe source time vector)) backlog =
      (ofEngine e backlog).work (Scoring.observe e.store e.scorer source time vector).2.1
        (Scoring.observe e.store e.scorer source time vector).2.2 := by
  rw [score]
  rcases Scoring.observe e.store e.scorer source time vector with ⟨alert, scorer, store⟩
  exact ofEngine_raise _ _ _

/-- An engine scores as its pipeline serves. -/
theorem serve_ofEngine (e : Engine) (request : ScoringRequest) (backlog : PerSource Nat) :
    ∃ backlog', (ofEngine e backlog).serve request = ofEngine (e.score request) backlog' := by
  cases request with
  | clear wish =>
    cases wish with
    | none => exact ⟨_, rfl⟩
    | some source => exact ⟨_, rfl⟩
  | observe source time vector =>
    rw [serve]
    split
    · have hload := congrArg (noteLoad · none)
        (ofEngine_score_observe e source time vector backlog).symm
      exact ⟨_, hload⟩
    · exact ⟨backlog, (ofEngine_score_observe ..).symm⟩

/-- When an engine scores, its scorer serves a request. -/
theorem step_of_scoreNext? {e f : Engine} (h : e.scoreNext? = some f) (backlog : PerSource Nat) :
    ∃ backlog', Step (ofEngine e backlog) (ofEngine f backlog') := by
  rw [scoreNext?] at h
  split at h
  · obtain ⟨⟨request, rest⟩, hnext, rfl⟩ := Option.map_eq_some_iff.1 h
    have hstep : Step (ofEngine e backlog)
        ((ofEngine { e with requests := rest } backlog).serve request) := .serve hnext
    obtain ⟨backlog', hserve⟩ := serve_ofEngine { e with requests := rest } request backlog
    rw [hserve] at hstep
    exact ⟨backlog', hstep⟩
  · cases h

/-- When an engine publishes a window, it saves the summary and sends it. -/
theorem steps_of_publish {e : Engine} {summary : Summary} {store : Store}
    (hnext : e.store.IsNext summary) (hsave : e.store.saveSummary summary = .ok store)
    (hroom : e.requests.hasRoom = true) (backlog : PerSource Nat) :
    ∃ q, Step (ofEngine e backlog) q ∧ Step q (ofEngine (e.publish summary) backlog) := by
  have hsent : ((PerSource.const none).set summary.source (some summary)).set summary.source none =
      PerSource.const none := by
    cases summary.source <;> rfl
  have hpublish : e.publish summary =
      { e with store := store, requests := e.requests.push (.ofSummary summary) } := by
    rw [publish, request, storeSummary, hsave]
    dsimp only
    rw [if_pos hroom]
  have hsend := @Step.send { ofEngine e backlog with
    store := store
    unsent := (PerSource.const none).set summary.source (some summary) } summary
    (PerSource.get_set_self ..) hroom
  dsimp only [ofEngine] at hsend
  rw [hsent] at hsend
  refine ⟨_, .save (PerSource.get_const ..) hnext hsave, ?_⟩
  rw [hpublish]
  exact hsend

/-! ## Runs -/

/-- Every step keeps the invariant. -/
theorem Invariant.step {p q : Pipeline} (h : p.Invariant) (hstep : p.Step q) : q.Invariant := by
  cases hstep with
  | save hnone hnext hsave => exact h.save hnone hnext hsave
  | send hsome _ => exact h.send hsome
  | ask wish _ => exact h.ask wish
  | serve hnext => exact (h.due hnext).invariant
  | disturb breaking => exact h.disturb breaking

theorem Reachable.invariant {p : Pipeline} (h : p.Reachable) : p.Invariant := by
  induction h with
  | start horder hstart => exact invariant_start horder hstart
  | step _ hstep ih => exact ih.step hstep

/-- When nothing of a source is on its way, its history has one point for each summary just when at most
one point was on its way as it was last loaded.  Otherwise it has as many points too many. -/
theorem onePointEach_iff_backlog {p : Pipeline} (h : p.Reachable) (source : SourceType)
    (hidle : p.inFlight source = []) :
    (p.OnePointEach source ↔ p.backlog.get source ≤ 1) ∧
      (1 < p.backlog.get source → (p.scorer.history source).length =
        (p.store.points source).length + p.backlog.get source) := by
  have hinvariant := h.invariant
  have htracks := hinvariant.tracks source
  rw [hidle] at htracks
  obtain ⟨hfew, hmany⟩ := htracks.idle
  refine ⟨⟨?_, ?_⟩, hmany⟩
  · rintro ⟨hsame, -⟩
    refine Nat.le_of_not_lt fun hb => ?_
    have hlength := hmany hb
    rw [hsame] at hlength
    omega
  · intro hb
    have hsame := hfew hb
    refine ⟨hsame, ?_⟩
    rw [hsame]
    exact hinvariant.inOrder.ascending_points source

/-- The summary of a minute with a few traps. -/
def trapsOf (minute : Int) : Summary :=
  .trap ⟨⟨60 * minute, 0⟩, 4, 1, []⟩

/-- A wish to clear is served when two flushes have been sent after it: both points come twice. -/
theorem not_onePointEach_of_two_flushes :
    ∃ p, Reachable p ∧ p.inFlight .trap = [] ∧ (p.store.points .trap).length = 2 ∧
      (p.scorer.history .trap).length = 4 ∧ ¬ p.OnePointEach .trap := by
  have hempty : Store.empty.InOrder :=
    Store.inOrder_of_empty fun source => PerSource.get_const _ source
  have h := @Reachable.start .default 0 _ _ hempty rfl
  have h := h.step (.ask none rfl)
  have h := h.step (@Step.save _ (trapsOf 0) _ rfl (List.forall_mem_nil _) rfl)
  have h := h.step (@Step.send _ (trapsOf 0) rfl rfl)
  have h := h.step (@Step.save _ (trapsOf 1) _ rfl (by
    intro e he
    rw [List.mem_singleton.1 he]
    exact ⟨by decide, by decide⟩) rfl)
  have h := h.step (@Step.send _ (trapsOf 1) rfl rfl)
  have h := h.step (.serve rfl)
  have h := h.step (.serve rfl)
  have h := h.step (.serve rfl)
  obtain ⟨hiff, hlength⟩ := onePointEach_iff_backlog h .trap rfl
  refine ⟨_, h, rfl, rfl, rfl, ?_⟩
  rw [hiff]
  decide

end Pipeline

end LogWatch.Engine
