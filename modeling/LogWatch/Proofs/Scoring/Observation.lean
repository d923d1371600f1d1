import LogWatch.Proofs.Scoring.Pipeline

/-!
# What comes of an observation

Whatever scores the forest gives, an observation adds its point to the history of its source and touches
no other history, and it writes to the store only when all comparable points have been scored.

* `forestScores?_length`, `calibrate?_length` — one score for each row;
* `Scorer.Observes`, `Scorer.observes_observeWith` — the five ways in which an observation can end;
* `Scorer.Extends`, `Scorer.ScoresEach`, `Scorer.IsDue` — a history with one point more, a score for each
  point, and a newest score that raises an alert;
* `Scorer.observeWith_effects` — what an observation does in each case.
-/

namespace LogWatch.Anomaly

open Time

/-! ## One score for each row -/

/-- The forest gives one score for each row. -/
theorem forestScores?_length {σ : Type} (choices : Choices σ) (trees sampleSize : Nat) (seed : UInt64)
    (rows : List Row) {raw : List Float}
    (h : forestScores? choices trees sampleSize seed rows = some raw) : raw.length = rows.length := by
  rw [forestScores?, Option.map_eq_some_iff] at h
  obtain ⟨forest, -, rfl⟩ := h
  exact List.length_map _

/-- Calibration keeps the number of scores. -/
theorem calibrate?_length {α : Type} [Arithmetic α] {raw calibrated : List α}
    (h : calibrate? raw = some calibrated) : calibrated.length = raw.length := by
  rw [calibrate?] at h
  split at h
  · cases h
  · dsimp only at h
    split at h
    · split at h
      · split at h
        · cases h
        · cases h
          rw [center, List.length_map, stretch, List.length_map]
      · cases h
    · cases h

namespace Scorer

section Scores

variable {points : List HistoryPoint} {raw calibrated : List Float}

/-- Points and scores stay aligned. -/
theorem scoresOf_map (hraw : raw.length = points.length)
    (hcalibrated : calibrated.length = points.length) :
    (scoresOf points raw calibrated).map (·.time) = points.map (·.time) ∧
      (scoresOf points raw calibrated).map (·.raw) = raw ∧
      (scoresOf points raw calibrated).map (·.calibrated) = calibrated := by
  induction points generalizing raw calibrated with
  | nil =>
    rw [List.length_nil, List.length_eq_zero_iff] at hraw hcalibrated
    subst hraw hcalibrated
    exact ⟨rfl, rfl, rfl⟩
  | cons p points ih =>
    obtain ⟨r, raw, rfl⟩ := List.exists_cons_of_length_eq_add_one hraw
    obtain ⟨c, calibrated, rfl⟩ := List.exists_cons_of_length_eq_add_one hcalibrated
    obtain ⟨htimes, hraws, hcalibrateds⟩ :=
      ih (Nat.succ.inj hraw) (Nat.succ.inj hcalibrated)
    rw [scoresOf, List.map_cons, List.map_cons, List.map_cons, List.map_cons, htimes, hraws,
      hcalibrateds]
    exact ⟨rfl, rfl, rfl⟩

end Scores

/-! ## The ways in which an observation can end -/

/-- The scorer with a point more in the history of a source. -/
def extended (s : Scorer) (source : SourceType) (p : HistoryPoint) : Scorer :=
  s.setHistory source (addPoint (s.history source) p)

/-- The points that are compared with a new one: those with as many numbers, itself among them. -/
def compared (s : Scorer) (source : SourceType) (p : HistoryPoint) : List HistoryPoint :=
  (addPoint (s.history source) p).filter fun q => q.vector.length == p.vector.length

/-- The rows of the points that are compared with a new one. -/
def comparedRows (s : Scorer) (source : SourceType) (p : HistoryPoint) : List Row :=
  (s.compared source p).map
    (row (s.settings.useTimeData && timeDataSpan ≤ span (s.compared source p)))

section Observation

variable (rawScores? : UInt64 → List Row → Option (List Float)) (store : Store) (s : Scorer)
  (source : SourceType) (p : HistoryPoint)

/-- The scores of the points that are compared with a new one, before calibration. -/
def comparedScores? : Option (List Float) :=
  rawScores? (s.seed + UInt64.ofNat (s.comparedRows source p).length) (s.comparedRows source p)

/-- The ways in which the observation of a point can end. -/
inductive Observes : Except ObserveError Outcome × Scorer × Store → Prop
  | insufficient (n : Nat) : (s.compared source p).length < s.settings.minPoints →
      Observes (.ok (.insufficient n), s.extended source p, store)
  | unsplittable : s.settings.minPoints ≤ (s.compared source p).length →
      comparedScores? rawScores? s source p = none →
      Observes (.error .unsplittable, s.extended source p, store)
  | degenerate {raw : List Float} : s.settings.minPoints ≤ (s.compared source p).length →
      comparedScores? rawScores? s source p = some raw → calibrate? raw = none →
      Observes (.error .degenerate, s.extended source p, store)
  | unsaved {raw calibrated : List Float} {e : StoreError} :
      s.settings.minPoints ≤ (s.compared source p).length →
      comparedScores? rawScores? s source p = some raw → calibrate? raw = some calibrated →
      store.saveScores source (scoresOf (s.compared source p) raw calibrated) = .error e →
      Observes (.error (.store e), s.extended source p, store)
  | scored {raw calibrated : List Float} {store' : Store} :
      s.settings.minPoints ≤ (s.compared source p).length →
      comparedScores? rawScores? s source p = some raw → calibrate? raw = some calibrated →
      store.saveScores source (scoresOf (s.compared source p) raw calibrated) = .ok store' →
      Observes
        (.ok (.scored (scoresOf (s.compared source p) raw calibrated)
            (alertOf s.settings (s.compared source p)
              (scoresOf (s.compared source p) raw calibrated))),
          s.extended source p, store')

/-- Every observation ends in one of these ways. -/
theorem observes_observeWith (time : Instant) (vector : List Float) :
    Observes rawScores? store s source ⟨time, vector⟩
      (s.observeWith rawScores? store source time vector) := by
  simp only [observeWith]
  split
  · rename_i hfew
    exact .insufficient _ hfew
  · rename_i hfew
    have hmany : s.settings.minPoints ≤ (s.compared source ⟨time, vector⟩).length :=
      Nat.le_of_not_lt hfew
    split
    · rename_i hraw
      exact .unsplittable hmany hraw
    · rename_i raw hraw
      split
      · rename_i hcalibrate
        exact .degenerate hmany hraw hcalibrate
      · rename_i calibrated hcalibrate
        split
        · rename_i e hsave
          exact .unsaved hmany hraw hcalibrate hsave
        · rename_i store' hsave
          exact .scored hmany hraw hcalibrate hsave

end Observation

/-! ## Histories -/

/-- A scorer that differs from another one by one point more in the history of a source: one of the time of
the newest point takes its place. -/
structure Extends (s s' : Scorer) (source : SourceType) (p : HistoryPoint) : Prop where
  others : ∀ other, other ≠ source → s'.history other = s.history other
  added : (∀ newest ∈ (s.history source).getLast?, newest.time ≠ p.time) →
    s'.history source = s.history source ++ [p]
  replaced : ∀ before newest, s.history source = before ++ [newest] → newest.time = p.time →
    s'.history source = before ++ [{ newest with vector := p.vector }]
  settings : s'.settings = s.settings
  seed : s'.seed = s.seed

section Histories

variable (s : Scorer) (source : SourceType) (p : HistoryPoint)

theorem history_extended : (s.extended source p).history source = addPoint (s.history source) p :=
  history_setHistory_self ..

/-- A point of the time of the newest one takes its place. -/
theorem addPoint_concat {before : List HistoryPoint} {newest : HistoryPoint}
    (h : newest.time = p.time) :
    addPoint (before ++ [newest]) p = before ++ [{ newest with vector := p.vector }] := by
  rw [addPoint, List.getLast?_concat]
  dsimp only
  rw [if_pos h, List.dropLast_concat, h]

theorem extends_extended : Extends s (s.extended source p) source p where
  others other hne := history_setHistory_of_ne s hne _
  added hne := by
    rw [history_extended]
    exact Engine.Tracks.addPoint_of_ne hne
  replaced before newest hhistory htime := by
    rw [history_extended, hhistory]
    exact addPoint_concat p htime
  settings := rfl
  seed := rfl

/-- A new point is the newest one. -/
theorem getLast?_addPoint (points : List HistoryPoint) :
    (addPoint points p).getLast? = some p := by
  rw [addPoint]
  split
  · split <;> exact List.getLast?_concat
  · rfl

/-- The new point is the last one that is compared. -/
theorem getLast?_compared : (s.compared source p).getLast? = some p := by
  obtain ⟨before, hbefore⟩ := List.getLast?_eq_some_iff.1 (getLast?_addPoint p (s.history source))
  rw [compared, hbefore, List.filter_append, List.filter_cons_of_pos (by simp), List.filter_nil]
  exact List.getLast?_concat

theorem compared_eq :
    s.compared source p =
      ((s.extended source p).history source).filter fun q => q.vector.length = p.vector.length := by
  rw [compared, history_extended]
  rfl

end Histories

/-! ## Scores and alerts -/

/-- A score for each point, in the order of the points. -/
structure ScoresEach (points : List HistoryPoint) (scores : List AnomalyScore) : Prop where
  times : scores.map (·.time) = points.map (·.time)
  calibrated : calibrate? (scores.map (·.raw)) = some (scores.map (·.calibrated))

/-- A score that raises an alert when it is the newest one of some points: there is a threshold and the score
exceeds it, there are enough points, and the time from the first to the last of them exceeds the
delay. -/
def IsDue (settings : AnomalySettings) (points : List HistoryPoint) (score : AnomalyScore) : Prop :=
  ∃ threshold first last, settings.threshold = some threshold ∧ threshold < score.calibrated ∧
    settings.minAlertPoints ≤ points.length ∧ points.head? = some first ∧
    points.getLast? = some last ∧
    settings.notifyDelayHours.toNat * nanosPerHour < last.time.since first.time

theorem alertsReady_iff {settings : AnomalySettings} {points : List HistoryPoint}
    {last : HistoryPoint} (hlast : points.getLast? = some last) :
    alertsReady settings points = true ↔ settings.minAlertPoints ≤ points.length ∧
      ∃ first, points.head? = some first ∧
        settings.notifyDelayHours.toNat * nanosPerHour < last.time.since first.time := by
  cases points with
  | nil => cases hlast
  | cons first points => simp [alertsReady, span, hlast]

theorem standsOut_iff {settings : AnomalySettings} {score : AnomalyScore} :
    standsOut settings score = true ↔
      ∃ threshold, settings.threshold = some threshold ∧ threshold < score.calibrated := by
  rw [standsOut]
  split
  · rename_i threshold hthreshold
    simp [hthreshold]
  · rename_i hthreshold
    simp [hthreshold]

/-- An alert is raised for the newest score, just when it is due. -/
theorem alertOf_eq_some_iff {settings : AnomalySettings} {points : List HistoryPoint}
    {last : HistoryPoint} (hlast : points.getLast? = some last) {scores : List AnomalyScore}
    {score : AnomalyScore} :
    alertOf settings points scores = some score ↔
      scores.getLast? = some score ∧ IsDue settings points score := by
  rw [alertOf]
  constructor
  · intro h
    split at h
    · rename_i hready
      obtain ⟨hpoints, first, hfirst, hspan⟩ := (alertsReady_iff hlast).1 hready
      obtain ⟨hscore, hout⟩ := Option.filter_eq_some_iff.1 h
      obtain ⟨threshold, hthreshold, hexceeds⟩ := standsOut_iff.1 hout
      exact ⟨hscore, threshold, first, last, hthreshold, hexceeds, hpoints, hfirst, hlast, hspan⟩
    · cases h
  · rintro ⟨hscore, threshold, first, other, hthreshold, hexceeds, hpoints, hfirst, hother, hspan⟩
    obtain rfl : other = last := Option.some.inj (hother.symm.trans hlast)
    rw [if_pos ((alertsReady_iff hlast).2 ⟨hpoints, first, hfirst, hspan⟩),
      Option.filter_eq_some_iff]
    exact ⟨hscore, standsOut_iff.2 ⟨threshold, hthreshold, hexceeds⟩⟩

/-! ## Effects -/

/-- Scores are saved for their source alone. -/
theorem get_scores_of_saveScores {store store' : Store} {source other : SourceType}
    {scores : List AnomalyScore} (h : store.saveScores source scores = .ok store')
    (hother : other ≠ source) : store'.scores.get other = store.scores.get other := by
  rw [Store.saveScores] at h
  split at h
  · cases h
  · split at h
    · cases h
    · cases h
      exact PerSource.get_set_of_ne _ hother _

section Effects

variable {rawScores? : UInt64 → List Row → Option (List Float)} {store : Store} {s : Scorer}
  {source : SourceType} {p : HistoryPoint} {result : Except ObserveError Outcome × Scorer × Store}

theorem Observes.scorer_eq (h : Observes rawScores? store s source p result) :
    result.2.1 = s.extended source p := by
  cases h <;> rfl

theorem Observes.get_scores_of_ne (h : Observes rawScores? store s source p result)
    {other : SourceType} (hother : other ≠ source) :
    result.2.2.scores.get other = store.scores.get other := by
  cases h with
  | insufficient => rfl
  | unsplittable => rfl
  | degenerate => rfl
  | unsaved => rfl
  | scored _ _ _ hsave => exact get_scores_of_saveScores hsave hother

/-- Points are too few just when fewer than asked for can be compared. -/
theorem Observes.insufficient_iff (h : Observes rawScores? store s source p result) :
    (∃ n, result.1 = .ok (.insufficient n)) ↔
      (s.compared source p).length < s.settings.minPoints := by
  cases h with
  | insufficient n hfew => exact ⟨fun _ => hfew, fun _ => ⟨n, rfl⟩⟩
  | unsplittable hmany => simpa using hmany
  | degenerate hmany => simpa using hmany
  | unsaved hmany => simpa using hmany
  | scored hmany => simpa using hmany

/-- Only scores are written. -/
theorem Observes.store_eq (h : Observes rawScores? store s source p result)
    (hscored : ∀ scores alert, result.1 ≠ .ok (.scored scores alert)) : result.2.2 = store := by
  cases h with
  | insufficient => rfl
  | unsplittable => rfl
  | degenerate => rfl
  | unsaved => rfl
  | scored => exact absurd rfl (hscored _ _)

/-- The scores are those of the points that are compared, in their order, and they are what has been
saved. -/
theorem Observes.of_scored (h : Observes rawScores? store s source p result)
    (hrows : ∀ seed rows raw, rawScores? seed rows = some raw → raw.length = rows.length)
    {scores : List AnomalyScore} {alert : Option AnomalyScore}
    (hscored : result.1 = .ok (.scored scores alert)) :
    comparedScores? rawScores? s source p = some (scores.map (·.raw)) ∧
      ScoresEach (s.compared source p) scores ∧
      store.saveScores source scores = .ok result.2.2 ∧
      alert = alertOf s.settings (s.compared source p) scores := by
  cases h with
  | insufficient => cases hscored
  | unsplittable => cases hscored
  | degenerate => cases hscored
  | unsaved => cases hscored
  | @scored raw calibrated _ _ hraw hcalibrate hsave =>
    cases hscored
    have hlength : raw.length = (s.compared source p).length := by
      rw [hrows _ _ _ hraw, comparedRows, List.length_map]
    obtain ⟨htimes, hraws, hcalibrateds⟩ :=
      scoresOf_map hlength ((calibrate?_length hcalibrate).trans hlength)
    refine ⟨?_, ⟨htimes, ?_⟩, hsave, rfl⟩
    · rw [hraw, hraws]
    · rw [hraws, hcalibrateds]
      exact hcalibrate

end Effects

/-- Whatever scores rows are given, an observation adds its point to the history of its source, where it takes
the place of a newest point of its time, and leaves all else of the scorer and the scores of other sources
alone.  The points are too few just when fewer than asked for have as many numbers as the new one, and
then nothing is written, nor after an error, as when all scores are alike.  Otherwise those points are
scored in their order, the new one last: what rows made of them are given are their raw scores, each in the
place of its point.  The scores are saved, and the newest one raises an alert just when it is due. -/
theorem observeWith_effects (rawScores? : UInt64 → List Row → Option (List Float))
    (hrows : ∀ seed rows raw, rawScores? seed rows = some raw → raw.length = rows.length)
    (store : Store) (s : Scorer) (source : SourceType) (time : Instant) (vector : List Float) :
    ∃ outcome s' store',
      s.observeWith rawScores? store source time vector = (outcome, s', store') ∧
      Extends s s' source ⟨time, vector⟩ ∧
      (∀ other, other ≠ source → store'.scores.get other = store.scores.get other) ∧
      ∃ points, points = (s'.history source).filter (fun q => q.vector.length = vector.length) ∧
        ((∃ n, outcome = .ok (.insufficient n)) ↔ points.length < s.settings.minPoints) ∧
        ((∃ n, outcome = .ok (.insufficient n)) → store' = store) ∧
        (∀ e, outcome = .error e → store' = store) ∧
        ∀ scores alert, outcome = .ok (.scored scores alert) →
          ScoresEach points scores ∧
          s.comparedRows source ⟨time, vector⟩ =
            points.map (row (s.settings.useTimeData && timeDataSpan ≤ span points)) ∧
          comparedScores? rawScores? s source ⟨time, vector⟩ = some (scores.map (·.raw)) ∧
          points.getLast? = some ⟨time, vector⟩ ∧
          scores.getLast?.map (·.time) = some time ∧
          store.saveScores source scores = .ok store' ∧
          ∀ score, alert = some score ↔ scores.getLast? = some score ∧ IsDue s.settings points score := by
  have h := observes_observeWith rawScores? store s source time vector
  generalize s.observeWith rawScores? store source time vector = result at h
  obtain ⟨outcome, s', store'⟩ := result
  obtain rfl : s' = s.extended source ⟨time, vector⟩ := h.scorer_eq
  have hlast := getLast?_compared s source ⟨time, vector⟩
  refine ⟨outcome, _, store', rfl, extends_extended .., fun _ => h.get_scores_of_ne,
    s.compared source ⟨time, vector⟩, compared_eq .., h.insufficient_iff, ?_, ?_, ?_⟩
  · rintro ⟨n, rfl⟩
    exact h.store_eq fun _ _ heq => by cases heq
  · rintro e rfl
    exact h.store_eq fun _ _ heq => by cases heq
  · intro scores alert hscored
    obtain ⟨hraw, heach, hsave, rfl⟩ := h.of_scored hrows hscored
    have htime : scores.getLast?.map (·.time) = some time := by
      rw [← List.getLast?_map, heach.times, List.getLast?_map, hlast]
      rfl
    exact ⟨heach, rfl, hraw, hlast, htime, hsave, fun score => alertOf_eq_some_iff hlast⟩

/-- The score of a newest point that stands out. -/
def alert? : Except ObserveError Outcome → Option AnomalyScore
  | .ok (.scored _ alert) => alert
  | _ => none

/-- Three points of one number and one of two: each of the three has the score of its own row, and the
newest stands out, a day and a second after the first.  A forest scores each row too. -/
theorem observeWith_effects_standingOut :
    let byFirst : UInt64 → List Row → Option (List Float) :=
      fun _ rows => some (rows.map fun row => row.headD 0.0)
    let s : Scorer := (start ⟨some 55.0, false, 24, 1, 1, 3, 3⟩ 1).setHistory .syslog
      [⟨⟨0, 0⟩, [1.0]⟩, ⟨⟨3600, 0⟩, [1.0, 2.0]⟩, ⟨⟨7200, 0⟩, [1.0]⟩]
    (∀ seed rows raw, byFirst seed rows = some raw → raw.length = rows.length) ∧
      ∃ scores score,
        (s.observeWith byFirst .empty .syslog ⟨86401, 0⟩ [9.0]).1 = .ok (.scored scores (some score)) ∧
        scores.map (·.time) = [⟨0, 0⟩, ⟨7200, 0⟩, ⟨86401, 0⟩] ∧
        scores.map (·.raw) = [1.0, 1.0, 9.0] ∧ scores.getLast? = some score ∧
        Extends s (s.observe .empty .syslog ⟨86401, 0⟩ [9.0]).2.1 .syslog ⟨⟨86401, 0⟩, [9.0]⟩ := by
  intro byFirst s
  have hrows : ∀ seed rows raw, byFirst seed rows = some raw → raw.length = rows.length := by
    rintro seed rows raw ⟨⟩
    exact List.length_map _
  refine ⟨hrows, ?_⟩
  have halert : (alert? (s.observeWith byFirst .empty .syslog ⟨86401, 0⟩ [9.0]).1).isSome = true := by
    decide +kernel
  have hforest : Extends s (s.observe .empty .syslog ⟨86401, 0⟩ [9.0]).2.1 .syslog
      ⟨⟨86401, 0⟩, [9.0]⟩ := by
    obtain ⟨_, _, _, hresult, hextends, -⟩ := observeWith_effects _
      (fun _ _ _ => forestScores?_length _ _ _ _ _) .empty s .syslog ⟨86401, 0⟩ [9.0]
    rw [observe, hresult]
    exact hextends
  obtain ⟨outcome, s', store', hresult, hextends, -, points, hpoints, -, -, -, hscored⟩ :=
    observeWith_effects byFirst hrows .empty s .syslog ⟨86401, 0⟩ [9.0]
  rw [hresult] at halert ⊢
  obtain ⟨scores, score, houtcome⟩ : ∃ scores score, outcome = .ok (.scored scores (some score)) := by
    cases outcome with
    | error => cases halert
    | ok outcome =>
      cases outcome with
      | insufficient => cases halert
      | scored scores alert =>
        obtain ⟨score, rfl⟩ := Option.isSome_iff_exists.1 halert
        exact ⟨scores, score, rfl⟩
  obtain ⟨heach, -, hraw, -, -, -, hdue⟩ := hscored scores (some score) houtcome
  have hhistory := hextends.added (by rintro newest ⟨⟩; decide)
  have hscores : comparedScores? byFirst s .syslog ⟨⟨86401, 0⟩, [9.0]⟩ = some [1.0, 1.0, 9.0] := rfl
  refine ⟨scores, score, houtcome, ?_, Option.some.inj (hraw.symm.trans hscores),
    ((hdue score).1 rfl).1, hforest⟩
  rw [heach.times, hpoints, hhistory]
  rfl

end Scorer

end LogWatch.Anomaly
