import LogWatch.Proofs.Number.Doubles
import LogWatch.Proofs.Report.Batches
import LogWatch.Proofs.Scoring.Splits
import Mathlib.Data.List.GetD

/-!
# Columns that are too wide

The forest draws a value between the bounds of a column, which takes a range of finite width.  Bounds are
numbers of the rows, so an observation can only break off at two rows that differ by more than a double
holds.  Counts never do.  Measurements do so when they are huge: their sum over a window may already be
infinite.

* `isWide_of_refused`, `Scorer.isWide_of_unsplittable` — two rows that are too far apart;
* `Scorer.splittable_of_isWithin` — numbers that are never too far apart;
* `Summary.Measured`, `Summary.isWithin_of_measured` — the reports that windows give on some
  measurements, and those whose numbers are never too far apart;
* `Engine.Pipeline.Drawn` — every point of a history has been saved;
* `Engine.Pipeline.breaks_off_only_at_vast_measures` — what an observation breaks off at;
* `Engine.Pipeline.finite_measures_break_off` — finite measurements at which it does.
-/

namespace LogWatch.Anomaly

open Number

/-! ## Bounds -/

/-- Each bound of some values is one of them, or none of them has been compared with success. -/
theorem bounds_eq_or_mem (values : List Float) :
    ((bounds values).1 = 1.0 / 0.0 ∨ (bounds values).1 ∈ values) ∧
      ((bounds values).2 = -1.0 / 0.0 ∨ (bounds values).2 ∈ values) := by
  induction values using List.reverseRecOn with
  | nil => exact ⟨Or.inl rfl, Or.inl rfl⟩
  | append_singleton values x ih =>
    have hstep : bounds (values ++ [x]) =
        (if x < (bounds values).1 then x else (bounds values).1,
          if (bounds values).2 < x then x else (bounds values).2) := by
      unfold bounds
      rw [List.foldl_append]
      rfl
    rw [hstep]
    constructor
    · by_cases hlow : x < (bounds values).1
      · simp [hlow]
      · simp only [if_neg hlow, List.mem_append]
        exact ih.1.imp_right Or.inl
    · by_cases hhigh : (bounds values).2 < x
      · simp [hhigh]
      · simp only [if_neg hhigh, List.mem_append]
        exact ih.2.imp_right Or.inl

/-- The bounds of values that vary are among them. -/
theorem bounds_mem_of_lt {values : List Float} (h : (bounds values).1 < (bounds values).2) :
    (bounds values).1 ∈ values ∧ (bounds values).2 ∈ values := by
  obtain ⟨hlow, hhigh⟩ := bounds_eq_or_mem values
  constructor
  · apply hlow.resolve_left
    intro hinfinity
    rw [hinfinity] at h
    exact not_infinity_lt _ h
  · apply hhigh.resolve_left
    intro hinfinity
    rw [hinfinity] at h
    exact not_lt_neg_infinity _ h

/-- Two rows differ in a column by more than a double holds. -/
def IsWide (width : Nat) (rows : List Row) : Prop :=
  ∃ a ∈ rows, ∃ b ∈ rows, ∃ feature < width,
    a.getD feature 0.0 < b.getD feature 0.0 ∧
      isFinite (b.getD feature 0.0 - a.getD feature 0.0) = false

/-- A range that is not finite is refused only between two such rows. -/
theorem isWide_of_refused {width : Nat} {rows : List Row}
    (h : Tree.Refused Tree.isFiniteRange width rows) : IsWide width rows := by
  obtain ⟨part, hpart, feature, hfeature, hvaries, hrefused⟩ := h
  obtain ⟨hlow, hhigh⟩ := bounds_mem_of_lt hvaries
  obtain ⟨a, ha, hlow⟩ := List.mem_map.1 hlow
  obtain ⟨b, hb, hhigh⟩ := List.mem_map.1 hhigh
  refine ⟨a, hpart ha, b, hpart hb, feature, hfeature, ?_⟩
  rw [hlow, hhigh]
  exact ⟨hvaries, hrefused⟩

/-- Numbers of at most half of the greatest power of two are never too far apart. -/
theorem not_isWide {width : Nat} {rows : List Row} (hrows : Rectangular width rows)
    (h : ∀ row ∈ rows, ∀ x ∈ row, isWithin 1022 x = true) : ¬IsWide width rows := by
  rintro ⟨a, ha, b, hb, feature, hfeature, -, hwide⟩
  have hmem : ∀ row ∈ rows, isWithin 1022 (row.getD feature 0.0) = true := by
    intro row hrow
    have hlength : feature < row.length := by rwa [hrows row hrow]
    rw [List.getD_eq_getElem _ _ hlength]
    exact h row hrow _ (List.getElem_mem hlength)
  have hwithin := isWithin_sub (by decide) (hmem b hb) (hmem a ha)
  rw [isFinite_of_isWithin hwithin] at hwide
  cases hwide

/-! ## Observations -/

theorem hour_lt (t : Time.Instant) : t.hour < 24 := by
  unfold Time.Instant.hour Time.Instant.secondOfDay
  omega

theorem isWithin_hour {hour : Nat} (h : hour < 24) : isWithin 1022 (Float.ofNat hour) = true := by
  revert hour
  decide +kernel

namespace Scorer

section Observations

variable {σ : Type} (choices : Choices σ) (trees sampleSize : Nat) (store : Store) (s : Scorer)
  (source : SourceType) (time : Time.Instant) (vector : List Float)

/-- An observation breaks off in the forest only at two compared rows that are too far apart. -/
theorem isWide_of_unsplittable
    (h : (s.observeWith (forestScores? choices trees sampleSize) store source time vector).1 =
      .error .unsplittable) :
    IsWide (s.comparedWidth source ⟨time, vector⟩) (s.comparedRows source ⟨time, vector⟩) :=
  isWide_of_refused (s.refused_of_unsplittable source choices trees sampleSize store time vector h)

/-- The marks of the time of week are small. -/
theorem isWithin_row {p : HistoryPoint} (h : ∀ x ∈ p.vector, isWithin 1022 x = true)
    (withTime : Bool) : ∀ x ∈ row withTime p, isWithin 1022 x = true := by
  have hone : isWithin 1022 1.0 = true := by decide +kernel
  have hzero : isWithin 1022 0.0 = true := by decide +kernel
  have hhour := isWithin_hour (hour_lt p.time)
  unfold row
  split
  · simp only [List.forall_mem_append, List.forall_mem_cons]
    refine ⟨h, ?_, hhour, by simp⟩
    split
    · exact hone
    · exact hzero
  · exact h

/-- A history with one point more has no other points. -/
theorem mem_addPoint {points : List HistoryPoint} {p q : HistoryPoint} (h : q ∈ addPoint points p) :
    q ∈ points ∨ q = p := by
  unfold addPoint at h
  split at h
  · split at h
    · exact (List.mem_append.1 h).imp (List.mem_of_mem_dropLast ·) List.mem_singleton.1
    · exact (List.mem_append.1 h).imp_right List.mem_singleton.1
  · exact Or.inr (List.mem_singleton.1 h)

/-- An observation does not break off in the forest when all numbers are never too far apart. -/
theorem splittable_of_isWithin (hhistory : ∀ q ∈ s.history source, ∀ x ∈ q.vector, isWithin 1022 x = true)
    (hvector : ∀ x ∈ vector, isWithin 1022 x = true) :
    (s.observeWith (forestScores? choices trees sampleSize) store source time vector).1 ≠
      .error .unsplittable := by
  intro h
  apply not_isWide (s.rectangular_comparedRows source ⟨time, vector⟩) _
    (s.isWide_of_unsplittable choices trees sampleSize store source time vector h)
  intro r hr
  obtain ⟨q, hq, rfl⟩ := List.mem_map.1 hr
  apply isWithin_row
  rcases mem_addPoint (List.mem_filter.1 hq).1 with hpoint | rfl
  · exact hhistory q hpoint
  · exact hvector

end Observations

end Scorer

end LogWatch.Anomaly

/-! ## Windows -/

namespace LogWatch

open Number Report

/-- The measurements that a record carries. -/
def RecordDetail.measures : RecordDetail → List Float
  | .monitor cpu memory load disk netBytes => [cpu, memory, load, disk, netBytes]
  | _ => []

namespace Report

/-- A sum of moderate measurements stays where one more of them is lost: two to the power 968 is half of
the distance between doubles from two to the power 1021 on. -/
theorem isWithin_sum {sum x : Float} (hsum : isWithin 1021 sum = true) (hx : isWithin 968 x = true) :
    isWithin 1021 (sum + x) = true :=
  isWithin_add (by decide) (le_refl _) hsum hx

/-- Sums of moderate measurements. -/
def MeasureTally.IsModerate (s : MeasureTally) : Prop :=
  ∀ x ∈ [s.cpu, s.memory, s.load, s.disk, s.net], isWithin 1021 x = true

theorem MeasureTally.isModerate_add {s : MeasureTally} (hs : s.IsModerate)
    {cpu memory load disk net : Float}
    (hd : ∀ x ∈ (RecordDetail.monitor cpu memory load disk net).measures, isWithin 968 x = true) :
    MeasureTally.IsModerate
      ⟨s.samples + 1, s.cpu + cpu, s.memory + memory, s.load + load, s.disk + disk, s.net + net⟩ := by
  unfold IsModerate at hs ⊢
  unfold RecordDetail.measures at hd
  simp only [List.forall_mem_cons] at hs hd ⊢
  obtain ⟨hcpu, hmemory, hload, hdisk, hnet, -⟩ := hs
  obtain ⟨hcpu', hmemory', hload', hdisk', hnet', -⟩ := hd
  exact ⟨isWithin_sum hcpu hcpu', isWithin_sum hmemory hmemory', isWithin_sum hload hload',
    isWithin_sum hdisk hdisk', isWithin_sum hnet hnet', by simp⟩

/-- A tally whose sums are those of moderate measurements. -/
def Tally.IsModerate : Tally → Prop
  | .monitor s => s.IsModerate
  | _ => True

theorem Tally.isModerate_ofDetails (source : SourceType) {details : List RecordDetail}
    (h : ∀ d ∈ details, ∀ x ∈ d.measures, isWithin 968 x = true) :
    (Tally.ofDetails source details).IsModerate := by
  induction details using List.reverseRecOn with
  | nil =>
    cases source with
    | monitor =>
      have hzero : isWithin 1021 0.0 = true := by decide +kernel
      show MeasureTally.IsModerate {}
      unfold MeasureTally.IsModerate
      simp [hzero]
    | _ => trivial
  | append_singleton details d ih =>
    rw [ofDetails_concat]
    have hd := h d (by simp)
    have ht := ih fun e he => h e (List.mem_append_left _ he)
    generalize ofDetails source details = t at ht
    cases t with
    | monitor s =>
      cases d with
      | monitor => exact s.isModerate_add ht hd
      | _ => exact ht
    | _ => cases d <;> trivial

/-- The average of moderate measurements. -/
theorem isWithin_average {sum : Float} (hsum : isWithin 1021 sum = true) (samples : UInt64) :
    isWithin 1022 (sum / (max samples 1).toFloat) = true := by
  apply isWithin_div (by decide) hsum
  intro hzero
  have hmax : max samples 1 = if samples ≤ 1 then 1 else samples := rfl
  rw [hmax] at hzero
  split at hzero
  · cases hzero
  · rename_i hsamples
    subst hzero
    exact hsamples (by decide)

theorem Tally.isWithin_summary {s : MeasureTally} (h : s.IsModerate) (time : Time.Instant) (n : Nat) :
    ∀ x ∈ ((Tally.monitor s).summary time n).vector, isWithin 1022 x = true := by
  unfold MeasureTally.IsModerate at h
  unfold Tally.summary Summary.vector
  simp only [List.forall_mem_cons] at h ⊢
  obtain ⟨hcpu, hmemory, hload, hdisk, hnet, -⟩ := h
  exact ⟨isWithin_average hcpu _, isWithin_average hmemory _, isWithin_average hload _,
    isWithin_average hdisk _, isWithin_average hnet _, by simp⟩

end Report

namespace Summary

/-- A report that a window has given on records whose measurements are of a kind, if it is about
measurements. -/
def Measured (P : Float → Prop) (m : Summary) : Prop :=
  m.source = .monitor → ∃ settings now calls,
    (∀ r, Window.Call.add r ∈ calls → ∀ d ∈ r.detail, ∀ x ∈ d.measures, P x) ∧
      m ∈ ((Window.start .monitor settings now).transcript calls).filterMap (·.2)

/-- A report on measurements is that of a tally of them. -/
theorem exists_details_of_measured {P : Float → Prop} {m : Summary} (h : m.Measured P)
    (hsource : m.source = .monitor) :
    ∃ details time n, (∀ d ∈ details, ∀ x ∈ d.measures, P x) ∧
      m = (Tally.ofDetails .monitor details).summary time n := by
  obtain ⟨settings, now, calls, hcalls, hm⟩ := h hsource
  obtain ⟨closed, last, haccounts⟩ := (Window.holding_start .monitor settings now).accounts calls
  rw [haccounts.reports] at hm
  obtain ⟨i, hi, hreport⟩ := List.mem_iff_getElem.1 hm
  rw [List.getElem_zipWith] at hreport
  refine ⟨_, _, _, ?_, hreport.symm⟩
  intro d hd
  have hmem : d ∈ closed.flatten ++ last := by
    apply List.mem_append_left
    exact List.mem_flatten.2 ⟨_, List.getElem_mem _, hd⟩
  rw [haccounts.all, List.nil_append] at hmem
  obtain ⟨c, hc, hd⟩ := List.mem_flatMap.1 hmem
  cases c with
  | tick => cases hd
  | add r =>
    apply hcalls r hc d
    have hdetail := (List.mem_filter.1 hd).1
    simpa using hdetail

/-- Counts are small. -/
theorem isWithin_counts (counts : List UInt64) :
    ∀ x ∈ counts.map UInt64.toFloat, isWithin 1022 x = true := by
  intro x hx
  obtain ⟨n, -, rfl⟩ := List.mem_map.1 hx
  exact isWithin_mono (by decide) (isWithin_toFloat n)

/-- The numbers of a report on moderate measurements are never too far apart. -/
theorem isWithin_of_measured {m : Summary} (h : m.Measured (isWithin 968 · = true)) :
    ∀ x ∈ m.vector, isWithin 1022 x = true := by
  cases m with
  | syslog s => exact isWithin_counts _
  | trap s => exact isWithin_counts _
  | netflow s => exact isWithin_counts _
  | windowsEvent s => exact isWithin_counts _
  | otelLog s => exact isWithin_counts _
  | mqtt s => exact isWithin_counts _
  | monitor s =>
    obtain ⟨details, time, n, hdetails, hreport⟩ := exists_details_of_measured h rfl
    have htally := Tally.isModerate_ofDetails .monitor hdetails
    have hsource := Tally.source_ofDetails .monitor details
    rw [hreport]
    generalize Tally.ofDetails .monitor details = t at htally hsource
    cases t with
    | monitor sums => exact Tally.isWithin_summary htally _ n
    | _ => cases hsource

end Summary

end LogWatch

/-! ## The pipeline -/

namespace LogWatch.Engine.Pipeline

open Anomaly Report

/-- Every point of a history has been saved. -/
def Drawn (p : Pipeline) : Prop :=
  ∀ source, ∀ q ∈ p.scorer.history source, q ∈ p.store.points source

/-- The point that a request carries has been saved. -/
theorem Due.mem_points {p : Pipeline} {source : SourceType} {time : Time.Instant} {vector : List Float}
    (h : p.Due (.observe source time vector)) : ⟨time, vector⟩ ∈ p.store.points source := by
  obtain ⟨done, hsaved, -⟩ := h.tracks source
  rw [hsaved, pointFor?, if_pos rfl]
  simp

/-- An observation leaves only points in the histories that have been saved. -/
theorem Due.drawn_observe {p : Pipeline} {source : SourceType} {time : Time.Instant}
    {vector : List Float} (h : p.Due (.observe source time vector)) (hdrawn : p.Drawn) :
    (p.serve (.observe source time vector)).Drawn := by
  have hsame := Scoring.sameReports_observe p.store p.scorer source time vector
  intro other q hq
  unfold serve at hq ⊢
  cases hbreaks : Scoring.breaksOff p.store p.scorer source time vector with
  | true =>
    have hhistory := Scoring.history_observe_of_breaksOff h.readable h.inOrder hbreaks
    simpa [hbreaks, hhistory, hsame.points_eq] using hq
  | false =>
    simp only [hbreaks, Bool.false_eq_true, if_false, scorer_work, store_work,
      Scoring.observe_of_not_breaksOff hbreaks] at hq ⊢
    rw [hsame.points_eq]
    by_cases hother : other = source
    · subst hother
      rw [Scorer.history_setHistory_self] at hq
      rcases Scorer.mem_addPoint hq with hpoint | rfl
      · exact hdrawn other q hpoint
      · exact h.mem_points
    · rw [Scorer.history_setHistory_of_ne _ hother] at hq
      exact hdrawn other q hq

/-- Histories that are loaded again have only points that have been saved. -/
theorem Due.drawn_clear {p : Pipeline} {wish : Option SourceType} (h : p.Due (.clear wish))
    (hdrawn : p.Drawn) : (p.serve (.clear wish)).Drawn := by
  intro other q hq
  unfold serve at hq ⊢
  simp only [scorer_noteLoad, scorer_work, store_noteLoad, store_work] at hq ⊢
  cases wish with
  | none => rwa [Scoring.history_clear_none h.readable h.inOrder] at hq
  | some source =>
    by_cases hother : other = source
    · subst hother
      rwa [Scoring.history_clear_some_self h.readable h.inOrder] at hq
    · rw [Scoring.history_clear_some_of_ne h.readable h.inOrder _ hother] at hq
      exact hdrawn other q hq

/-- Every step draws on what has been saved. -/
theorem Drawn.step {p q : Pipeline} (hdrawn : p.Drawn) (h : p.Invariant) (hstep : p.Step q) :
    q.Drawn := by
  cases hstep with
  | @save summary store hnone hnext hsave =>
    intro source point hpoint
    have hsaved := hdrawn source point hpoint
    by_cases hsource : source = summary.source
    · subst hsource
      rw [Store.points_of_saveSummary h.inOrder hnext hsave]
      exact List.mem_append_left _ hsaved
    · rw [Store.points_of_saveSummary_of_ne h.inOrder hnext hsave hsource]
      exact hsaved
  | send => exact hdrawn
  | ask => exact hdrawn
  | @serve request _ hnext =>
    have hdue := h.due hnext
    cases request with
    | observe => exact hdue.drawn_observe hdrawn
    | clear => exact hdue.drawn_clear hdrawn
  | disturb => exact hdrawn

theorem Reachable.drawn {p : Pipeline} (h : p.Reachable) : p.Drawn := by
  induction h with
  | @start settings seed store scorer horder hstart =>
    intro source q hq
    have htracks := (invariant_start horder hstart).tracks source
    have hidle : (Pipeline.start store scorer).inFlight source = [] := by
      simp [inFlight, Pipeline.start]
    have hfew : (Pipeline.start store scorer).backlog.get source ≤ 1 := by
      simp [Pipeline.start]
    rw [hidle] at htracks
    rwa [htracks.idle.1 hfew] at hq
  | step hreachable hstep ih => exact ih.step hreachable.invariant hstep

section Breaking

variable {p : Pipeline} (h : p.Reachable) {source : SourceType} {time : Time.Instant}
  {vector : List Float} {rest : Queue ScoringRequest}
  (hnext : p.requests.next? = some (.observe source time vector, rest)) {σ : Type}
  (choices : Choices σ) (trees sampleSize : Nat)

include h hnext

/-- As long as the reports that have been saved are on measurements of at most two to the power 968, no
observation breaks off in the forest, whatever the generator chooses.  Of reports on anything but
measurements nothing is asked. -/
theorem splittable_of_measured
    (hstored : ∀ e ∈ p.store.summaries.get source, e.summary.Measured (Number.isWithin 968 · = true)) :
    (p.scorer.observeWith (forestScores? choices trees sampleSize) p.store source time vector).1 ≠
      .error .unsplittable := by
  have hpoints : ∀ q ∈ p.store.points source, ∀ x ∈ q.vector, Number.isWithin 1022 x = true := by
    intro q hq
    obtain ⟨e, he, rfl⟩ := List.mem_map.1 hq
    exact Summary.isWithin_of_measured (hstored e he)
  apply Scorer.splittable_of_isWithin
  · intro q hq
    exact hpoints q (h.drawn source q hq)
  · exact hpoints ⟨time, vector⟩ (h.invariant.due hnext).mem_points

/-- An observation breaks off in the forest only at two rows that differ by more than a double holds, and
only after a report has been saved that no measurements of at most two to the power 968 account for. -/
theorem breaks_off_only_at_vast_measures
    (hbreaks : (p.scorer.observeWith (forestScores? choices trees sampleSize) p.store source time
      vector).1 = .error .unsplittable) :
    IsWide (p.scorer.comparedWidth source ⟨time, vector⟩)
        (p.scorer.comparedRows source ⟨time, vector⟩) ∧
      ∃ e ∈ p.store.summaries.get source, ¬e.summary.Measured (Number.isWithin 968 · = true) := by
  constructor
  · exact p.scorer.isWide_of_unsplittable choices trees sampleSize p.store source time vector hbreaks
  · by_contra hall
    push Not at hall
    exact splittable_of_measured h hnext choices trees sampleSize hall hbreaks

end Breaking

/-- A record of some traffic. -/
def recordOf (bytes : Float) : LogRecord :=
  ⟨⟨0, 0⟩, .monitor, "host", "", some (.monitor 1.0 1.0 1.0 1.0 bytes)⟩

/-- The report on the traffic that has been measured in a minute. -/
def trafficOf (minute : Int) (traffic : List Float) : Summary :=
  (Tally.ofDetails .monitor (traffic.map fun x => .monitor 1.0 1.0 1.0 1.0 x)).summary
    ⟨60 * minute, 0⟩ ReportSettings.default.topN

/-- What a window answers that closes after some records. -/
theorem filterMap_transcript {w : Window} {n : Nat} {held : List RecordDetail}
    (h : w.Holding .monitor n held) {later closed : Time.Instant}
    (hclosed : (w.clock.tick later).1 = some closed) (traffic : List Float) :
    (w.transcript (traffic.map (.add <| recordOf ·) ++ [.tick later])).filterMap (·.2) =
      [(Tally.ofDetails .monitor (held ++ traffic.map fun x => .monitor 1.0 1.0 1.0 1.0 x)).summary
        closed n] := by
  induction traffic generalizing w held with
  | nil =>
    have hanswer := (h.tick_some hclosed).1
    simp only [List.map_nil, List.nil_append, List.append_nil, Window.transcript, Window.answer]
    rw [hanswer]
    rfl
  | cons x traffic ih =>
    have hadd := h.add (recordOf x)
    have hnext := ih hadd (by rwa [Window.clock_add])
    rw [List.append_assoc] at hnext
    exact hnext

theorem measured_trafficOf {P : Float → Prop} {minute : Int} {traffic : List Float}
    (hclosed : ((Window.start .monitor .default ⟨60 * minute, 0⟩).clock.tick
      ⟨60 * minute + 60, 0⟩).1 = some ⟨60 * minute, 0⟩)
    (hone : P 1.0) (h : ∀ x ∈ traffic, P x) : (trafficOf minute traffic).Measured P := by
  intro _
  refine ⟨.default, ⟨60 * minute, 0⟩,
    traffic.map (.add <| recordOf ·) ++ [.tick ⟨60 * minute + 60, 0⟩], ?_, ?_⟩
  · intro r hr d hd
    rcases List.mem_append.1 hr with hr | hr
    · obtain ⟨x, hx, hrecord⟩ := List.mem_map.1 hr
      cases hrecord
      cases hd
      simpa [RecordDetail.measures, hone] using h x hx
    · cases List.mem_singleton.1 hr
  · rw [filterMap_transcript (Window.holding_start ..) hclosed]
    exact List.mem_singleton.2 rfl

/-- The error of an observation, if it has failed. -/
def error? : Except ObserveError Outcome → Option ObserveError
  | .error e => some e
  | .ok _ => none

theorem eq_error_of_error? {result : Except ObserveError Outcome} {e : ObserveError}
    (h : error? result = some e) : result = .error e := by
  cases result with
  | error => cases h; rfl
  | ok => cases h

/-- Twice a traffic that is finite, of which the average is not: the third report cannot be scored. -/
theorem finite_measures_break_off :
    ∃ p, Reachable p ∧
      (∀ source, ∀ e ∈ p.store.summaries.get source,
        e.summary.Measured (Number.isFinite · = true)) ∧
      ∃ rest, p.requests.next? = some (.ofSummary (trafficOf 2 [1.0]), rest) ∧
        (p.scorer.observe p.store .monitor ⟨120, 0⟩ (trafficOf 2 [1.0]).vector).1 =
          .error .unsplittable ∧
        IsWide (p.scorer.comparedWidth .monitor ⟨⟨120, 0⟩, (trafficOf 2 [1.0]).vector⟩)
          (p.scorer.comparedRows .monitor ⟨⟨120, 0⟩, (trafficOf 2 [1.0]).vector⟩) ∧
        ∃ e ∈ p.store.summaries.get .monitor,
          ¬e.summary.Measured (Number.isWithin 968 · = true) := by
  have hempty : Store.empty.InOrder :=
    Store.inOrder_of_empty fun source => PerSource.get_const _ source
  have h := @Reachable.start { AnomalySettings.default with minPoints := 3 } 0 _ _ hempty rfl
  have h := h.step (@Step.save _ (trafficOf 0 [1.7e308, 1.7e308]) _ rfl (List.forall_mem_nil _) rfl)
  have h := h.step (@Step.send _ (trafficOf 0 [1.7e308, 1.7e308]) rfl rfl)
  have h := h.step (.serve rfl)
  have h := h.step (@Step.save _ (trafficOf 1 [1.0]) _ rfl (by
    intro e he
    rw [List.mem_singleton.1 he]
    exact ⟨by decide, by decide⟩) rfl)
  have h := h.step (@Step.send _ (trafficOf 1 [1.0]) rfl rfl)
  have h := h.step (.serve rfl)
  have h := h.step (@Step.save _ (trafficOf 2 [1.0]) _ rfl (by
    intro e he
    rcases List.mem_pair.1 he with rfl | rfl
    · exact ⟨by decide, by decide⟩
    · exact ⟨by decide, by decide⟩) rfl)
  have h := h.step (@Step.send _ (trafficOf 2 [1.0]) rfl rfl)
  have hone : Number.isFinite 1.0 = true := by decide +kernel
  have hordinary : ∀ x ∈ [1.0], Number.isFinite x = true := by decide +kernel
  have hhuge : ∀ x ∈ [1.7e308, 1.7e308], Number.isFinite x = true := by decide +kernel
  refine ⟨_, h, ?_, _, rfl, ?breaks, breaks_off_only_at_vast_measures h rfl _ _ _ ?breaks⟩
  · intro source e he
    cases source with
    | monitor =>
      rcases List.mem_cons.1 he with rfl | he
      · exact measured_trafficOf (by decide +kernel) hone hhuge
      · rcases List.mem_pair.1 he with rfl | rfl
        · exact measured_trafficOf (by decide +kernel) hone hordinary
        · exact measured_trafficOf (by decide +kernel) hone hordinary
    | _ => cases he
  · apply eq_error_of_error?
    decide +kernel

end LogWatch.Engine.Pipeline
