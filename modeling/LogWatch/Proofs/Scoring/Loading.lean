import LogWatch.Engine.Scoring
import LogWatch.Proofs.Scoring.WindowStarts

/-!
# What the scorer loads

The store keeps the reports of a source in the order in which they were flushed, so the scorer finds the
points of all flushes when it loads a history.

* `Store.InOrder` — the reports of each source stand in the order of their times;
* `Store.points_of_saveSummary` — a flush adds its point behind all others;
* `Store.storedPoints_eq` — the scorer finds the points of all reports;
* `Scoring.history_clear_none`, `Scoring.history_restart` — histories that are loaded are those of the
  store;
* `Scoring.observe_of_not_breaksOff`, `Scoring.history_observe_of_breaksOff` — an observation adds its
  point, or all histories are loaded anew.
-/

namespace LogWatch

open Time Anomaly

namespace Store

/-- The points of a source that the store holds. -/
def points (store : Store) (source : SourceType) : List HistoryPoint :=
  (store.summaries.get source).map fun e => Scorer.pointOf e.summary

/-- The reports of each source have been saved under their times, one after the other. -/
structure InOrder (store : Store) : Prop where
  place : ∀ source, ∀ e ∈ store.summaries.get source,
    e.nanos = e.summary.time.clampedNanos ∧ e.number ≤ store.saved
  ascending : ∀ source, (store.summaries.get source).Pairwise fun e f =>
    e.summary.time < f.summary.time

/-- The store can be read. -/
def IsReadable (store : Store) : Prop :=
  store.available .visitSummaries = .ok ()

/-- A store with the same reports, and no other faults: scores and notifications may differ. -/
structure SameReports (a b : Store) : Prop where
  summaries : a.summaries = b.summaries
  saved : a.saved = b.saved
  outages : a.outages = b.outages
  poisoned : a.poisoned = b.poisoned

theorem SameReports.refl (a : Store) : a.SameReports a :=
  ⟨rfl, rfl, rfl, rfl⟩

theorem SameReports.points_eq {a b : Store} (h : a.SameReports b) (source : SourceType) :
    a.points source = b.points source := by
  rw [points, h.summaries, points]

theorem SameReports.inOrder {a b : Store} (h : a.SameReports b) (hb : b.InOrder) : a.InOrder := by
  constructor
  · rw [h.summaries, h.saved]
    exact hb.place
  · rw [h.summaries]
    exact hb.ascending

theorem SameReports.isReadable {a b : Store} (h : a.SameReports b) (hb : b.IsReadable) :
    a.IsReadable := by
  rw [IsReadable, available, h.outages, h.poisoned]
  exact hb

/-- The points of a source ascend. -/
theorem InOrder.ascending_points {store : Store} (h : store.InOrder) (source : SourceType) :
    (store.points source).Pairwise fun p q => p.time < q.time := by
  rw [points, List.pairwise_map]
  exact h.ascending source

/-- A store without reports is in order. -/
theorem inOrder_of_empty {store : Store} (h : ∀ source, store.summaries.get source = []) :
    store.InOrder := by
  constructor
  · intro source e he
    rw [h source] at he
    cases he
  · intro source
    rw [h source]
    exact List.Pairwise.nil

/-! ## Saving -/

/-- What is later than everything is put behind everything. -/
theorem insertSummary_eq_append {e : StoredSummary} {entries : List StoredSummary}
    (h : ∀ f ∈ entries, f.nanos ≤ e.nanos ∧ f.number < e.number) :
    insertSummary e entries = entries ++ [e] := by
  induction entries with
  | nil => rfl
  | cons f entries ih =>
    rw [List.forall_mem_cons] at h
    rw [insertSummary, if_neg (by omega), ih h.2, List.cons_append]

/-- A summary follows all reports of its source. -/
def IsNext (store : Store) (summary : Summary) : Prop :=
  ∀ e ∈ store.summaries.get summary.source, e.summary.time.Precedes summary.time

/-- A saved summary stands behind the others of its source, and nothing else has changed. -/
theorem saveSummary_eq_ok {store store' : Store} {summary : Summary} (horder : store.InOrder)
    (hnext : store.IsNext summary) (h : store.saveSummary summary = .ok store') :
    store' =
      { store with
        saved := store.saved + 1
        summaries := store.summaries.set summary.source (store.summaries.get summary.source ++
          [⟨summary.time.clampedNanos, store.saved + 1, summary⟩]) } := by
  rw [saveSummary] at h
  split at h
  · cases h
  · cases h
    have hplace := horder.place summary.source
    rw [insertSummary_eq_append]
    intro f hf
    obtain ⟨hnanos, hnumber⟩ := hplace f hf
    rw [hnanos]
    exact ⟨(hnext f hf).2, Nat.lt_succ_of_le hnumber⟩

section Saving

variable {store store' : Store} {summary : Summary} (horder : store.InOrder)
  (hnext : store.IsNext summary) (h : store.saveSummary summary = .ok store')

include horder hnext h

/-- A flush adds its point behind all others of its source. -/
theorem points_of_saveSummary :
    store'.points summary.source = store.points summary.source ++ [Scorer.pointOf summary] := by
  rw [saveSummary_eq_ok horder hnext h, points, PerSource.get_set_self, List.map_append]
  rfl

theorem points_of_saveSummary_of_ne {source : SourceType} (hne : source ≠ summary.source) :
    store'.points source = store.points source := by
  rw [saveSummary_eq_ok horder hnext h, points, PerSource.get_set_of_ne _ hne, points]

theorem isReadable_of_saveSummary (hreadable : store.IsReadable) : store'.IsReadable := by
  rw [saveSummary_eq_ok horder hnext h]
  exact hreadable

/-- A flush keeps the store in order. -/
theorem inOrder_of_saveSummary : store'.InOrder := by
  rw [saveSummary_eq_ok horder hnext h]
  constructor
  · intro source e he
    by_cases hsource : source = summary.source
    · subst hsource
      rw [PerSource.get_set_self, List.mem_append, List.mem_singleton] at he
      rcases he with he | rfl
      · obtain ⟨hnanos, hnumber⟩ := horder.place _ e he
        exact ⟨hnanos, Nat.le_succ_of_le hnumber⟩
      · exact ⟨rfl, Nat.le_refl _⟩
    · rw [PerSource.get_set_of_ne _ hsource] at he
      obtain ⟨hnanos, hnumber⟩ := horder.place _ e he
      exact ⟨hnanos, Nat.le_succ_of_le hnumber⟩
  · intro source
    by_cases hsource : source = summary.source
    · subst hsource
      rw [PerSource.get_set_self, List.pairwise_append]
      refine ⟨horder.ascending _, List.pairwise_singleton _ _, ?_⟩
      intro e he f hf
      rw [List.mem_singleton.1 hf]
      exact (hnext e he).1
    · rw [PerSource.get_set_of_ne _ hsource]
      exact horder.ascending source

end Saving

/-! ## Visiting -/

/-- A visitor that never declines is shown everything. -/
theorem visitWhile_append {α β : Type} (f : α → β) {entries : List α} (seen : List β) :
    visitWhile (fun seen a => (seen ++ [f a], true)) entries seen = seen ++ entries.map f := by
  induction entries generalizing seen with
  | nil => rw [visitWhile, List.map_nil, List.append_nil]
  | cons e entries ih =>
    rw [visitWhile]
    dsimp only
    rw [ih, List.append_assoc, List.map_cons, List.singleton_append]

/-- The whole calendar is more than nanoseconds can tell. -/
theorem clampedNanos_between (t : Instant) :
    Instant.earliest.clampedNanos ≤ t.clampedNanos ∧
      t.clampedNanos ≤ Instant.latest.clampedNanos := by
  have hfirst : Instant.earliest.clampedNanos = -0x8000000000000000 := by decide
  have hlast : Instant.latest.clampedNanos = 0x7fffffffffffffff := by decide
  have ht := t.clampedNanos_cases
  omega

/-- The scorer finds the points of all reports. -/
theorem storedPoints_eq {store : Store} (hreadable : store.IsReadable) (horder : store.InOrder)
    (source : SourceType) : Scorer.storedPoints store source = .ok (store.points source) := by
  rw [Scorer.storedPoints, visitSummaries, hreadable]
  dsimp only
  split
  · rename_i hempty
    rw [points, List.isEmpty_iff.1 hempty, List.map_nil]
  · have hnot : ¬ Instant.latest.clampedNanos < Instant.earliest.clampedNanos := by decide
    have hall : (store.summaries.get source).filter (fun e =>
        Instant.earliest.clampedNanos ≤ e.nanos && e.nanos ≤ Instant.latest.clampedNanos) =
          store.summaries.get source := by
      rw [List.filter_eq_self]
      intro e he
      rw [(horder.place source e he).1]
      simpa using clampedNanos_between e.summary.time
    rw [if_neg hnot, hall, visitWhile_append, List.nil_append, List.map_map, points]
    rfl

end Store

/-! ## Loading -/

namespace Anomaly.Scorer

@[simp] theorem history_setHistory_self (s : Scorer) (source : SourceType)
    (points : List HistoryPoint) : (s.setHistory source points).history source = points := by
  rw [history, setHistory, PerSource.get_set_self]

@[simp] theorem history_setHistory_of_ne (s : Scorer) {source other : SourceType}
    (h : other ≠ source) (points : List HistoryPoint) :
    (s.setHistory source points).history other = s.history other := by
  rw [history, setHistory, PerSource.get_set_of_ne _ h, history]

section Loading

variable {store : Store} (hreadable : store.IsReadable) (horder : store.InOrder)

include hreadable horder

theorem load_eq (s : Scorer) (source : SourceType) :
    s.load store source =
      (.ok (store.points source).length, s.setHistory source (store.points source)) := by
  rw [load, Store.storedPoints_eq hreadable horder]

/-- The sources that are loaded have the histories of the store, the others keep theirs. -/
theorem history_loadEach (s : Scorer) (sources : List SourceType) (source : SourceType) :
    (s.loadEach store sources).2.history source =
      if source ∈ sources then store.points source else s.history source := by
  induction sources generalizing s with
  | nil => simp [loadEach]
  | cons first sources ih =>
    rw [loadEach, load_eq hreadable horder]
    dsimp only
    rw [ih]
    by_cases hmem : source ∈ sources
    · simp [hmem]
    · by_cases hfirst : source = first
      · simp [hfirst]
      · simp [hmem, hfirst]

theorem history_loadEach_all (s : Scorer) (source : SourceType) :
    (s.loadEach store SourceType.all).2.history source = store.points source := by
  have hmem : source ∈ SourceType.all := by cases source <;> decide
  rw [history_loadEach hreadable horder, if_pos hmem]

end Loading

/-- A store from which all histories have been loaded can be read. -/
theorem isReadable_of_loadAll {store : Store} {s s' : Scorer}
    (h : s.loadAll store = (.ok (), s')) : store.IsReadable := by
  rw [Store.IsReadable]
  cases havailable : store.available .visitSummaries with
  | ok => rfl
  | error e =>
    rw [loadAll, SourceType.all, loadEach, load, storedPoints, Store.visitSummaries,
      havailable] at h
    cases h

end Anomaly.Scorer

namespace Engine.Scoring

section Loading

variable {store : Store} (hreadable : store.IsReadable) (horder : store.InOrder)

include hreadable horder

/-- After all histories have been forgotten they are those of the store. -/
theorem history_clear_none (s : Scorer) (source : SourceType) :
    (clear store s none).2.history source = store.points source :=
  Scorer.history_loadEach_all hreadable horder _ source

theorem history_clear_some_self (s : Scorer) (source : SourceType) :
    (clear store s (some source)).2.history source = store.points source := by
  rw [clear, Scorer.clear, Scorer.load_eq hreadable horder]
  exact Scorer.history_setHistory_self ..

theorem history_clear_some_of_ne (s : Scorer) {source other : SourceType} (h : other ≠ source) :
    (clear store s (some source)).2.history other = s.history other := by
  rw [clear, Scorer.clear, Scorer.load_eq hreadable horder]
  simp [h]

/-- After its work broke off the scorer has the histories of the store. -/
theorem history_restart (s : Scorer) (source : SourceType) :
    (restart store s).history source = store.points source :=
  Scorer.history_loadEach_all hreadable horder _ source

end Loading

/-! ## Observing -/

/-- Does the work of the scorer break off? -/
def breaksOff (store : Store) (s : Scorer) (source : SourceType) (time : Instant)
    (vector : List Float) : Bool :=
  match (s.observe store source time vector).1 with
  | .error .unsplittable | .error (.store .brokenOff) => true
  | _ => false

theorem exists_of_saveScores {store store' : Store} {source : SourceType}
    {scores : List AnomalyScore} (h : store.saveScores source scores = .ok store') :
    ∃ saved, store' = { store with scores := saved } := by
  rw [Store.saveScores] at h
  split at h
  · cases h
  · split at h
    · cases h
    · cases h
      exact ⟨_, rfl⟩

/-- Whatever comes of an observation, the scorer has its point, and of the store the scores at most have
changed. -/
theorem exists_scorer_observe (store : Store) (s : Scorer) (source : SourceType) (time : Instant)
    (vector : List Float) :
    ∃ saved, (s.observe store source time vector).2 =
      (s.setHistory source (Scorer.addPoint (s.history source) ⟨time, vector⟩),
        { store with scores := saved }) := by
  simp only [Scorer.observe, Scorer.observeWith]
  split
  · exact ⟨store.scores, rfl⟩
  · split
    · exact ⟨store.scores, rfl⟩
    · split
      · exact ⟨store.scores, rfl⟩
      · split
        · exact ⟨store.scores, rfl⟩
        · rename_i hsave
          obtain ⟨saved, rfl⟩ := exists_of_saveScores hsave
          exact ⟨saved, rfl⟩

theorem scorer_observe (store : Store) (s : Scorer) (source : SourceType) (time : Instant)
    (vector : List Float) :
    (s.observe store source time vector).2.1 =
      s.setHistory source (Scorer.addPoint (s.history source) ⟨time, vector⟩) ∧
    (s.observe store source time vector).2.2.SameReports store := by
  obtain ⟨saved, hobserve⟩ := exists_scorer_observe store s source time vector
  rw [hobserve]
  exact ⟨rfl, ⟨rfl, rfl, rfl, rfl⟩⟩

section Observing

variable (store : Store) (s : Scorer) (source : SourceType) (time : Instant) (vector : List Float)

/-- An observation does not touch the reports. -/
theorem sameReports_observe : (observe store s source time vector).2.2.SameReports store := by
  have h := (scorer_observe store s source time vector).2
  rw [observe]
  split <;> rename_i heq <;> rw [heq] at h
  · exact h
  · exact h
  · exact h
  · exact ⟨h.summaries, h.saved, h.outages, h.poisoned⟩
  · exact h

variable {store s source time vector}

/-- An observation adds its point, unless the work breaks off. -/
theorem observe_of_not_breaksOff (h : breaksOff store s source time vector = false) :
    (observe store s source time vector).2.1 =
      s.setHistory source (Scorer.addPoint (s.history source) ⟨time, vector⟩) := by
  have hpoint := (scorer_observe store s source time vector).1
  rw [breaksOff] at h
  rw [observe]
  split <;> rename_i heq <;> rw [heq] at h hpoint
  · exact hpoint
  · exact hpoint
  · cases h
  · cases h
  · exact hpoint

/-- If the work breaks off, the histories are those of the store. -/
theorem history_observe_of_breaksOff (hreadable : store.IsReadable) (horder : store.InOrder)
    (h : breaksOff store s source time vector = true) (other : SourceType) :
    (observe store s source time vector).2.1.history other = store.points other := by
  have hsame := (scorer_observe store s source time vector).2
  rw [breaksOff] at h
  rw [observe]
  split <;> rename_i heq <;> rw [heq] at h hsame
  · cases h
  · cases h
  · rw [history_restart (hsame.isReadable hreadable) (hsame.inOrder horder), hsame.points_eq]
  · rename_i scorer store'
    have hsame' : ({ store' with breaking := false } : Store).SameReports store :=
      ⟨hsame.summaries, hsame.saved, hsame.outages, hsame.poisoned⟩
    rw [history_restart (hsame'.isReadable hreadable) (hsame'.inOrder horder), hsame'.points_eq]
  · rename_i fault scorer store' hunsplittable hbroken
    cases fault with
    | degenerate => cases h
    | unsplittable => exact (hunsplittable rfl).elim
    | store error =>
      cases error with
      | poisoned => cases h
      | storage => cases h
      | reversedRange => cases h
      | brokenOff => exact (hbroken rfl).elim

end Observing

end Engine.Scoring

end LogWatch
