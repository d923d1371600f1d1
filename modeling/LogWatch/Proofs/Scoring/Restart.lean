import LogWatch.Proofs.Report.Visits
import LogWatch.Proofs.Scoring.Pipeline
import Mathlib.Data.List.Forall2

/-!
# Scorers that start again

Several scorers share a store.  Each summary is saved and then observed by all of them, and in between
scorers forget histories and load them again, or new scorers join that have loaded what there is.  None of
this can be told from what comes of the observations, as long as the store keeps the summaries of each
source in the order in which they come.

* `Session`, `Session.run` — scorers that share a store, and what they make of some summaries;
* `Session.Holds` — the store has all summaries, and each scorer has them or lacks only the one that is
  about to be observed;
* `verdict` — what comes of a summary for a scorer that has observed some others;
* `Session.restart_transparent` — all scorers have the histories and make of each summary what a single
  scorer makes of it that is left alone;
* `Session.leapSecond_doubles` — a summary of a leap second comes twice.
-/

namespace LogWatch.Anomaly

open Time Engine

/-! ## Sessions -/

/-- What may happen to scorers while they wait. -/
inductive Interlude where
  /-- One of them forgets the history of a source, or all of them, and loads again. -/
  | forget (who : Nat) (source : Option SourceType)
  /-- A new one loads all histories. -/
  | join

/-- A summary, with what happens before it is saved and before it is observed. -/
structure Round where
  early : List Interlude
  summary : Summary
  late : List Interlude

/-- A summary that is saved and observed while nothing else happens. -/
def Round.plain (summary : Summary) : Round :=
  ⟨[], summary, []⟩

/-- What comes of an observation. -/
abbrev Answer : Type :=
  Except ObserveError Outcome

/-- Scorers that share a store. -/
structure Session where
  store : Store
  scorers : List Scorer

namespace Session

/-- All scorers observe a summary, one after the other. -/
def observeEach (summary : Summary) : Store → List Scorer → List Answer × Session
  | store, [] => ([], ⟨store, []⟩)
  | store, s :: rest =>
    let first := s.observe store summary.source summary.time summary.vector
    let others := observeEach summary first.2.2 rest
    (first.1 :: others.1, ⟨others.2.store, first.2.1 :: others.2.scorers⟩)

section Settings

variable (settings : AnomalySettings) (seed : UInt64)

/-- A scorer on its own with an empty store. -/
def start : Session :=
  ⟨.empty, [.start settings seed]⟩

/-- The scorers after something has happened. -/
def interlude (σ : Session) : Interlude → Session
  | .forget who source =>
    { σ with scorers := σ.scorers.modify who fun s => (Scoring.clear σ.store s source).2 }
  | .join => { σ with scorers := σ.scorers ++ [((Scorer.start settings seed).loadAll σ.store).2] }

/-- The scorers after a summary has been saved and observed, and what has come of it. -/
def play (σ : Session) (r : Round) : List Answer × Session :=
  let early := r.early.foldl (interlude settings seed) σ
  let saved := { early with store := storeSummary early.store r.summary }
  let late := r.late.foldl (interlude settings seed) saved
  observeEach r.summary late.store late.scorers

/-- The scorers after some rounds, and what has come of the summaries. -/
def run (σ : Session) : List Round → List (List Answer) × Session
  | [] => ([], σ)
  | r :: rest =>
    let played := σ.play settings seed r
    let others := played.2.run rest
    (played.1 :: others.1, others.2)

end Settings

end Session

/-- The points of a source that summaries add. -/
def pointsOf (source : SourceType) (summaries : List Summary) : List HistoryPoint :=
  (summaries.filter fun m => m.source = source).map Scorer.pointOf

/-- What comes of a summary for a scorer that has observed some others. -/
def verdict (settings : AnomalySettings) (seed : UInt64) (seen : List Summary) (m : Summary) :
    Answer :=
  (((Scorer.start settings seed).setHistory m.source (pointsOf m.source seen)).observe .empty m.source
    m.time m.vector).1

/-- What comes of summaries for a scorer that has observed some others before. -/
def verdicts (settings : AnomalySettings) (seed : UInt64) (seen : List Summary) :
    List Summary → List Answer
  | [] => []
  | m :: rest => verdict settings seed seen m :: verdicts settings seed (seen ++ [m]) rest

/-- Of one source every summary comes before the next one, and the store does not sort it behind. -/
def IsSuccessive (summaries : List Summary) : Prop :=
  summaries.Pairwise fun a b => a.source = b.source → a.time.Precedes b.time

/-- Summaries of ascending times are successive where no leap seconds occur. -/
theorem isSuccessive_of_lt {summaries : List Summary} (hleap : ∀ m ∈ summaries, m.time.isLeap = false)
    (h : summaries.Pairwise fun a b => a.source = b.source → a.time < b.time) :
    IsSuccessive summaries :=
  h.imp_of_mem fun ha hb hlt hsource =>
    Instant.precedes_of_lt (hleap _ ha) (hleap _ hb) (hlt hsource)

/-! ## Stores -/

theorem pointsOf_append (source : SourceType) (a b : List Summary) :
    pointsOf source (a ++ b) = pointsOf source a ++ pointsOf source b := by
  rw [pointsOf, List.filter_append, List.map_append, pointsOf, pointsOf]

theorem pointsOf_self (m : Summary) : pointsOf m.source [m] = [Scorer.pointOf m] := by
  rw [pointsOf, List.filter_cons_of_pos (by simp), List.filter_nil, List.map_singleton]

theorem pointsOf_of_ne {source : SourceType} {m : Summary} (h : source ≠ m.source) :
    pointsOf source [m] = [] := by
  rw [pointsOf, List.filter_cons_of_neg (by simpa using Ne.symm h), List.filter_nil, List.map_nil]

/-- A store that keeps some summaries in the order in which they have come. -/
structure Keeps (store : Store) (summaries : List Summary) : Prop where
  usable : store.IsUsable
  inOrder : store.InOrder
  points_eq : ∀ source, store.points source = pointsOf source summaries

namespace Keeps

variable {store store' : Store} {summaries : List Summary} (h : Keeps store summaries)

include h

theorem isReadable : store.IsReadable :=
  h.usable.available_eq _

/-- A summary that all others of its source precede comes next. -/
theorem isNext {m : Summary}
    (hprecede : ∀ a ∈ summaries, a.source = m.source → a.time.Precedes m.time) :
    store.IsNext m := by
  intro e he
  have hpoint : Scorer.pointOf e.summary ∈ pointsOf m.source summaries := by
    rw [← h.points_eq, Store.points]
    exact List.mem_map_of_mem he
  obtain ⟨a, ha, hsame⟩ := List.mem_map.1 hpoint
  obtain ⟨hmem, hsource⟩ := List.mem_filter.1 ha
  have htime : a.time = e.summary.time := congrArg HistoryPoint.time hsame
  rw [← htime]
  exact hprecede a hmem (of_decide_eq_true hsource)

theorem sameReports (hsame : store'.SameReports store) (hbreaking : store'.breaking = false) :
    Keeps store' summaries where
  usable := ⟨hsame.outages.trans h.usable.outages, hsame.poisoned.trans h.usable.poisoned, hbreaking⟩
  inOrder := hsame.inOrder h.inOrder
  points_eq source := (hsame.points_eq source).trans (h.points_eq source)

/-- The summary that comes next is kept behind the others. -/
theorem save {m : Summary} (hnext : store.IsNext m) :
    Keeps (storeSummary store m) (summaries ++ [m]) := by
  have hsave : ∃ saved, store.saveSummary m = .ok saved := by
    rw [Store.saveSummary, h.usable.available_eq]
    exact ⟨_, rfl⟩
  obtain ⟨saved, hsaved⟩ := hsave
  rw [storeSummary, hsaved]
  refine ⟨?_, Store.inOrder_of_saveSummary h.inOrder hnext hsaved, fun source => ?_⟩
  · rw [Store.saveSummary_eq_ok h.inOrder hnext hsaved]
    exact ⟨h.usable.outages, h.usable.poisoned, h.usable.breaking⟩
  · rw [pointsOf_append, ← h.points_eq]
    by_cases hsource : source = m.source
    · subst hsource
      rw [Store.points_of_saveSummary h.inOrder hnext hsaved, pointsOf_self]
    · rw [Store.points_of_saveSummary_of_ne h.inOrder hnext hsaved hsource, pointsOf_of_ne hsource,
        List.append_nil]

end Keeps

theorem keeps_empty : Keeps .empty [] where
  usable := Store.mirrors_empty.usable
  inOrder := Store.inOrder_of_empty fun source => PerSource.get_const _ source
  points_eq source := by
    rw [Store.points, Store.empty, PerSource.get_const]
    rfl

/-! ## Scorers -/

namespace Scorer

/-- A scorer works with the same settings and seed as another one. -/
def IsLike (s t : Scorer) : Prop :=
  s.settings = t.settings ∧ s.seed = t.seed

theorem isLike_load (store : Store) (s : Scorer) (source : SourceType) :
    (s.load store source).2.IsLike s := by
  rw [load]
  split
  · exact ⟨rfl, rfl⟩
  · exact ⟨rfl, rfl⟩

theorem isLike_loadEach (store : Store) (s : Scorer) (sources : List SourceType) :
    (s.loadEach store sources).2.IsLike s := by
  induction sources generalizing s with
  | nil => exact ⟨rfl, rfl⟩
  | cons source rest ih =>
    have hload := isLike_load store s source
    rw [loadEach]
    split <;> rename_i heq <;> rw [heq] at hload
    · exact hload
    · exact ⟨(ih _).1.trans hload.1, (ih _).2.trans hload.2⟩

theorem isLike_clear (store : Store) (s : Scorer) (source : Option SourceType) :
    (Scoring.clear store s source).2.IsLike s := by
  cases source with
  | none => exact isLike_loadEach store s.blank SourceType.all
  | some source =>
    have hload := isLike_load store (s.setHistory source []) source
    rw [Scoring.clear]
    split <;> rename_i heq <;> rw [Scorer.clear] at heq <;> rw [heq] at hload
    · exact hload
    · exact hload

section Observing

variable {a b : Store} {s t : Scorer} {source : SourceType} {time : Instant} {vector : List Float}

/-- What comes of an observation depends on the history with its point only. -/
theorem observe_fst_congr (ha : a.IsUsable) (hb : b.IsUsable) (hlike : s.IsLike t)
    (hhistory : addPoint (s.history source) ⟨time, vector⟩ =
      addPoint (t.history source) ⟨time, vector⟩) :
    (s.observe a source time vector).1 = (t.observe b source time vector).1 := by
  have hsave : ∀ {store : Store}, store.IsUsable → ∀ scores, ∃ saved,
      store.saveScores source scores = .ok saved := by
    intro store hstore scores
    rw [Store.saveScores, hstore.breaking, hstore.available_eq]
    exact ⟨_, rfl⟩
  obtain ⟨settings, seed, histories⟩ := s
  obtain ⟨settings', seed', others⟩ := t
  obtain ⟨rfl, rfl⟩ := hlike
  rw [observe, observeWith, observe, observeWith, hhistory]
  dsimp only [setHistory]
  generalize addPoint (history ⟨settings, seed, others⟩ source) ⟨time, vector⟩ = points
  by_cases hfew :
      (points.filter fun p => p.vector.length == vector.length).length < settings.minPoints
  · simp only [hfew, ↓reduceIte]
    rfl
  · simp only [hfew, ↓reduceIte]
    split
    · rfl
    · split
      · rfl
      · rename_i calibrated _
        obtain ⟨saved, hsaved⟩ := hsave ha (scoresOf _ _ calibrated)
        obtain ⟨saved', hsaved'⟩ := hsave hb (scoresOf _ _ calibrated)
        rw [hsaved, hsaved']

/-- An observation does not change whether saving breaks off. -/
theorem breaking_observe : (s.observe a source time vector).2.2.breaking = a.breaking := by
  obtain ⟨saved, hobserve⟩ := Scoring.exists_scorer_observe a s source time vector
  rw [hobserve]

end Observing

/-- A scorer has the points of all summaries that it has observed.  The point of a summary that is saved but
not observed yet may have been loaded. -/
structure Knows (settings : AnomalySettings) (seed : UInt64) (seen pending : List Summary)
    (s : Scorer) : Prop where
  isLike : s.IsLike (.start settings seed)
  history : ∀ source, s.history source = pointsOf source seen ∨
    s.history source = pointsOf source (seen ++ pending)

section Knowing

variable {settings : AnomalySettings} {seed : UInt64} {seen pending : List Summary} {s : Scorer}
  {store : Store} {m : Summary}

theorem Knows.history_eq (h : s.Knows settings seed seen []) (source : SourceType) :
    s.history source = pointsOf source seen := by
  have hhistory := h.history source
  rwa [List.append_nil, or_self] at hhistory

/-- When a summary is saved its point is not there yet. -/
theorem Knows.pend (h : s.Knows settings seed seen []) (m : Summary) :
    s.Knows settings seed seen [m] :=
  ⟨h.isLike, fun source => Or.inl (h.history_eq source)⟩

theorem loadEach_fst (hkeeps : Keeps store (seen ++ pending)) (s : Scorer)
    (sources : List SourceType) : (s.loadEach store sources).1 = .ok () := by
  induction sources generalizing s with
  | nil => rfl
  | cons source rest ih =>
    rw [loadEach, load_eq hkeeps.isReadable hkeeps.inOrder]
    exact ih _

/-- A scorer that loads all histories knows what the store keeps. -/
theorem knows_loadAll (hkeeps : Keeps store (seen ++ pending)) :
    ((start settings seed).loadAll store).2.Knows settings seed seen pending := by
  refine ⟨isLike_loadEach .., fun source => Or.inr ?_⟩
  rw [loadAll, history_loadEach_all hkeeps.isReadable hkeeps.inOrder, hkeeps.points_eq]

/-- What is forgotten is loaded again. -/
theorem Knows.clear (h : s.Knows settings seed seen pending)
    (hkeeps : Keeps store (seen ++ pending)) (source : Option SourceType) :
    (Scoring.clear store s source).2.Knows settings seed seen pending := by
  have hlike := isLike_clear store s source
  refine ⟨⟨hlike.1.trans h.isLike.1, hlike.2.trans h.isLike.2⟩, fun other => ?_⟩
  cases source with
  | none =>
    rw [Scoring.history_clear_none hkeeps.isReadable hkeeps.inOrder, hkeeps.points_eq]
    exact Or.inr rfl
  | some source =>
    by_cases hother : other = source
    · subst hother
      rw [Scoring.history_clear_some_self hkeeps.isReadable hkeeps.inOrder, hkeeps.points_eq]
      exact Or.inr rfl
    · rw [Scoring.history_clear_some_of_ne hkeeps.isReadable hkeeps.inOrder _ hother]
      exact h.history other

variable (hprecede : ∀ a ∈ seen, a.source = m.source → a.time.Precedes m.time)

include hprecede

/-- Whether the point of a summary has been loaded or not, it is there once it has been observed. -/
theorem addPoint_eq {points : List HistoryPoint} (h : points = pointsOf m.source seen ∨
    points = pointsOf m.source (seen ++ [m])) :
    addPoint points (pointOf m) = pointsOf m.source (seen ++ [m]) := by
  rw [pointsOf_append, pointsOf_self] at *
  -- A point that has been loaded is the newest one, and is replaced by itself.
  rcases h with rfl | rfl
  · refine Tracks.addPoint_of_ne fun q hq heq => ?_
    obtain ⟨a, ha, rfl⟩ := List.mem_map.1 (List.mem_of_getLast? hq)
    obtain ⟨hmem, hsource⟩ := List.mem_filter.1 ha
    have hlt := (hprecede a hmem (of_decide_eq_true hsource)).1
    have htime : a.time = m.time := heq
    rw [htime] at hlt
    exact Instant.lt_irrefl _ hlt
  · exact Tracks.addPoint_concat_self _ _

/-- What comes of a summary depends on the summaries before it, and not on what has been loaded when. -/
theorem Knows.observe_fst (h : s.Knows settings seed seen [m]) (hkeeps : Keeps store (seen ++ [m])) :
    (s.observe store m.source m.time m.vector).1 = verdict settings seed seen m := by
  refine observe_fst_congr hkeeps.usable Store.mirrors_empty.usable h.isLike ?_
  rw [history_setHistory_self]
  exact (addPoint_eq hprecede (h.history m.source)).trans
    (addPoint_eq hprecede (Or.inl rfl)).symm

theorem Knows.observe (h : s.Knows settings seed seen [m]) :
    (s.observe store m.source m.time m.vector).2.1.Knows settings seed (seen ++ [m]) [] := by
  rw [(Scoring.scorer_observe ..).1]
  refine ⟨h.isLike, fun source => Or.inl ?_⟩
  by_cases hsource : source = m.source
  · subst hsource
    rw [history_setHistory_self]
    exact addPoint_eq hprecede (h.history _)
  · have hhistory := h.history source
    rw [pointsOf_append, pointsOf_of_ne hsource, List.append_nil, or_self] at hhistory
    rw [history_setHistory_of_ne _ hsource, pointsOf_append, pointsOf_of_ne hsource,
      List.append_nil, hhistory]

end Knowing

end Scorer

/-! ## Rounds -/

namespace Session

section Rounds

variable (settings : AnomalySettings) (seed : UInt64)

/-- The store keeps all summaries, and every scorer knows those that have been observed. -/
structure Holds (seen pending : List Summary) (σ : Session) : Prop where
  keeps : Keeps σ.store (seen ++ pending)
  knows : ∀ s ∈ σ.scorers, s.Knows settings seed seen pending
  ne_nil : σ.scorers ≠ []

theorem holds_start : (start settings seed).Holds settings seed [] [] where
  keeps := keeps_empty
  knows s hs := by
    rw [List.mem_singleton.1 hs]
    exact ⟨⟨rfl, rfl⟩, fun source => Or.inl (PerSource.get_const _ source)⟩
  ne_nil := List.cons_ne_nil _ _

theorem forall_mem_modify {α : Type} {P : α → Prop} {f : α → α} (hf : ∀ a, P a → P (f a))
    {as : List α} (h : ∀ a ∈ as, P a) (i : Nat) : ∀ a ∈ as.modify i f, P a := by
  induction as generalizing i with
  | nil =>
    rw [List.modify_nil]
    exact h
  | cons a as ih =>
    rw [List.forall_mem_cons] at h
    cases i with
    | zero =>
      rw [List.modify_zero_cons, List.forall_mem_cons]
      exact ⟨hf a h.1, h.2⟩
    | succ i =>
      rw [List.modify_succ_cons, List.forall_mem_cons]
      exact ⟨h.1, ih h.2 i⟩

variable {settings seed} {seen pending : List Summary} {σ : Session}

/-- Nothing that happens while scorers wait changes what they know. -/
theorem Holds.interlude (h : σ.Holds settings seed seen pending) (i : Interlude) :
    (σ.interlude settings seed i).Holds settings seed seen pending := by
  cases i with
  | forget who source =>
    refine ⟨h.keeps, forall_mem_modify (fun s hs => hs.clear h.keeps source) h.knows who, ?_⟩
    intro hnil
    have hlength := congrArg List.length hnil
    rw [Session.interlude, List.length_modify] at hlength
    exact h.ne_nil (List.length_eq_zero_iff.1 hlength)
  | join =>
    refine ⟨h.keeps, fun s hs => ?_, List.append_ne_nil_of_left_ne_nil h.ne_nil _⟩
    rcases List.mem_append.1 hs with hs | hs
    · exact h.knows s hs
    · rw [List.mem_singleton.1 hs]
      exact Scorer.knows_loadAll h.keeps

theorem Holds.interludes (h : σ.Holds settings seed seen pending) (is : List Interlude) :
    (is.foldl (Session.interlude settings seed) σ).Holds settings seed seen pending := by
  induction is generalizing σ with
  | nil => exact h
  | cons i is ih => exact ih (h.interlude i)

variable {m : Summary} (hprecede : ∀ a ∈ seen, a.source = m.source → a.time.Precedes m.time)

include hprecede

theorem Holds.save (h : σ.Holds settings seed seen []) :
    Holds settings seed seen [m] { σ with store := storeSummary σ.store m } := by
  have hkeeps := h.keeps
  rw [List.append_nil] at hkeeps
  exact ⟨hkeeps.save (hkeeps.isNext hprecede), fun s hs => (h.knows s hs).pend m, h.ne_nil⟩

/-- All scorers make the same of a summary. -/
theorem observeEach_eq {store : Store} (hkeeps : Keeps store (seen ++ [m])) {scorers : List Scorer}
    (hknows : ∀ s ∈ scorers, s.Knows settings seed seen [m]) :
    (observeEach m store scorers).1 =
      List.replicate scorers.length (verdict settings seed seen m) ∧
    Keeps (observeEach m store scorers).2.store (seen ++ [m]) ∧
    (∀ s ∈ (observeEach m store scorers).2.scorers, s.Knows settings seed (seen ++ [m]) []) ∧
    (observeEach m store scorers).2.scorers.length = scorers.length := by
  induction scorers generalizing store with
  | nil => exact ⟨rfl, hkeeps, List.forall_mem_nil _, rfl⟩
  | cons s rest ih =>
    rw [List.forall_mem_cons] at hknows
    obtain ⟨hs, hrest⟩ := hknows
    have hkeeps' : Keeps (s.observe store m.source m.time m.vector).2.2 (seen ++ [m]) :=
      hkeeps.sameReports (Scoring.scorer_observe ..).2
        (Scorer.breaking_observe.trans hkeeps.usable.breaking)
    obtain ⟨hanswers, hstore, hscorers, hlength⟩ := ih hkeeps' hrest
    rw [observeEach]
    refine ⟨?_, hstore, ?_, congrArg (· + 1) hlength⟩
    · rw [hanswers, hs.observe_fst hprecede hkeeps, List.length_cons, List.replicate_succ]
    · rw [List.forall_mem_cons]
      exact ⟨hs.observe hprecede, hscorers⟩

/-- After a round all scorers know its summary, and they have made the same of it. -/
theorem Holds.play (h : σ.Holds settings seed seen []) {r : Round} (hr : r.summary = m) :
    (σ.play settings seed r).2.Holds settings seed (seen ++ [m]) [] ∧
      ∃ n, (σ.play settings seed r).1 = List.replicate (n + 1) (verdict settings seed seen m) := by
  subst hr
  have hlate := ((h.interludes r.early).save hprecede).interludes r.late
  obtain ⟨hanswers, hkeeps, hknows, hlength⟩ := observeEach_eq hprecede hlate.keeps hlate.knows
  have hpos := List.length_pos_of_ne_nil hlate.ne_nil
  refine ⟨⟨?_, hknows, ?_⟩, ?_⟩
  · rw [List.append_nil]
    exact hkeeps
  · exact List.ne_nil_of_length_pos (hlength ▸ hpos)
  · obtain ⟨n, hn⟩ := Nat.exists_eq_succ_of_ne_zero (Nat.ne_of_gt hpos)
    refine ⟨n, ?_⟩
    rw [Session.play, hanswers, hn]

/-- A scorer that is left alone stays alone. -/
theorem Holds.play_plain (h : σ.Holds settings seed seen []) (halone : σ.scorers.length = 1) :
    (σ.play settings seed (.plain m)).1 = [verdict settings seed seen m] ∧
      (σ.play settings seed (.plain m)).2.scorers.length = 1 := by
  have hsaved := h.save hprecede
  obtain ⟨hanswers, -, -, hlength⟩ := observeEach_eq hprecede hsaved.keeps hsaved.knows
  refine ⟨?_, hlength.trans halone⟩
  rw [halone] at hanswers
  exact hanswers

omit hprecede

/-- Summaries that come after others are successive if all of them are. -/
theorem isSuccessive_cons {seen rest : List Summary} (h : IsSuccessive (seen ++ m :: rest)) :
    (∀ a ∈ seen, a.source = m.source → a.time.Precedes m.time) ∧
      IsSuccessive ((seen ++ [m]) ++ rest) := by
  refine ⟨fun a ha => ?_, ?_⟩
  · exact (List.pairwise_append.1 h).2.2 a ha m List.mem_cons_self
  · rwa [List.append_assoc]

/-- Whatever happens while they wait, the scorers make of all summaries what depends on these only. -/
theorem Holds.run (h : σ.Holds settings seed seen []) {rounds : List Round}
    (hsuccessive : IsSuccessive (seen ++ rounds.map (·.summary))) :
    (σ.run settings seed rounds).2.Holds settings seed (seen ++ rounds.map (·.summary)) [] ∧
      List.Forall₂ (fun answer answers => ∃ n, answers = List.replicate (n + 1) answer)
        (verdicts settings seed seen (rounds.map (·.summary))) (σ.run settings seed rounds).1 := by
  induction rounds generalizing σ seen with
  | nil =>
    rw [List.map_nil, List.append_nil]
    exact ⟨h, .nil⟩
  | cons r rest ih =>
    rw [List.map_cons] at hsuccessive ⊢
    obtain ⟨hprecede, hrest⟩ := isSuccessive_cons hsuccessive
    obtain ⟨hplayed, hanswers⟩ := h.play hprecede rfl
    obtain ⟨hrun, hothers⟩ := ih hplayed hrest
    rw [List.append_assoc] at hrun
    exact ⟨hrun, .cons hanswers hothers⟩

theorem Holds.run_plain (h : σ.Holds settings seed seen []) (halone : σ.scorers.length = 1)
    {summaries : List Summary} (hsuccessive : IsSuccessive (seen ++ summaries)) :
    (σ.run settings seed (summaries.map .plain)).1 =
      (verdicts settings seed seen summaries).map fun answer => [answer] := by
  induction summaries generalizing σ seen with
  | nil => rfl
  | cons m rest ih =>
    obtain ⟨hprecede, hrest⟩ := isSuccessive_cons hsuccessive
    obtain ⟨hanswer, halone'⟩ := h.play_plain hprecede halone
    have hothers := ih (h.play hprecede rfl).1 halone' hrest
    rw [List.map_cons, Session.run, verdicts, List.map_cons, hanswer, hothers]

end Rounds

/-- Scorers share a store that is empty at first.  Whenever new ones join and load what there is, and
whenever histories are forgotten and loaded again, all of them have the points of all summaries as their
histories, and all of them make of each summary what a single scorer makes of it that is left alone. -/
theorem restart_transparent (settings : AnomalySettings) (seed : UInt64) (rounds : List Round)
    (h : IsSuccessive (rounds.map (·.summary))) :
    let summaries := rounds.map (·.summary)
    let together := (start settings seed).run settings seed rounds
    let alone := (start settings seed).run settings seed (summaries.map .plain)
    (∀ s ∈ together.2.scorers, ∀ source, s.history source = pointsOf source summaries) ∧
    ((Scorer.start settings seed).loadAll together.2.store).1 = .ok () ∧
    List.Forall₂ (fun a b => ∃ answer n, a = [answer] ∧ b = List.replicate (n + 1) answer)
      alone.1 together.1 := by
  intro summaries together alone
  have hstart := holds_start settings seed
  obtain ⟨htogether, hanswers⟩ := hstart.run h
  have halone : alone.1 = _ := hstart.run_plain rfl h
  refine ⟨fun s hs source => (htogether.knows s hs).history_eq source, ?_, ?_⟩
  · exact Scorer.loadEach_fst htogether.keeps _ _
  · rw [halone, List.forall₂_map_left_iff]
    exact hanswers.imp fun answer answers ⟨n, hn⟩ => ⟨answer, n, rfl, hn⟩

/-- A scorer that forgets before its first observation, and one that joins before the second. -/
theorem restart_transparent_joined :
    let rounds : List Round :=
      [⟨[], Store.trapsAt ⟨0, 0⟩, [.forget 0 none]⟩,
        ⟨[.join], Store.trapsAt ⟨60, 0⟩, [.forget 1 (some .trap)]⟩]
    let together := (start .default 0).run .default 0 rounds
    IsSuccessive (rounds.map (·.summary)) ∧ together.2.scorers.length = 2 ∧
      ∀ s ∈ together.2.scorers, s.history .trap = pointsOf .trap (rounds.map (·.summary)) := by
  intro rounds together
  have hsuccessive : IsSuccessive (rounds.map (·.summary)) := by
    refine isSuccessive_of_lt ?_ ?_
    · decide
    · exact .cons (fun _ hb _ => List.mem_singleton.1 hb ▸ by decide) (List.pairwise_singleton _ _)
  refine ⟨hsuccessive, rfl, fun s hs => ?_⟩
  exact (restart_transparent .default 0 rounds hsuccessive).1 s hs .trap

/-- The first summary is of a leap second, and the store sorts it behind the second one, which is later.
The scorer forgets before it observes the second one, and then has three points for two summaries. -/
theorem leapSecond_doubles :
    let rounds : List Round := [⟨[], Store.trapsAt ⟨1483228799, 1500000000⟩, []⟩,
      ⟨[], Store.trapsAt ⟨1483228800, 200000000⟩, [.forget 0 (some .trap)]⟩]
    (rounds.map (·.summary)).Pairwise (fun a b => a.time < b.time) ∧
      ((start .default 0).run .default 0 rounds).2.scorers.map (fun s => (s.history .trap).length) =
        [3] := by
  intro rounds
  refine ⟨?_, rfl⟩
  exact .cons (fun _ hb => List.mem_singleton.1 hb ▸ by decide) (List.pairwise_singleton _ _)

end Session

end LogWatch.Anomaly
