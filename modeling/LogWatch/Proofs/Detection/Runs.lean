import LogWatch.Proofs.Detection.Stages
import LogWatch.Proofs.Scoring.Loading

/-!
# What an engine does is a run of its stages

An engine that works by itself takes one of the ways that its stages can go: it makes whole steps of a
stage, one after the other, until there is nothing left to do.

* `Stages.runs_of_step?`, `Stages.runs_settle` — working until there is nothing to do;
* `Stages.runs_submit`, `Stages.runs_shutdown` — what an engine is told to do;
* `shutdown_drains` — an engine that shuts down tries all records that wait.
-/

namespace LogWatch.Engine

open Intake Rule Anomaly Time

/-! ## The scorer and the notifications -/

namespace Scoring

theorem notifications_scorer_observe (store : Store) (s : Scorer) (source : SourceType)
    (time : Instant) (vector : List Float) :
    (s.observe store source time vector).2.2.notifications = store.notifications := by
  obtain ⟨saved, hobserve⟩ := exists_scorer_observe store s source time vector
  rw [hobserve]

/-- An observation leaves the notifications alone. -/
theorem notifications_observe (store : Store) (s : Scorer) (source : SourceType) (time : Instant)
    (vector : List Float) :
    (observe store s source time vector).2.2.notifications = store.notifications := by
  have h := notifications_scorer_observe store s source time vector
  rw [observe]
  split <;> rename_i heq <;> rw [heq] at h <;> exact h

end Scoring

/-! ## Steps -/

namespace Stages

/-- Stages that are all at work, with calls that wait and nothing in the worker's hand. -/
def resting (e : Engine) (calls submitted : List LogRecord) (trials : List Trial) : Stages :=
  { start e with calls := calls, submitted := submitted, trials := trials }

section Steps

variable {e f : Engine} {calls submitted : List LogRecord} {trials : List Trial}

theorem runs_of_deliverNext? (h : e.deliverNext? = some f) :
    f.corpus = e.corpus ∧
      (resting e calls submitted trials).Run (resting f calls submitted trials) := by
  obtain ⟨sink, -, rfl⟩ := Option.map_eq_some_iff.1 h
  exact ⟨rfl, .single (.beside ⟨rfl, rfl, rfl, rfl, rfl, rfl, rfl⟩)⟩

theorem runs_of_acceptNext? (h : e.acceptNext? = some f) :
    f.corpus = e.corpus ∧
      (resting e calls submitted trials).Run (resting f calls submitted trials) := by
  have hrun : (resting e calls submitted trials).Run (resting f calls submitted trials) :=
    .single (.accept rfl h)
  obtain ⟨event, rest, -, rfl⟩ := acceptNext?_eq_some.1 h
  exact ⟨rfl, hrun⟩

/-- The scorer serves a request, and then there may be an alert. -/
theorem runs_of_scoreNext? (h : e.scoreNext? = some f) :
    f.corpus = e.corpus ∧
      (resting e calls submitted trials).Run (resting f calls submitted trials) := by
  rw [scoreNext?] at h
  split at h
  · rename_i hroom
    obtain ⟨⟨request, rest⟩, -, rfl⟩ := Option.map_eq_some_iff.1 h
    cases request with
    | clear source => exact ⟨rfl, .single (.beside ⟨rfl, rfl, rfl, rfl, rfl, rfl, rfl⟩)⟩
    | observe source time vector =>
      have hnotifications := Scoring.notifications_observe e.store e.scorer source time vector
      have hsame := Scoring.sameReports_observe e.store e.scorer source time vector
      dsimp only [score]
      rcases hobserve : Scoring.observe e.store e.scorer source time vector with
        ⟨alert, scorer, store⟩
      rw [hobserve] at hnotifications hsame
      have havailable : store.available .saveNotify = e.store.available .saveNotify := by
        rw [Store.available, hsame.outages, hsame.poisoned, Store.available]
      have hbeside : e.Beside { e with requests := rest, scorer := scorer, store := store } :=
        ⟨rfl, rfl, rfl, rfl, rfl, hnotifications, havailable⟩
      have hserve : (resting e calls submitted trials).Run (resting _ calls submitted trials) :=
        .single (.beside hbeside)
      cases alert with
      | none => exact ⟨rfl, hserve⟩
      | some x =>
        have hkind : DetectionKind.anomaly ≠ .rule := by decide
        exact ⟨rfl, hserve.tail (.alert rfl hkind hroom)⟩
  · cases h

/-- The worker takes a record, tries it, and sends what it has detected. -/
theorem runs_of_detectNext? (h : e.detectNext? = some f) :
    f.corpus = e.corpus ∧ ∃ x : Trial, x.corpus = e.corpus ∧
      (resting e calls submitted trials).Run (resting f calls submitted (trials ++ [x])) := by
  rw [detectNext?] at h
  split at h
  · rename_i hroom
    obtain ⟨⟨r, rest⟩, hnext, rfl⟩ := Option.map_eq_some_iff.1 h
    have htake : (resting e calls submitted trials).Run _ := .single (.take nofun rfl hnext)
    dsimp only
    cases hd : detect? e.normalizer e.corpus e.nextId r with
    | none =>
      exact ⟨rfl, ⟨r, e.corpus, e.nextId⟩, rfl, htake.tail (.pass e.nextId rfl hd)⟩
    | some d =>
      have hdetect := htake.tail (.detect e.nextId rfl hd)
      exact ⟨rfl, ⟨r, e.corpus, e.nextId⟩, rfl, hdetect.tail (.send rfl hroom)⟩
  · cases h

/-- A step of an engine is a run of its stages, in which the rules stay. -/
theorem runs_of_step? (h : e.step? = some f) :
    f.corpus = e.corpus ∧ ∃ new : List Trial, (∀ x ∈ new, x.corpus = e.corpus) ∧
      (resting e calls submitted trials).Run (resting f calls submitted (trials ++ new)) := by
  have hsame : f.corpus = e.corpus ∧
        (resting e calls submitted trials).Run (resting f calls submitted trials) →
      f.corpus = e.corpus ∧ ∃ new : List Trial, (∀ x ∈ new, x.corpus = e.corpus) ∧
        (resting e calls submitted trials).Run (resting f calls submitted (trials ++ new)) := by
    rintro ⟨hcorpus, hrun⟩
    refine ⟨hcorpus, [], List.forall_mem_nil _, ?_⟩
    rw [List.append_nil]
    exact hrun
  simp only [step?, Option.or_eq_some_iff] at h
  rcases h with h | ⟨-, h | ⟨-, h | ⟨-, h⟩⟩⟩
  · exact hsame (runs_of_deliverNext? h)
  · exact hsame (runs_of_acceptNext? h)
  · exact hsame (runs_of_scoreNext? h)
  · obtain ⟨hcorpus, x, hx, hrun⟩ := runs_of_detectNext? h
    exact ⟨hcorpus, [x], List.forall_mem_singleton.2 hx, hrun⟩

end Steps

/-! ## Until there is nothing to do -/

theorem runs_run (n : Nat) (e : Engine) (calls submitted : List LogRecord) (trials : List Trial) :
    ∃ new : List Trial, (∀ x ∈ new, x.corpus = e.corpus) ∧
      (resting e calls submitted trials).Run
        (resting (Engine.run n e) calls submitted (trials ++ new)) := by
  induction n generalizing e trials with
  | zero =>
    refine ⟨[], List.forall_mem_nil _, ?_⟩
    rw [List.append_nil]
    exact .refl
  | succ n ih =>
    rw [Engine.run]
    split
    · rename_i f hstep
      obtain ⟨hcorpus, first, hfirst, hrun⟩ := @runs_of_step? e f calls submitted trials hstep
      obtain ⟨rest, hrest, hmore⟩ := ih f (trials ++ first)
      refine ⟨first ++ rest, ?_, ?_⟩
      · rw [List.forall_mem_append]
        exact ⟨hfirst, fun x hx => (hrest x hx).trans hcorpus⟩
      · rw [← List.append_assoc]
        exact hrun.trans hmore
    · refine ⟨[], List.forall_mem_nil _, ?_⟩
      rw [List.append_nil]

/-- An engine that works until there is nothing to do makes a run of its stages. -/
theorem runs_settle (e : Engine) (calls submitted : List LogRecord) (trials : List Trial) :
    ∃ new : List Trial, (∀ x ∈ new, x.corpus = e.corpus) ∧
      (resting e calls submitted trials).Run
        (resting e.settle calls submitted (trials ++ new)) := by
  rw [settle]
  exact runs_run e.work e calls submitted trials

end Stages

/-- When there is nothing to do, no record and no detection waits. -/
theorem entries_of_step?_eq_none {e : Engine} (h : e.step? = none) (hplaces : 0 < e.events.capacity) :
    e.records.entries = [] ∧ e.events.entries = [] := by
  simp only [step?, Option.or_eq_none_iff] at h
  obtain ⟨-, haccept, -, hdetect⟩ := h
  have hevents : e.events.entries = [] :=
    Queue.next?_eq_none.1 (Option.map_eq_none_iff.1 haccept)
  rw [detectNext?, if_pos (Queue.hasRoom_of_entries_eq_nil hevents hplaces)] at hdetect
  exact ⟨Queue.next?_eq_none.1 (Option.map_eq_none_iff.1 hdetect), hevents⟩

namespace Stages

/-! ## What an engine is told to do -/

theorem beside_count (e : Engine) (r : LogRecord) : e.Beside (e.count r) :=
  ⟨rfl, rfl, rfl, rfl, rfl, rfl, rfl⟩

/-- A record is queued: the call is let in, waits until there is room, and succeeds. -/
theorem runs_enqueue {e : Engine} {r : LogRecord} (hopen : e.isOpen = true)
    (hdetectable : r.sourceType.isDetectable = true) (hrecords : 0 < e.records.capacity)
    (hevents : 0 < e.events.capacity) (submitted : List LogRecord) (trials : List Trial) :
    ∃ new : List Trial, (∀ x ∈ new, x.corpus = e.corpus) ∧
      (resting e [] submitted trials).Run
        (resting (e.enqueue r) [] (submitted ++ [r]) (trials ++ new)) := by
  have hcall : (resting e [] submitted trials).Run (resting e [r] submitted trials) :=
    .single (.call hopen rfl hdetectable)
  rw [enqueue]
  split
  · rename_i hroom
    refine ⟨[], List.forall_mem_nil _, ?_⟩
    rw [List.append_nil]
    exact hcall.tail (@Step.queue _ [] [] r rfl rfl hroom)
  · obtain ⟨new, hnew, hsettle⟩ := runs_settle e [r] submitted trials
    obtain ⟨hrecords', hevents'⟩ := Run.capacity hsettle
    have hempty := (entries_of_step?_eq_none (step?_settle e) (hevents' ▸ hevents)).1
    have hroom := Queue.hasRoom_of_entries_eq_nil hempty (hrecords' ▸ hrecords)
    exact ⟨new, hnew, (hcall.trans hsettle).tail (@Step.queue _ [] [] r rfl rfl hroom)⟩

/-- A record is submitted: it is counted, and queued if it is matched against rules. -/
theorem runs_submit {e f : Engine} {r : LogRecord} (hrecords : 0 < e.records.capacity)
    (hevents : 0 < e.events.capacity) (h : e.submit r = .ok f) (submitted : List LogRecord)
    (trials : List Trial) :
    ∃ new : List Trial, (∀ x ∈ new, x.corpus = e.corpus) ∧
      (resting e [] submitted trials).Run
        (resting f [] (submitted ++ if r.sourceType.isDetectable then [r] else [])
          (trials ++ new)) := by
  rw [submit] at h
  split at h
  · cases h
  · rename_i hopen
    cases h
    have hopen : e.isOpen = true := by simpa using hopen
    have hcount : e.Beside (if r.detail.isSome then e.count r else e) := by
      split
      · exact beside_count e r
      · exact .refl e
    generalize (if r.detail.isSome then e.count r else e) = counted at hcount ⊢
    have hbeside : (resting e [] submitted trials).Run (resting counted [] submitted trials) :=
      .single (.beside hcount)
    split
    · rename_i hdetectable
      have hrecords' : 0 < counted.records.capacity := hcount.records ▸ hrecords
      have hevents' : 0 < counted.events.capacity := hcount.events ▸ hevents
      obtain ⟨new, hnew, hrun⟩ := runs_enqueue (hcount.isOpen.trans hopen) hdetectable hrecords'
        hevents' submitted trials
      exact ⟨new, hcount.corpus ▸ hnew, hbeside.trans hrun⟩
    · refine ⟨[], List.forall_mem_nil _, ?_⟩
      rw [List.append_nil, List.append_nil]
      exact hbeside

/-- What has been told to shut down stays so. -/
theorem Step.isOpen_eq_false {s t : Stages} (hstep : s.Step t) (h : s.engine.isOpen = false) :
    t.engine.isOpen = false := by
  cases hstep with
  | signal => rfl
  | beside hbeside => exact hbeside.isOpen.trans h
  | accept _ haccept =>
    obtain ⟨event, rest, -, rfl⟩ := acceptNext?_eq_some.1 haccept
    exact h
  | _ => exact h

theorem Run.isOpen_eq_false {s t : Stages} (hrun : s.Run t) (h : s.engine.isOpen = false) :
    t.engine.isOpen = false := by
  induction hrun with
  | refl => exact h
  | tail _ hstep ih => exact hstep.isOpen_eq_false ih

/-- An engine shuts down: it works until there is nothing to do, and then all stages stop. -/
theorem runs_shutdown {e : Engine} (hplaces : 0 < e.events.capacity) (submitted : List LogRecord)
    (trials : List Trial) :
    ∃ (new : List Trial) (s : Stages), (∀ x ∈ new, x.corpus = e.corpus) ∧
      (resting e [] submitted trials).Run s ∧ s.Finished ∧ s.engine = e.shutdown ∧
      s.submitted = submitted ∧ s.trials = trials ++ new := by
  have hsignal : (resting e [] submitted trials).Run
      (resting { e with isOpen := false } [] submitted trials) := .single .signal
  have hdrop : Beside { e with isOpen := false }
      { e with isOpen := false, requests := .empty scoringRoom } :=
    ⟨rfl, rfl, rfl, rfl, rfl, rfl, rfl⟩
  obtain ⟨new, hnew, hsettle⟩ :=
    runs_settle { e with isOpen := false, requests := .empty scoringRoom } [] submitted trials
  have hrun := (hsignal.tail (.beside hdrop)).trans hsettle
  obtain ⟨hrecords, hevents⟩ := entries_of_step?_eq_none (step?_settle _)
    ((Run.capacity hsettle).2 ▸ hplaces)
  have hclosed : e.shutdown.isOpen = false := Run.isOpen_eq_false hsettle rfl
  have hrun := hrun.tail (.release hclosed rfl)
  have hrun := hrun.tail (.stopScorer hclosed)
  have hrun := hrun.tail (.stop rfl hrecords (Or.inr ⟨rfl, rfl⟩))
  have hrun := hrun.tail (.stopSink rfl rfl hevents)
  exact ⟨new, _, hnew, hrun, ⟨rfl, rfl, rfl, rfl⟩, rfl, rfl, rfl⟩

end Stages

/-- An engine that shuts down by itself tries the records that wait, each once and in order, on the rules
in use, and stores what it detects behind the detections that wait. -/
theorem shutdown_drains {e : Engine} (hplaces : 0 < e.events.capacity)
    (hstore : e.store.available .saveNotify = .ok ()) :
    ∃ trials : List Trial, trials.map (·.record) = e.records.entries ∧
      (∀ x ∈ trials, x.corpus = e.corpus) ∧
      ruleEvents e.shutdown.store.notifications =
        ruleEvents (e.store.notifications ++ e.events.entries) ++
          trials.filterMap (Trial.detection? e.normalizer) := by
  obtain ⟨trials, s, hcorpus, hrun, hfinished, hengine, hsubmitted, htrials⟩ :=
    Stages.runs_shutdown hplaces [] []
  obtain ⟨hrecords, hevents⟩ := ((Stages.invariant_start hstore).run hrun).of_finished hfinished
  rw [hsubmitted, htrials, List.append_nil, List.nil_append] at hrecords
  rw [hengine, htrials, List.nil_append] at hevents
  exact ⟨trials, hrecords, hcorpus, hevents⟩

end LogWatch.Engine
