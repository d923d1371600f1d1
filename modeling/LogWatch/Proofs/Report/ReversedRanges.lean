import LogWatch.Proofs.Report.Visits

/-!
# Ranges that end before they begin

A range whose end comes before its start holds nothing, but a store that keeps something of the source does
not say so: it breaks off, and from then on every call fails, whatever source it is about.  Where the store
keeps nothing of the source nothing is shown, and the visit leaves no trace.

The store goes by nanoseconds, which are cut off at both ends.  Two bounds beyond the same end are the same
for it, in whatever order they are.

* `Store.failure?` — the error with which a call ends;
* `Store.ignoresVisitors` — it does not depend on the visitor of a visit;
* `Store.HidesAll` — a store of which nothing can be read any more;
* `Store.failure?_of_isSpoilt`, `Store.Mirrors.failure?_eq_none_iff` — which calls fail;
* `Store.Mirrors.after_visit` — a visit that is answered changes nothing;
* `Store.BreaksOff`, `Store.LeavesNoTrace` — the two ways in which visits end;
* `Store.visits_break_off_or_leave_no_trace` — which visits end in which way.
-/

namespace LogWatch

open Time

/-! ## Failures -/

/-- The error with which an attempt ended, if it did not succeed. -/
def failureOf {ε α : Type} : Except ε α → Option ε
  | .error e => some e
  | .ok _ => none

/-- The call only looks at what has been saved. -/
def StoreCall.IsVisit : StoreCall → Prop
  | .visitSummaries _ _ _ | .visitScores _ _ _ => True
  | _ => False

namespace Store

/-- The error with which a call ends, if it does not return normally. -/
def failure? (s : Store) : StoreCall → Option StoreError
  | .saveSummary summary => failureOf (s.saveSummary summary)
  | .saveScores source scores => failureOf (s.saveScores source scores)
  | .saveNotify event => failureOf (s.saveNotify event)
  | .clearReport source => failureOf (s.clearReport source)
  | .visitSummaries source first last =>
    failureOf (s.visitSummaries source first last (fun u _ => (u, true)) ()).1
  | .visitScores source first last =>
    failureOf (s.visitScores source first last (fun u _ => (u, true)) ()).1

/-- Nothing that has been saved can be read. -/
structure HidesAll (s : Store) : Prop where
  notifications : s.allNotifications = []
  counts : ∀ source, s.summaryCount source = 0
  summaries : ∀ source, s.allSummaries source = []
  scores : ∀ source, s.allScores source = []

/-- Whether a visit is answered, and what store it leaves, does not depend on its visitor. -/
structure IgnoresVisitors (s : Store) : Prop where
  summaries : ∀ source first last {σ : Type} (visit : σ → Summary → σ × Bool) (init : σ),
    failureOf (s.visitSummaries source first last visit init).1 =
        s.failure? (.visitSummaries source first last) ∧
      (s.visitSummaries source first last visit init).2 = s.after (.visitSummaries source first last)
  scores : ∀ source first last {σ : Type} (visit : σ → AnomalyScore → σ × Bool) (init : σ),
    failureOf (s.visitScores source first last visit init).1 =
        s.failure? (.visitScores source first last) ∧
      (s.visitScores source first last visit init).2 = s.after (.visitScores source first last)

theorem ignoresVisitors (s : Store) : s.IgnoresVisitors where
  summaries source first last σ visit init := by
    obtain ⟨left, -, ⟨e, hvisit⟩ | ⟨shown, hvisit⟩⟩ := s.visitSummaries_cases source first last
    · rw [failure?, after, hvisit, hvisit]
      exact ⟨rfl, rfl⟩
    · rw [failure?, after, hvisit, hvisit]
      exact ⟨rfl, rfl⟩
  scores source first last σ visit init := by
    obtain ⟨left, -, ⟨e, hvisit⟩ | ⟨shown, hvisit⟩⟩ := s.visitScores_cases source first last
    · rw [failure?, after, hvisit, hvisit]
      exact ⟨rfl, rfl⟩
    · rw [failure?, after, hvisit, hvisit]
      exact ⟨rfl, rfl⟩

/-! ## Stores that cannot be used -/

theorem hidesAll_of_poisoned {s : Store} (h : s.poisoned = true) : s.HidesAll :=
  ⟨if_pos h, fun _ => if_pos h, fun _ => if_pos h, fun _ => if_pos h⟩

/-- Calls put nothing out of order but the whole store. -/
theorem outages_and_breaking_after (s : Store) (call : StoreCall) :
    (s.after call).outages = s.outages ∧ (s.after call).breaking = s.breaking := by
  cases call with
  | saveSummary summary =>
    rw [after, saveSummary]
    cases s.available .saveSummary with
    | error e => exact ⟨rfl, rfl⟩
    | ok => exact ⟨rfl, rfl⟩
  | saveScores source scores =>
    rw [after, saveScores]
    split
    · exact ⟨rfl, rfl⟩
    · cases s.available .saveScores with
      | error e => exact ⟨rfl, rfl⟩
      | ok => exact ⟨rfl, rfl⟩
  | saveNotify event =>
    rw [after, saveNotify]
    cases s.available .saveNotify with
    | error e => exact ⟨rfl, rfl⟩
    | ok => exact ⟨rfl, rfl⟩
  | clearReport source =>
    rw [after, clearReport]
    split
    · exact ⟨rfl, rfl⟩
    · exact ⟨rfl, rfl⟩
  | visitSummaries source first last =>
    obtain ⟨left, rfl | ⟨rfl, -⟩, ⟨e, hvisit⟩ | ⟨shown, hvisit⟩⟩ := s.visitSummaries_cases source first last
    all_goals
      rw [after, hvisit]
      exact ⟨rfl, rfl⟩
  | visitScores source first last =>
    obtain ⟨left, rfl | ⟨rfl, -⟩, ⟨e, hvisit⟩ | ⟨shown, hvisit⟩⟩ := s.visitScores_cases source first last
    all_goals
      rw [after, hvisit]
      exact ⟨rfl, rfl⟩

theorem outages_and_breaking_ofCalls (calls : List StoreCall) :
    (ofCalls calls).outages = [] ∧ (ofCalls calls).breaking = false := by
  induction calls using List.reverseRecOn with
  | nil => exact ⟨rfl, rfl⟩
  | append_singleton calls call ih =>
    obtain ⟨houtages, hbreaking⟩ := outages_and_breaking_after (ofCalls calls) call
    rw [ofCalls_concat, houtages, hbreaking]
    exact ih

theorem poisoned_of_isSpoilt {calls : List StoreCall} (h : IsSpoilt calls) :
    (ofCalls calls).poisoned = true :=
  ((poisoned_or_mirrors calls).resolve_right fun hsound => hsound.1 h).2

theorem mirrors_of_not_isSpoilt {calls : List StoreCall} (h : ¬ IsSpoilt calls) :
    (ofCalls calls).Mirrors calls :=
  ((poisoned_or_mirrors calls).resolve_left fun hspoilt => h hspoilt.1).2

/-- Whatever a store that has been spoilt is asked to do, it refuses. -/
theorem failure?_of_isSpoilt {calls : List StoreCall} (h : IsSpoilt calls) (call : StoreCall) :
    (ofCalls calls).failure? call = some .poisoned := by
  obtain ⟨houtages, hbreaking⟩ := outages_and_breaking_ofCalls calls
  have hpoisoned := poisoned_of_isSpoilt h
  have havailable : ∀ op, (ofCalls calls).available op = .error .poisoned := by
    intro op
    rw [available, houtages, hpoisoned]
    rfl
  cases call with
  | saveSummary summary =>
    rw [failure?, saveSummary, havailable]
    rfl
  | saveScores source scores =>
    rw [failure?, saveScores, hbreaking, havailable]
    rfl
  | saveNotify event =>
    rw [failure?, saveNotify, havailable]
    rfl
  | clearReport source =>
    rw [failure?, clearReport, hpoisoned]
    rfl
  | visitSummaries source first last =>
    rw [failure?, visitSummaries, havailable]
    rfl
  | visitScores source first last =>
    rw [failure?, visitScores, hpoisoned]
    rfl

/-! ## Stores that can be used -/

section Usable

variable {s : Store} {calls : List StoreCall} (h : s.Mirrors calls) {call : StoreCall}

include h

theorem Mirrors.failure?_eq_none (hnot : ¬ call.Spoils calls) : s.failure? call = none := by
  cases call with
  | saveSummary summary =>
    rw [failure?, Store.saveSummary, h.usable.available_eq]
    rfl
  | saveScores source scores =>
    rw [failure?, Store.saveScores, h.usable.breaking, h.usable.available_eq]
    rfl
  | saveNotify event =>
    rw [failure?, Store.saveNotify, h.usable.available_eq]
    rfl
  | clearReport source =>
    rw [failure?, Store.clearReport, h.usable.poisoned]
    rfl
  | visitSummaries source first last =>
    rw [failure?, h.visitSummaries_eq hnot]
    rfl
  | visitScores source first last =>
    rw [failure?, h.visitScores_eq hnot]
    rfl

theorem Mirrors.failure?_of_spoils (hspoils : call.Spoils calls) :
    s.failure? call = some .reversedRange := by
  obtain ⟨source, first, last, -, ⟨rfl, -⟩ | ⟨rfl, -⟩⟩ := hspoils.exists_visit
  · rw [failure?, h.visitSummaries_of_spoils hspoils]
    rfl
  · rw [failure?, h.visitScores_of_spoils hspoils]
    rfl

theorem Mirrors.failure?_eq_none_iff : s.failure? call = none ↔ ¬ call.Spoils calls := by
  refine ⟨fun hnone hspoils => ?_, h.failure?_eq_none⟩
  rw [h.failure?_of_spoils hspoils] at hnone
  cases hnone

/-- A visit that is answered changes nothing. -/
theorem Mirrors.after_visit (hvisit : call.IsVisit) (hnot : ¬ call.Spoils calls) : s.after call = s := by
  cases call with
  | visitSummaries source first last => rw [after, h.visitSummaries_eq hnot]
  | visitScores source first last => rw [after, h.visitScores_eq hnot]
  | saveSummary => exact hvisit.elim
  | saveScores => exact hvisit.elim
  | saveNotify => exact hvisit.elim
  | clearReport => exact hvisit.elim

/-- Of a source of which nothing is kept no range shows anything. -/
theorem Mirrors.visitSummaries_of_nothing {source : SourceType} (hsaved : savedSummaries source calls = [])
    (first last : Instant) {σ : Type} (visit : σ → Summary → σ × Bool) (init : σ) :
    s.visitSummaries source first last visit init = (.ok init, s) := by
  rw [h.visitSummaries_eq fun hspoils => hspoils.1 hsaved,
    List.isEmpty_iff.1 ((h.summaries source).isEmpty_iff.2 hsaved)]
  rfl

theorem Mirrors.visitScores_of_nothing {source : SourceType} (hsaved : savedScores source calls = [])
    (first last : Instant) {σ : Type} (visit : σ → AnomalyScore → σ × Bool) (init : σ) :
    s.visitScores source first last visit init = (.ok init, s) := by
  rw [h.visitScores_eq fun hspoils => hspoils.1 hsaved,
    List.isEmpty_iff.1 ((h.scores source).isEmpty_iff.2 hsaved)]
  rfl

end Usable

/-! ## Visits and what comes after them -/

theorem ofCalls_append (calls later : List StoreCall) :
    ofCalls (calls ++ later) = later.foldl after (ofCalls calls) := by
  rw [ofCalls, List.foldl_append, ofCalls]

theorem isSpoilt_append {calls : List StoreCall} (h : IsSpoilt calls) (later : List StoreCall) :
    IsSpoilt (calls ++ later) := by
  obtain ⟨before, call, hstart, hspoils⟩ := h
  exact ⟨before, call, hstart.trans (List.prefix_append _ _), hspoils⟩

/-- After some calls a visit breaks off, no later call of any source is answered, and nothing that has been
saved can be read. -/
structure BreaksOff (calls : List StoreCall) (visit : StoreCall) : Prop where
  refused : (ofCalls calls).failure? visit = some .reversedRange
  later : ∀ later call, (ofCalls (calls ++ visit :: later)).failure? call = some .poisoned
  hidden : ∀ later, (ofCalls (calls ++ visit :: later)).HidesAll

/-- After some calls a visit is answered, and later calls find the store as if it had not been made. -/
structure LeavesNoTrace (calls : List StoreCall) (visit : StoreCall) : Prop where
  answered : (ofCalls calls).failure? visit = none
  later : ∀ later, ofCalls (calls ++ visit :: later) = ofCalls (calls ++ later)

section AfterCalls

variable {calls : List StoreCall} (hsound : ¬ IsSpoilt calls) {call : StoreCall}

include hsound

theorem breaksOff_of_spoils (hspoils : call.Spoils calls) : BreaksOff calls call := by
  have hspoilt : ∀ later, IsSpoilt (calls ++ call :: later) := by
    intro later
    rw [List.append_cons]
    exact isSpoilt_append ((isSpoilt_concat calls call).2 (Or.inr hspoils)) later
  exact ⟨(mirrors_of_not_isSpoilt hsound).failure?_of_spoils hspoils,
    fun later => failure?_of_isSpoilt (hspoilt later),
    fun later => hidesAll_of_poisoned (poisoned_of_isSpoilt (hspoilt later))⟩

theorem leavesNoTrace_of_not_spoils (hvisit : call.IsVisit) (hnot : ¬ call.Spoils calls) :
    LeavesNoTrace calls call := by
  have hmirrors := mirrors_of_not_isSpoilt hsound
  refine ⟨hmirrors.failure?_eq_none hnot, fun later => ?_⟩
  rw [ofCalls_append, ofCalls_append, List.foldl_cons, hmirrors.after_visit hvisit hnot]

end AfterCalls

/-- All of some calls return normally just when none of them spoils the store. -/
theorem all_return_iff (calls : List StoreCall) :
    (∀ before call, before ++ [call] <+: calls → (ofCalls before).failure? call = none) ↔
      ¬ IsSpoilt calls := by
  constructor
  · -- Of the calls that spoil the store the first is refused, and so are all after it.
    rintro hreturn ⟨before, call, hstart, hspoils⟩
    have hnone := hreturn before call hstart
    by_cases hspoilt : IsSpoilt before
    · rw [failure?_of_isSpoilt hspoilt] at hnone
      cases hnone
    · exact (mirrors_of_not_isSpoilt hspoilt).failure?_eq_none_iff.1 hnone hspoils
  · intro hsound before call hstart
    have hbefore : ¬ IsSpoilt before := by
      intro hspoilt
      obtain ⟨later, rfl⟩ := hstart
      rw [List.append_assoc] at hsound
      exact hsound (isSpoilt_append hspoilt _)
    exact (mirrors_of_not_isSpoilt hbefore).failure?_eq_none fun hspoils =>
      hsound ⟨before, call, hstart, hspoils⟩

/-- The store sees that a range ends before it begins, outside leap seconds and unless both bounds are
beyond what it can tell apart. -/
theorem clampedNanos_lt_of_lt {first last : Instant} (hfirst : first.isLeap = false)
    (hlast : last.isLeap = false) (hwithin : first.IsWithin ∨ last.IsWithin) (h : last < first) :
    last.clampedNanos < first.clampedNanos := by
  have hnot : ¬ first ≤ last := not_not.2 h
  rw [← Int.not_le]
  rcases hwithin with hwithin | hwithin
  · rwa [Instant.le_clampedNanos_iff hlast hfirst hwithin]
  · rwa [Instant.clampedNanos_le_iff hfirst hlast hwithin]

/-- All calls return normally unless a visit asks for a range of what has been saved whose end comes before
its start, and after that none does.  Every other visit leaves no trace; it shows what lies in its range, and
nothing where the range is the wrong way round and nothing has been saved. -/
theorem visits_break_off_or_leave_no_trace (calls : List StoreCall) :
    ((∀ before call, before ++ [call] <+: calls → (ofCalls before).failure? call = none) ↔
      ¬ IsSpoilt calls) ∧
    (IsSpoilt calls → (ofCalls calls).HidesAll ∧ ∀ call,
      (ofCalls calls).failure? call = some .poisoned ∧ (ofCalls calls).after call = ofCalls calls) ∧
    (¬ IsSpoilt calls →
      (∀ call : StoreCall, (call.Spoils calls → BreaksOff calls call) ∧
        (call.IsVisit → ¬ call.Spoils calls → LeavesNoTrace calls call)) ∧
      ∀ source (first last : Instant),
        (first.clampedNanos ≤ last.clampedNanos →
          ShowsRange Instant.clampedNanos calls source first last) ∧
        (last.clampedNanos < first.clampedNanos →
          (savedSummaries source calls = [] →
            ∀ {σ : Type} (visit : σ → Summary → σ × Bool) (init : σ),
              ((ofCalls calls).visitSummaries source first last visit init).1 = .ok init) ∧
          (savedScores source calls = [] →
            ∀ {σ : Type} (visit : σ → AnomalyScore → σ × Bool) (init : σ),
              ((ofCalls calls).visitScores source first last visit init).1 = .ok init))) ∧
    (∀ first last : Instant, first.isLeap = false → last.isLeap = false →
      first.IsWithin ∨ last.IsWithin → last < first → last.clampedNanos < first.clampedNanos) ∧
    (ofCalls calls).IgnoresVisitors := by
  refine ⟨all_return_iff calls, fun hspoilt => ⟨?_, fun call => ⟨?_, ?_⟩⟩,
    fun hsound => ⟨fun call => ⟨?_, ?_⟩, fun source first last => ⟨?_, fun _ => ⟨?_, ?_⟩⟩⟩,
    fun first last => clampedNanos_lt_of_lt, ignoresVisitors _⟩
  · exact hidesAll_of_poisoned (poisoned_of_isSpoilt hspoilt)
  · exact failure?_of_isSpoilt hspoilt call
  · exact after_of_poisoned (poisoned_of_isSpoilt hspoilt) call
  · exact breaksOff_of_spoils hsound
  · exact leavesNoTrace_of_not_spoils hsound
  · exact (mirrors_of_not_isSpoilt hsound).showsRange source
  · intro hsaved σ visit init
    rw [(mirrors_of_not_isSpoilt hsound).visitSummaries_of_nothing hsaved]
  · intro hsaved σ visit init
    rw [(mirrors_of_not_isSpoilt hsound).visitScores_of_nothing hsaved]

/-- With a summary of traps in the store, a range of traps that ends a day before it begins makes it
unusable; a range of messages that does so shows nothing and leaves no trace. -/
theorem reversed_range_of_traps_breaks_off :
    let first : Instant := ⟨86400, 0⟩
    let last : Instant := ⟨0, 0⟩
    let calls := [.saveSummary (trapsAt last)]
    last < first ∧ ¬ IsSpoilt calls ∧ BreaksOff calls (.visitSummaries .trap first last) ∧
      LeavesNoTrace calls (.visitSummaries .mqtt first last) := by
  intro first last calls
  have hlt : last < first := by decide
  have hsound : ¬ IsSpoilt calls := by
    refine not_isSpoilt_of_isPlain calls fun call hcall => ?_
    rw [List.mem_singleton.1 hcall]
    trivial
  obtain ⟨-, -, hvisits, hreversed, -⟩ := visits_break_off_or_leave_no_trace calls
  have hseen : last.clampedNanos < first.clampedNanos :=
    hreversed first last rfl rfl (Or.inl ⟨by decide, by decide⟩) hlt
  refine ⟨hlt, hsound, ((hvisits hsound).1 _).1 ⟨List.cons_ne_nil _ _, hseen⟩, ?_⟩
  exact ((hvisits hsound).1 _).2 trivial fun hspoils => hspoils.1 rfl

end Store

end LogWatch
