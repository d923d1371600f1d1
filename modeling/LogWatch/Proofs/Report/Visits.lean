import LogWatch.Proofs.Report.Timelines
import LogWatch.Report.Store
import Mathlib.Data.List.Induction

/-!
# What a store shows

Whatever a store has been asked before, a visit shows what has been saved since the last clearing, in
ascending order of time.  Summaries of one time come in the order in which they were saved, and of scores
of one time only the last one is left.

A store that is asked for a range whose end comes before its start cannot be used any more, by any source.
It goes by nanoseconds, so a range that begins in a leap second may be the wrong way round for the store
although it is not for the calendar.

* `StoreCall`, `Store.ofCalls` — what a store may be asked, and the store after some calls;
* `savedSummaries`, `savedScores` — what calls have saved since the last clearing;
* `StoreCall.Spoils`, `IsSpoilt` — the calls after which a store cannot be used any more;
* `Store.visitSummaries_cases`, `Store.visitScores_cases` — what a visit can come to;
* `Store.Mirrors` — the entries of a store and the calls that have made them;
* `Store.poisoned_or_mirrors` — a store mirrors its calls unless one of them has spoilt it;
* `Store.visits_show_saved` — what visits show after any calls;
* `Store.leapSecond_poisons` — a range in the order of the calendar that makes a store unusable.
-/

namespace LogWatch

open Time

/-! ## Calls -/

/-- What a store may be asked to do.  What the visitor of a visit does is of no concern to the store. -/
inductive StoreCall where
  | saveSummary (summary : Summary)
  | saveScores (source : SourceType) (scores : List AnomalyScore)
  | saveNotify (event : NotifyEvent)
  | clearReport (source : SourceType)
  | visitSummaries (source : SourceType) (first last : Instant)
  | visitScores (source : SourceType) (first last : Instant)

namespace StoreCall

/-- The source that a call is about. -/
def source? : StoreCall → Option SourceType
  | .saveSummary summary => some summary.source
  | .saveNotify _ => none
  | .saveScores source _ | .clearReport source | .visitSummaries source _ _
  | .visitScores source _ _ => some source

/-- The summaries of a source that are left after one more call. -/
def keepSummaries (source : SourceType) (saved : List Summary) : StoreCall → List Summary
  | .saveSummary summary => if summary.source = source then saved ++ [summary] else saved
  | .clearReport other => if other = source then [] else saved
  | _ => saved

/-- The scores of a source that are left after one more call, those that were replaced included. -/
def keepScores (source : SourceType) (saved : List AnomalyScore) : StoreCall → List AnomalyScore
  | .saveScores other scores => if other = source then saved ++ scores else saved
  | .clearReport other => if other = source then [] else saved
  | _ => saved

end StoreCall

/-- The summaries of a source that have been saved since it was last cleared, as they were saved. -/
def savedSummaries (source : SourceType) (calls : List StoreCall) : List Summary :=
  calls.foldl (StoreCall.keepSummaries source) []

/-- The scores of a source that have been saved since it was last cleared, as they were saved. -/
def savedScores (source : SourceType) (calls : List StoreCall) : List AnomalyScore :=
  calls.foldl (StoreCall.keepScores source) []

/-- A visit to what calls have saved asks for a range whose end comes before its start. -/
def StoreCall.Spoils (calls : List StoreCall) : StoreCall → Prop
  | .visitSummaries source first last =>
    savedSummaries source calls ≠ [] ∧ last.clampedNanos < first.clampedNanos
  | .visitScores source first last =>
    savedScores source calls ≠ [] ∧ last.clampedNanos < first.clampedNanos
  | _ => False

/-- One of the calls has spoilt the store. -/
def IsSpoilt (calls : List StoreCall) : Prop :=
  ∃ before call, before ++ [call] <+: calls ∧ call.Spoils before

/-- The calls about a source. -/
def callsOf (source : SourceType) (calls : List StoreCall) : List StoreCall :=
  calls.filter fun call => call.source? = some source

/-- The range of a visit is in the order of the calendar, and neither of its ends is in a leap second. -/
def StoreCall.IsPlain : StoreCall → Prop
  | .visitSummaries _ first last | .visitScores _ first last =>
    first ≤ last ∧ first.isLeap = false ∧ last.isLeap = false
  | _ => True

namespace Store

/-- The store after an attempt to save something. -/
def orSame (s : Store) (result : Except StoreError Store) : Store :=
  result.toOption.getD s

/-- The store after a call. -/
def after (s : Store) : StoreCall → Store
  | .saveSummary summary => s.orSame (s.saveSummary summary)
  | .saveScores source scores => s.orSame (s.saveScores source scores)
  | .saveNotify event => s.orSame (s.saveNotify event)
  | .clearReport source => s.orSame (s.clearReport source)
  | .visitSummaries source first last =>
    (s.visitSummaries source first last (fun u _ => (u, true)) ()).2
  | .visitScores source first last =>
    (s.visitScores source first last (fun u _ => (u, true)) ()).2

/-- A store after some calls, one after the other. -/
def ofCalls (calls : List StoreCall) : Store :=
  calls.foldl after empty

end Store

/-! ## What calls have saved -/

section Calls

variable (source : SourceType) (calls : List StoreCall) (call : StoreCall)

theorem savedSummaries_concat : savedSummaries source (calls ++ [call]) =
    call.keepSummaries source (savedSummaries source calls) := by
  rw [savedSummaries, List.foldl_append, List.foldl_cons, List.foldl_nil, savedSummaries]

theorem savedScores_concat : savedScores source (calls ++ [call]) =
    call.keepScores source (savedScores source calls) := by
  rw [savedScores, List.foldl_append, List.foldl_cons, List.foldl_nil, savedScores]

theorem isSpoilt_concat :
    IsSpoilt (calls ++ [call]) ↔ IsSpoilt calls ∨ call.Spoils calls := by
  constructor
  · rintro ⟨before, other, hstart, hspoils⟩
    rcases List.prefix_concat_iff.1 hstart with heq | hstart
    · obtain ⟨hbefore, hcall⟩ := List.append_inj' heq rfl
      cases hbefore
      cases hcall
      exact Or.inr hspoils
    · exact Or.inl ⟨before, other, hstart, hspoils⟩
  · rintro (⟨before, other, hstart, hspoils⟩ | hspoils)
    · exact ⟨before, other, hstart.trans (List.prefix_append _ _), hspoils⟩
    · exact ⟨calls, call, List.prefix_refl _, hspoils⟩

theorem not_isSpoilt_nil : ¬ IsSpoilt [] := by
  rintro ⟨before, call, hstart, -⟩
  exact List.append_ne_nil_of_right_ne_nil _ (List.cons_ne_nil _ _) (List.prefix_nil.1 hstart)

/-- Only visits spoil a store. -/
theorem StoreCall.Spoils.exists_visit {calls : List StoreCall} {call : StoreCall}
    (h : call.Spoils calls) :
    ∃ source first last, last.clampedNanos < first.clampedNanos ∧
      ((call = .visitSummaries source first last ∧ savedSummaries source calls ≠ []) ∨
        (call = .visitScores source first last ∧ savedScores source calls ≠ [])) := by
  cases call with
  | visitSummaries source first last => exact ⟨source, first, last, h.2, Or.inl ⟨rfl, h.1⟩⟩
  | visitScores source first last => exact ⟨source, first, last, h.2, Or.inr ⟨rfl, h.1⟩⟩
  | saveSummary => exact h.elim
  | saveScores => exact h.elim
  | saveNotify => exact h.elim
  | clearReport => exact h.elim

/-- Calls that are not about a source do not change what is left of it. -/
theorem keep_of_source?_ne (h : call.source? ≠ some source) (summaries : List Summary)
    (scores : List AnomalyScore) :
    call.keepSummaries source summaries = summaries ∧ call.keepScores source scores = scores := by
  cases call with
  | saveSummary summary => exact ⟨if_neg fun heq => h (congrArg some heq), rfl⟩
  | saveScores other added => exact ⟨rfl, if_neg fun heq => h (congrArg some heq)⟩
  | clearReport other =>
    exact ⟨if_neg fun heq => h (congrArg some heq), if_neg fun heq => h (congrArg some heq)⟩
  | saveNotify => exact ⟨rfl, rfl⟩
  | visitSummaries => exact ⟨rfl, rfl⟩
  | visitScores => exact ⟨rfl, rfl⟩

theorem callsOf_concat : callsOf source (calls ++ [call]) =
    if call.source? = some source then callsOf source calls ++ [call] else callsOf source calls := by
  rw [callsOf, List.filter_append, ← callsOf]
  by_cases hsource : call.source? = some source
  · rw [if_pos hsource, List.filter_cons_of_pos (by simpa using hsource), List.filter_nil]
  · rw [if_neg hsource, List.filter_cons_of_neg (by simpa using hsource), List.filter_nil,
      List.append_nil]

theorem saved_callsOf :
    savedSummaries source (callsOf source calls) = savedSummaries source calls ∧
      savedScores source (callsOf source calls) = savedScores source calls := by
  induction calls using List.reverseRecOn with
  | nil => exact ⟨rfl, rfl⟩
  | append_singleton calls call ih =>
    obtain ⟨hsummaries, hscores⟩ := ih
    rw [savedSummaries_concat, savedScores_concat, callsOf_concat]
    split
    · rw [savedSummaries_concat, savedScores_concat, hsummaries, hscores]
      exact ⟨rfl, rfl⟩
    · rename_i hsource
      obtain ⟨hsame, hsame'⟩ := keep_of_source?_ne source call hsource
        (savedSummaries source calls) (savedScores source calls)
      rw [hsame, hsame']
      exact ⟨hsummaries, hscores⟩

/-- A call that spoils the calls of its source spoils all calls. -/
theorem spoils_of_callsOf (hsource : call.source? = some source)
    (h : call.Spoils (callsOf source calls)) : call.Spoils calls := by
  obtain ⟨hsummaries, hscores⟩ := saved_callsOf source calls
  obtain ⟨other, first, last, hreversed, ⟨rfl, hsaved⟩ | ⟨rfl, hsaved⟩⟩ := h.exists_visit
  · cases hsource
    exact ⟨hsummaries ▸ hsaved, hreversed⟩
  · cases hsource
    exact ⟨hscores ▸ hsaved, hreversed⟩

/-- If the calls of one source have spoilt the store, so have all calls. -/
theorem isSpoilt_of_callsOf (h : IsSpoilt (callsOf source calls)) : IsSpoilt calls := by
  induction calls using List.reverseRecOn with
  | nil => exact h
  | append_singleton calls call ih =>
    rw [callsOf_concat] at h
    rw [isSpoilt_concat]
    split at h
    · rename_i hsource
      rw [isSpoilt_concat] at h
      exact h.imp ih (spoils_of_callsOf source calls call hsource)
    · exact Or.inl (ih h)

/-- Ranges in the order of the calendar spoil nothing where no leap seconds occur. -/
theorem not_isSpoilt_of_isPlain (h : ∀ call ∈ calls, call.IsPlain) : ¬ IsSpoilt calls := by
  rintro ⟨before, call, hstart, hspoils⟩
  have hplain := h call (hstart.subset (List.mem_append_right _ List.mem_cons_self))
  have hordered : ∀ first last : Instant,
      first ≤ last ∧ first.isLeap = false ∧ last.isLeap = false →
      ¬ last.clampedNanos < first.clampedNanos :=
    fun first last ⟨hle, hfirst, hlast⟩ => Int.not_lt.2 (Instant.clampedNanos_mono hfirst hlast hle)
  obtain ⟨source, first, last, hreversed, ⟨rfl, -⟩ | ⟨rfl, -⟩⟩ := hspoils.exists_visit
  · exact hordered first last hplain hreversed
  · exact hordered first last hplain hreversed

end Calls

/-! ## Entries -/

/-- The entries of a source are all summaries that are left of it, sorted by their times. -/
structure KeepsAll (entries : List StoredSummary) (count : Nat) (saved : List Summary) : Prop where
  place : ∀ e ∈ entries, e.nanos = e.summary.time.clampedNanos
  number : ∀ e ∈ entries, e.number ≤ count
  ascending : entries.Pairwise fun e f => e.nanos ≤ f.nanos
  complete : ∀ k, (entries.filter fun e => e.nanos = k).map (·.summary) =
    saved.filter fun summary => summary.time.clampedNanos = k

/-- The entries of a source are the last scores of each time that are left of it, sorted by times. -/
structure KeepsLast (entries : List StoredScore) (saved : List AnomalyScore) : Prop where
  place : ∀ e ∈ entries, e.nanos = e.score.time.clampedNanos
  ascending : entries.Pairwise fun e f => e.nanos < f.nanos
  latest : ∀ k, (entries.filter fun e => e.nanos = k).map (·.score) =
    (saved.filter fun score => score.time.clampedNanos = k).getLast?.toList

theorem keepsAll_nil (count : Nat) : KeepsAll [] count [] :=
  ⟨List.forall_mem_nil _, List.forall_mem_nil _, List.Pairwise.nil, fun _ => rfl⟩

theorem keepsLast_nil : KeepsLast [] [] :=
  ⟨List.forall_mem_nil _, List.Pairwise.nil, fun _ => rfl⟩

/-- A summary that is saved last stands behind all that are not later. -/
theorem insertSummary_cut {e : StoredSummary} {entries : List StoredSummary}
    (hnumber : ∀ f ∈ entries, f.number < e.number)
    (hascending : entries.Pairwise fun f g => f.nanos ≤ g.nanos) :
    ∃ front back, entries = front ++ back ∧ Store.insertSummary e entries = front ++ e :: back ∧
      (∀ f ∈ front, f.nanos ≤ e.nanos) ∧ ∀ f ∈ back, e.nanos < f.nanos := by
  induction entries with
  | nil => exact ⟨[], [], rfl, rfl, List.forall_mem_nil _, List.forall_mem_nil _⟩
  | cons f rest ih =>
    rw [List.forall_mem_cons] at hnumber
    rw [List.pairwise_cons] at hascending
    obtain ⟨hf, hrest⟩ := hascending
    rw [Store.insertSummary]
    split
    · rename_i hlt
      have hlater : e.nanos < f.nanos := by omega
      refine ⟨[], f :: rest, rfl, rfl, List.forall_mem_nil _, ?_⟩
      rw [List.forall_mem_cons]
      exact ⟨hlater, fun g hg => Int.lt_of_lt_of_le hlater (hf g hg)⟩
    · rename_i hnot
      obtain ⟨front, back, rfl, hinsert, hfront, hback⟩ := ih hnumber.2 hrest
      refine ⟨f :: front, back, rfl, by rw [hinsert, List.cons_append], ?_, hback⟩
      rw [List.forall_mem_cons]
      exact ⟨by omega, hfront⟩

/-- A score takes the place of that of its time. -/
theorem insertScore_cut {e : StoredScore} {entries : List StoredScore}
    (hascending : entries.Pairwise fun f g => f.nanos < g.nanos) :
    ∃ front same back, entries = front ++ same ++ back ∧
      Store.insertScore e entries = front ++ e :: back ∧ (∀ f ∈ front, f.nanos < e.nanos) ∧
      (∀ f ∈ same, f.nanos = e.nanos) ∧ ∀ f ∈ back, e.nanos < f.nanos := by
  induction entries with
  | nil =>
    exact ⟨[], [], [], rfl, rfl, List.forall_mem_nil _, List.forall_mem_nil _,
      List.forall_mem_nil _⟩
  | cons f rest ih =>
    rw [List.pairwise_cons] at hascending
    obtain ⟨hf, hrest⟩ := hascending
    rw [Store.insertScore]
    split
    · rename_i hlt
      refine ⟨[], [], f :: rest, rfl, rfl, List.forall_mem_nil _, List.forall_mem_nil _, ?_⟩
      rw [List.forall_mem_cons]
      exact ⟨hlt, fun g hg => Int.lt_trans hlt (hf g hg)⟩
    · split
      · rename_i heq
        refine ⟨[], [f], rest, rfl, rfl, List.forall_mem_nil _, ?_, fun g hg => ?_⟩
        · exact fun g hg => List.mem_singleton.1 hg ▸ heq.symm
        · rw [heq]
          exact hf g hg
      · obtain ⟨front, same, back, rfl, hinsert, hfront, hsame, hback⟩ := ih hrest
        refine ⟨f :: front, same, back, rfl, by rw [hinsert, List.cons_append], ?_, hsame, hback⟩
        rw [List.forall_mem_cons]
        exact ⟨by omega, hfront⟩

theorem mem_insertSummary {e f : StoredSummary} {entries : List StoredSummary}
    (h : f ∈ Store.insertSummary e entries) : f = e ∨ f ∈ entries := by
  induction entries with
  | nil => exact Or.inl (List.mem_singleton.1 h)
  | cons g rest ih =>
    rw [Store.insertSummary] at h
    split at h
    · exact List.mem_cons.1 h
    · rcases List.mem_cons.1 h with rfl | h
      · exact Or.inr List.mem_cons_self
      · exact (ih h).imp_right (List.mem_cons_of_mem _)

theorem mem_insertScore {e f : StoredScore} {entries : List StoredScore}
    (h : f ∈ Store.insertScore e entries) : f = e ∨ f ∈ entries := by
  induction entries with
  | nil => exact Or.inl (List.mem_singleton.1 h)
  | cons g rest ih =>
    rw [Store.insertScore] at h
    split at h
    · exact List.mem_cons.1 h
    · split at h
      · exact (List.mem_cons.1 h).imp_right (List.mem_cons_of_mem _)
      · rcases List.mem_cons.1 h with rfl | h
        · exact Or.inr List.mem_cons_self
        · exact (ih h).imp_right (List.mem_cons_of_mem _)

section Inserting

variable {e : StoredSummary} {entries : List StoredSummary}
  (hnumber : ∀ f ∈ entries, f.number < e.number)
  (hascending : entries.Pairwise fun f g => f.nanos ≤ g.nanos)

include hnumber hascending

theorem pairwise_insertSummary :
    (Store.insertSummary e entries).Pairwise fun f g => f.nanos ≤ g.nanos := by
  obtain ⟨front, back, rfl, hinsert, hfront, hback⟩ := insertSummary_cut hnumber hascending
  obtain ⟨hpairFront, hpairBack, hacross⟩ := List.pairwise_append.1 hascending
  rw [hinsert, List.pairwise_append, List.pairwise_cons]
  refine ⟨hpairFront, ⟨fun f hf => Int.le_of_lt (hback f hf), hpairBack⟩, fun f hf g hg => ?_⟩
  rcases List.mem_cons.1 hg with rfl | hg
  · exact hfront f hf
  · exact hacross f hf g hg

/-- A new summary is the last one of its time. -/
theorem filter_insertSummary (k : Int) :
    (Store.insertSummary e entries).filter (fun f => f.nanos = k) =
      entries.filter (fun f => f.nanos = k) ++ if e.nanos = k then [e] else [] := by
  obtain ⟨front, back, rfl, hinsert, -, hback⟩ := insertSummary_cut hnumber hascending
  rw [hinsert, List.filter_append, List.filter_append, List.filter_cons, List.append_assoc]
  refine congrArg _ ?_
  by_cases hk : e.nanos = k
  · have hnone : back.filter (fun f => f.nanos = k) = [] := by
      rw [List.filter_eq_nil_iff]
      intro f hf
      have hlater := hback f hf
      rw [decide_eq_true_eq]
      omega
    simp [hk, hnone]
  · simp [hk]

end Inserting

section Inserting

variable {e : StoredScore} {entries : List StoredScore}
  (hascending : entries.Pairwise fun f g => f.nanos < g.nanos)

include hascending

theorem pairwise_insertScore :
    (Store.insertScore e entries).Pairwise fun f g => f.nanos < g.nanos := by
  obtain ⟨front, same, back, rfl, hinsert, hfront, -, hback⟩ := insertScore_cut (e := e) hascending
  rw [List.append_assoc] at hascending
  obtain ⟨hpairFront, hpairRest, hacross⟩ := List.pairwise_append.1 hascending
  rw [hinsert, List.pairwise_append, List.pairwise_cons]
  refine ⟨hpairFront, ⟨hback, (List.pairwise_append.1 hpairRest).2.1⟩, fun f hf g hg => ?_⟩
  rcases List.mem_cons.1 hg with rfl | hg
  · exact hfront f hf
  · exact hacross f hf g (List.mem_append_right _ hg)

/-- A new score is the only one of its time. -/
theorem filter_insertScore (k : Int) :
    (Store.insertScore e entries).filter (fun f => f.nanos = k) =
      if e.nanos = k then [e] else entries.filter fun f => f.nanos = k := by
  obtain ⟨front, same, back, rfl, hinsert, hfront, hsame, hback⟩ := insertScore_cut (e := e) hascending
  have hnone : ∀ rest : List StoredScore, (∀ f ∈ rest, f.nanos ≠ k) →
      rest.filter (fun f => f.nanos = k) = [] := fun rest hrest =>
    List.filter_eq_nil_iff.2 fun f hf => by simpa using hrest f hf
  rw [hinsert, List.filter_append, List.filter_cons]
  by_cases hk : e.nanos = k
  · subst hk
    rw [hnone front fun f hf => Int.ne_of_lt (hfront f hf),
      hnone back fun f hf => Int.ne_of_gt (hback f hf)]
    simp
  · rw [List.filter_append, List.filter_append, hnone same fun f hf => hsame f hf ▸ hk]
    simp [hk]

end Inserting

/-- One summary more is kept behind those of its time. -/
theorem KeepsAll.insert {entries : List StoredSummary} {count : Nat} {saved : List Summary}
    (h : KeepsAll entries count saved) {e : StoredSummary}
    (hplace : e.nanos = e.summary.time.clampedNanos) (hnumber : e.number = count + 1) :
    KeepsAll (Store.insertSummary e entries) (count + 1) (saved ++ [e.summary]) := by
  have hlast : ∀ f ∈ entries, f.number < e.number :=
    fun f hf => hnumber ▸ Nat.lt_succ_of_le (h.number f hf)
  refine ⟨fun f hf => ?_, fun f hf => ?_, pairwise_insertSummary hlast h.ascending, fun k => ?_⟩
  · rcases mem_insertSummary hf with rfl | hf
    · exact hplace
    · exact h.place f hf
  · rcases mem_insertSummary hf with rfl | hf
    · exact Nat.le_of_eq hnumber
    · exact Nat.le_succ_of_le (h.number f hf)
  · rw [filter_insertSummary hlast h.ascending, List.map_append, h.complete, List.filter_append,
      hplace]
    refine congrArg _ ?_
    by_cases hk : e.summary.time.clampedNanos = k
    · simp [hk]
    · simp [hk]

/-- One score more is kept instead of that of its time. -/
theorem KeepsLast.insert {entries : List StoredScore} {saved : List AnomalyScore}
    (h : KeepsLast entries saved) {e : StoredScore}
    (hplace : e.nanos = e.score.time.clampedNanos) :
    KeepsLast (Store.insertScore e entries) (saved ++ [e.score]) := by
  refine ⟨fun f hf => ?_, pairwise_insertScore h.ascending, fun k => ?_⟩
  · rcases mem_insertScore hf with rfl | hf
    · exact hplace
    · exact h.place f hf
  · rw [filter_insertScore h.ascending, List.filter_append, hplace]
    by_cases hk : e.score.time.clampedNanos = k
    · simp [hk]
    · simp [hk, h.latest]

theorem KeepsLast.insertAll {entries : List StoredScore} {saved : List AnomalyScore}
    (h : KeepsLast entries saved) (scores : List AnomalyScore) :
    KeepsLast (scores.foldl
      (fun es (x : AnomalyScore) => Store.insertScore ⟨x.time.clampedNanos, x⟩ es) entries)
      (saved ++ scores) := by
  induction scores generalizing entries saved with
  | nil => rwa [List.append_nil]
  | cons score scores ih =>
    rw [List.foldl_cons, List.append_cons]
    exact ih (h.insert (e := ⟨score.time.clampedNanos, score⟩) rfl)

/-- Numbers that are given to other sources do no harm. -/
theorem KeepsAll.succ {entries : List StoredSummary} {count : Nat} {saved : List Summary}
    (h : KeepsAll entries count saved) : KeepsAll entries (count + 1) saved :=
  ⟨h.place, fun e he => Nat.le_succ_of_le (h.number e he), h.ascending, h.complete⟩

/-- There are entries just when something is left. -/
theorem KeepsAll.isEmpty_iff {entries : List StoredSummary} {count : Nat} {saved : List Summary}
    (h : KeepsAll entries count saved) : entries.isEmpty = true ↔ saved = [] := by
  rw [List.isEmpty_iff]
  constructor
  · rintro rfl
    cases saved with
    | nil => rfl
    | cons summary saved => simpa using h.complete summary.time.clampedNanos
  · rintro rfl
    cases entries with
    | nil => rfl
    | cons e entries => simpa using h.complete e.nanos

theorem KeepsLast.isEmpty_iff {entries : List StoredScore} {saved : List AnomalyScore}
    (h : KeepsLast entries saved) : entries.isEmpty = true ↔ saved = [] := by
  rw [List.isEmpty_iff]
  constructor
  · rintro rfl
    cases saved with
    | nil => rfl
    | cons score saved => simpa using h.latest score.time.clampedNanos
  · rintro rfl
    cases entries with
    | nil => rfl
    | cons e entries => simpa using h.latest e.nanos

/-- The entries of a range are its timeline. -/
theorem KeepsAll.isTimeline {entries : List StoredSummary} {count : Nat} {saved : List Summary}
    (h : KeepsAll entries count saved) (low high : Int) :
    IsTimeline (fun summary : Summary => summary.time.clampedNanos) low high saved
      ((entries.filter fun e => low ≤ e.nanos && e.nanos ≤ high).map (·.summary)) where
  within := within_map_range _ StoredSummary.summary h.place
  ascending := pairwise_map_range _ StoredSummary.summary h.place h.ascending _
  complete k hlow hhigh := (filter_map_range _ StoredSummary.summary h.place hlow hhigh).trans (h.complete k)

theorem KeepsLast.isSeries {entries : List StoredScore} {saved : List AnomalyScore}
    (h : KeepsLast entries saved) (low high : Int) :
    IsSeries (fun score : AnomalyScore => score.time.clampedNanos) low high saved
      ((entries.filter fun e => low ≤ e.nanos && e.nanos ≤ high).map (·.score)) where
  within := within_map_range _ StoredScore.score h.place
  ascending := pairwise_map_range _ StoredScore.score h.place h.ascending _
  latest k hlow hhigh := (filter_map_range _ StoredScore.score h.place hlow hhigh).trans (h.latest k)

/-! ## Visitors -/

section Visitors

variable {α σ : Type} (visit : σ → α → σ × Bool)

/-- What a visitor sees of the items that are there: all up to the first that it declines. -/
def seenBy : σ → List α → List α
  | _, [] => []
  | s, a :: rest => a :: if (visit s a).2 then seenBy (visit s a).1 rest else []

/-- A visit that shows some items to a visitor: it sees them from the front, and all of them if it never
declines. -/
structure Shows (shown : List α) (init : σ) (answer : Except StoreError σ) : Prop where
  answer_eq : answer = .ok ((seenBy visit init shown).foldl (fun s a => (visit s a).1) init)
  front : seenBy visit init shown <+: shown
  whole : (∀ s a, (visit s a).2 = true) → seenBy visit init shown = shown

theorem visitWhile_eq_foldl (shown : List α) (init : σ) :
    Store.visitWhile visit shown init =
      (seenBy visit init shown).foldl (fun s a => (visit s a).1) init := by
  induction shown generalizing init with
  | nil => rfl
  | cons a rest ih =>
    rw [Store.visitWhile, seenBy, List.foldl_cons]
    rcases hvisit : visit init a with ⟨s, goesOn⟩
    cases goesOn with
    | true => exact ih s
    | false => rfl

theorem shows_visitWhile (shown : List α) (init : σ) :
    Shows visit shown init (.ok (Store.visitWhile visit shown init)) := by
  refine ⟨congrArg _ (visitWhile_eq_foldl visit shown init), ?_, fun hgoesOn => ?_⟩
  · induction shown generalizing init with
    | nil => exact List.prefix_refl _
    | cons a rest ih =>
      rw [seenBy, List.prefix_cons_inj]
      split
      · exact ih _
      · exact List.nil_prefix
  · induction shown generalizing init with
    | nil => rfl
    | cons a rest ih => rw [seenBy, if_pos (hgoesOn init a), ih]

end Visitors

/-! ## Stores and their calls -/

namespace Store

/-- A store of which nothing is out of order. -/
structure IsUsable (s : Store) : Prop where
  outages : s.outages = []
  poisoned : s.poisoned = false
  breaking : s.breaking = false

/-- A store whose entries are what its calls have left. -/
structure Mirrors (s : Store) (calls : List StoreCall) : Prop where
  usable : s.IsUsable
  summaries : ∀ source, KeepsAll (s.summaries.get source) s.saved (savedSummaries source calls)
  scores : ∀ source, KeepsLast (s.scores.get source) (savedScores source calls)

theorem IsUsable.available_eq {s : Store} (h : s.IsUsable) (op : StoreOperation) :
    s.available op = .ok () := by
  rw [available, h.outages, h.poisoned]
  rfl

theorem ofCalls_concat (calls : List StoreCall) (call : StoreCall) :
    ofCalls (calls ++ [call]) = (ofCalls calls).after call := by
  rw [ofCalls, List.foldl_append, List.foldl_cons, List.foldl_nil, ofCalls]

/-- A store that cannot be used stays as it is. -/
theorem after_of_poisoned {s : Store} (h : s.poisoned = true) (call : StoreCall) :
    s.after call = s := by
  have havailable : ∀ op, ∃ e, s.available op = .error e := by
    intro op
    rw [available, h]
    split
    · exact ⟨_, rfl⟩
    · exact ⟨_, rfl⟩
  cases call with
  | saveSummary summary =>
    obtain ⟨e, he⟩ := havailable .saveSummary
    rw [after, saveSummary, he]
    rfl
  | saveScores source scores =>
    obtain ⟨e, he⟩ := havailable .saveScores
    rw [after, saveScores, he]
    split
    · rfl
    · rfl
  | saveNotify event =>
    obtain ⟨e, he⟩ := havailable .saveNotify
    rw [after, saveNotify, he]
    rfl
  | clearReport source =>
    rw [after, clearReport, h]
    rfl
  | visitSummaries source first last =>
    obtain ⟨e, he⟩ := havailable .visitSummaries
    rw [after, visitSummaries, he]
  | visitScores source first last =>
    rw [after, visitScores, h]
    rfl

/-- Whatever its visitor does, a visit fails or shows the same items, and leaves the same store: as it was, or,
after a range the wrong way round, one that cannot be used. -/
theorem visitSummaries_cases (s : Store) (source : SourceType) (first last : Instant) :
    ∃ left, (left = s ∨ (left = s.poison ∧ last.clampedNanos < first.clampedNanos)) ∧
      ((∃ e, ∀ {σ : Type} (visit : σ → Summary → σ × Bool) (init : σ),
        s.visitSummaries source first last visit init = (.error e, left)) ∨
      ∃ shown, ∀ {σ : Type} (visit : σ → Summary → σ × Bool) (init : σ),
        s.visitSummaries source first last visit init = (.ok (visitWhile visit shown init), left)) := by
  cases havailable : s.available .visitSummaries with
  | error e =>
    refine ⟨s, Or.inl rfl, Or.inl ⟨e, fun visit init => ?_⟩⟩
    rw [visitSummaries, havailable]
  | ok =>
    by_cases hempty : (s.summaries.get source).isEmpty = true
    · refine ⟨s, Or.inl rfl, Or.inr ⟨[], fun visit init => ?_⟩⟩
      rw [visitSummaries, havailable]
      exact if_pos hempty
    · by_cases hreversed : last.clampedNanos < first.clampedNanos
      · refine ⟨s.poison, Or.inr ⟨rfl, hreversed⟩, Or.inl ⟨.reversedRange, fun visit init => ?_⟩⟩
        rw [visitSummaries, havailable]
        exact (if_neg hempty).trans (if_pos hreversed)
      · refine ⟨s, Or.inl rfl, Or.inr ⟨((s.summaries.get source).filter fun e =>
          first.clampedNanos ≤ e.nanos && e.nanos ≤ last.clampedNanos).map (·.summary),
          fun visit init => ?_⟩⟩
        rw [visitSummaries, havailable]
        exact (if_neg hempty).trans (if_neg hreversed)

theorem visitScores_cases (s : Store) (source : SourceType) (first last : Instant) :
    ∃ left, (left = s ∨ (left = s.poison ∧ last.clampedNanos < first.clampedNanos)) ∧
      ((∃ e, ∀ {σ : Type} (visit : σ → AnomalyScore → σ × Bool) (init : σ),
        s.visitScores source first last visit init = (.error e, left)) ∨
      ∃ shown, ∀ {σ : Type} (visit : σ → AnomalyScore → σ × Bool) (init : σ),
        s.visitScores source first last visit init = (.ok (visitWhile visit shown init), left)) := by
  by_cases hpoisoned : s.poisoned = true
  · exact ⟨s, Or.inl rfl, Or.inl ⟨.poisoned, fun visit init => if_pos hpoisoned⟩⟩
  · by_cases hempty : (s.scores.get source).isEmpty = true
    · refine ⟨s, Or.inl rfl, Or.inr ⟨[], fun visit init => ?_⟩⟩
      exact (if_neg hpoisoned).trans (if_pos hempty)
    · by_cases hreversed : last.clampedNanos < first.clampedNanos
      · refine ⟨s.poison, Or.inr ⟨rfl, hreversed⟩, Or.inl ⟨.reversedRange, fun visit init => ?_⟩⟩
        exact (if_neg hpoisoned).trans ((if_neg hempty).trans (if_pos hreversed))
      · refine ⟨s, Or.inl rfl, Or.inr ⟨((s.scores.get source).filter fun e =>
          first.clampedNanos ≤ e.nanos && e.nanos ≤ last.clampedNanos).map (·.score),
          fun visit init => ?_⟩⟩
        exact (if_neg hpoisoned).trans ((if_neg hempty).trans (if_neg hreversed))

theorem mirrors_empty : empty.Mirrors [] where
  usable := ⟨rfl, rfl, rfl⟩
  summaries source := by
    rw [empty, PerSource.get_const]
    exact keepsAll_nil 0
  scores source := by
    rw [empty, PerSource.get_const]
    exact keepsLast_nil

section Calls

variable {s : Store} {calls : List StoreCall} (h : s.Mirrors calls)

include h

theorem Mirrors.saveSummary (summary : Summary) :
    (s.after (.saveSummary summary)).Mirrors (calls ++ [.saveSummary summary]) := by
  rw [after, Store.saveSummary, h.usable.available_eq]
  refine ⟨⟨h.usable.outages, h.usable.poisoned, h.usable.breaking⟩, fun source => ?_,
    fun source => ?_⟩
  · rw [savedSummaries_concat, StoreCall.keepSummaries]
    change KeepsAll ((s.summaries.set summary.source _).get source) (s.saved + 1) _
    by_cases hsource : summary.source = source
    · subst hsource
      rw [if_pos rfl, PerSource.get_set_self]
      exact (h.summaries _).insert
        (e := ⟨summary.time.clampedNanos, s.saved + 1, summary⟩) rfl rfl
    · rw [if_neg hsource, PerSource.get_set_of_ne _ (Ne.symm hsource)]
      exact (h.summaries source).succ
  · rw [savedScores_concat]
    exact h.scores source

theorem Mirrors.saveScores (source : SourceType) (scores : List AnomalyScore) :
    (s.after (.saveScores source scores)).Mirrors (calls ++ [.saveScores source scores]) := by
  rw [after, Store.saveScores, h.usable.breaking, h.usable.available_eq]
  refine ⟨⟨h.usable.outages, h.usable.poisoned, rfl⟩, fun other => ?_,
    fun other => ?_⟩
  · rw [savedSummaries_concat]
    exact h.summaries other
  · rw [savedScores_concat, StoreCall.keepScores]
    change KeepsLast ((s.scores.set source _).get other) _
    by_cases hsource : source = other
    · subst hsource
      rw [if_pos rfl, PerSource.get_set_self]
      exact (h.scores source).insertAll scores
    · rw [if_neg hsource, PerSource.get_set_of_ne _ (Ne.symm hsource)]
      exact h.scores other

theorem Mirrors.saveNotify (event : NotifyEvent) :
    (s.after (.saveNotify event)).Mirrors (calls ++ [.saveNotify event]) := by
  rw [after, Store.saveNotify, h.usable.available_eq]
  refine ⟨⟨h.usable.outages, h.usable.poisoned, h.usable.breaking⟩, fun source => ?_,
    fun source => ?_⟩
  · rw [savedSummaries_concat]
    exact h.summaries source
  · rw [savedScores_concat]
    exact h.scores source

theorem Mirrors.clearReport (source : SourceType) :
    (s.after (.clearReport source)).Mirrors (calls ++ [.clearReport source]) := by
  rw [after, Store.clearReport, h.usable.poisoned]
  refine ⟨⟨h.usable.outages, rfl, h.usable.breaking⟩, fun other => ?_,
    fun other => ?_⟩
  · rw [savedSummaries_concat, StoreCall.keepSummaries]
    change KeepsAll ((s.summaries.set source []).get other) s.saved _
    by_cases hsource : source = other
    · subst hsource
      rw [if_pos rfl, PerSource.get_set_self]
      exact keepsAll_nil _
    · rw [if_neg hsource, PerSource.get_set_of_ne _ (Ne.symm hsource)]
      exact h.summaries other
  · rw [savedScores_concat, StoreCall.keepScores]
    change KeepsLast ((s.scores.set source []).get other) _
    by_cases hsource : source = other
    · subst hsource
      rw [if_pos rfl, PerSource.get_set_self]
      exact keepsLast_nil
    · rw [if_neg hsource, PerSource.get_set_of_ne _ (Ne.symm hsource)]
      exact h.scores other

section Visiting

variable {σ : Type} {source : SourceType} {first last : Instant}

/-- A visit that does no harm is shown the entries of its range. -/
theorem Mirrors.visitSummaries_eq (hnot : ¬ (StoreCall.visitSummaries source first last).Spoils calls)
    (visit : σ → Summary → σ × Bool) (init : σ) :
    s.visitSummaries source first last visit init =
      (.ok (visitWhile visit (((s.summaries.get source).filter fun e =>
        first.clampedNanos ≤ e.nanos && e.nanos ≤ last.clampedNanos).map (·.summary)) init), s) := by
  rw [Store.visitSummaries, h.usable.available_eq]
  dsimp only
  split
  · rename_i hnil
    rw [List.isEmpty_iff.1 hnil]
    rfl
  · rename_i hnil
    rw [if_neg fun hreversed => hnot ⟨fun hsaved => hnil ((h.summaries source).isEmpty_iff.2 hsaved),
      hreversed⟩]

theorem Mirrors.visitSummaries_of_spoils
    (hspoils : (StoreCall.visitSummaries source first last).Spoils calls)
    (visit : σ → Summary → σ × Bool) (init : σ) :
    s.visitSummaries source first last visit init = (.error .reversedRange, s.poison) := by
  rw [Store.visitSummaries, h.usable.available_eq]
  dsimp only
  rw [if_neg fun hnil => hspoils.1 ((h.summaries source).isEmpty_iff.1 hnil), if_pos hspoils.2]

theorem Mirrors.visitScores_eq (hnot : ¬ (StoreCall.visitScores source first last).Spoils calls)
    (visit : σ → AnomalyScore → σ × Bool) (init : σ) :
    s.visitScores source first last visit init =
      (.ok (visitWhile visit (((s.scores.get source).filter fun e =>
        first.clampedNanos ≤ e.nanos && e.nanos ≤ last.clampedNanos).map (·.score)) init), s) := by
  rw [Store.visitScores, h.usable.poisoned, if_neg Bool.false_ne_true]
  dsimp only
  split
  · rename_i hnil
    rw [List.isEmpty_iff.1 hnil]
    rfl
  · rename_i hnil
    rw [if_neg fun hreversed => hnot ⟨fun hsaved => hnil ((h.scores source).isEmpty_iff.2 hsaved),
      hreversed⟩]

theorem Mirrors.visitScores_of_spoils
    (hspoils : (StoreCall.visitScores source first last).Spoils calls)
    (visit : σ → AnomalyScore → σ × Bool) (init : σ) :
    s.visitScores source first last visit init = (.error .reversedRange, s.poison) := by
  rw [Store.visitScores, h.usable.poisoned, if_neg Bool.false_ne_true]
  dsimp only
  rw [if_neg fun hnil => hspoils.1 ((h.scores source).isEmpty_iff.1 hnil), if_pos hspoils.2]

end Visiting

/-- What neither saves nor clears changes nothing. -/
theorem Mirrors.concat {call : StoreCall}
    (hsummaries : ∀ source saved, call.keepSummaries source saved = saved)
    (hscores : ∀ source saved, call.keepScores source saved = saved) :
    s.Mirrors (calls ++ [call]) := by
  refine ⟨h.usable, fun source => ?_, fun source => ?_⟩
  · rw [savedSummaries_concat, hsummaries]
    exact h.summaries source
  · rw [savedScores_concat, hscores]
    exact h.scores source

/-- Every call is mirrored, unless it spoils the store. -/
theorem Mirrors.step {call : StoreCall} (hnot : ¬ call.Spoils calls) :
    (s.after call).Mirrors (calls ++ [call]) := by
  cases call with
  | saveSummary summary => exact h.saveSummary summary
  | saveScores source scores => exact h.saveScores source scores
  | saveNotify event => exact h.saveNotify event
  | clearReport source => exact h.clearReport source
  | visitSummaries source first last =>
    rw [after, h.visitSummaries_eq hnot]
    exact h.concat (fun _ _ => rfl) fun _ _ => rfl
  | visitScores source first last =>
    rw [after, h.visitScores_eq hnot]
    exact h.concat (fun _ _ => rfl) fun _ _ => rfl

theorem Mirrors.poisoned_after {call : StoreCall} (hspoils : call.Spoils calls) :
    (s.after call).poisoned = true := by
  obtain ⟨source, first, last, -, ⟨rfl, -⟩ | ⟨rfl, -⟩⟩ := hspoils.exists_visit
  · rw [after, h.visitSummaries_of_spoils hspoils]
    rfl
  · rw [after, h.visitScores_of_spoils hspoils]
    rfl

end Calls

/-- A store mirrors its calls, unless one of them has spoilt it. -/
theorem poisoned_or_mirrors (calls : List StoreCall) :
    (IsSpoilt calls ∧ (ofCalls calls).poisoned = true) ∨
      (¬ IsSpoilt calls ∧ (ofCalls calls).Mirrors calls) := by
  induction calls using List.reverseRecOn with
  | nil => exact Or.inr ⟨not_isSpoilt_nil, mirrors_empty⟩
  | append_singleton calls call ih =>
    rw [ofCalls_concat, isSpoilt_concat]
    -- A store that cannot be used stays so: the first call that spoils it decides.
    rcases ih with ⟨hspoilt, hpoisoned⟩ | ⟨hsound, hmirrors⟩
    · exact Or.inl ⟨Or.inl hspoilt, (after_of_poisoned hpoisoned call).symm ▸ hpoisoned⟩
    · by_cases hspoils : call.Spoils calls
      · exact Or.inl ⟨Or.inr hspoils, hmirrors.poisoned_after hspoils⟩
      · exact Or.inr ⟨not_or.2 ⟨hsound, hspoils⟩, hmirrors.step hspoils⟩

/-! ## Visits -/

/-- After some calls, visits to a range show what is left of a source: its summaries in ascending order,
those of one key as they were saved, and the last score of each key. -/
structure ShowsRange {κ : Type} [LE κ] [LT κ] [DecidableEq κ] (key : Instant → κ)
    (calls : List StoreCall) (source : SourceType) (first last : Instant) : Prop where
  summaries : ∃ shown, IsTimeline (fun m : Summary => key m.time) (key first) (key last)
    (savedSummaries source calls) shown ∧
      ∀ {σ : Type} (visit : σ → Summary → σ × Bool) (init : σ), Shows visit shown init
        ((ofCalls calls).visitSummaries source first last visit init).1
  scores : ∃ shown, IsSeries (fun m : AnomalyScore => key m.time) (key first) (key last)
    (savedScores source calls) shown ∧
      ∀ {σ : Type} (visit : σ → AnomalyScore → σ × Bool) (init : σ), Shows visit shown init
        ((ofCalls calls).visitScores source first last visit init).1

/-- Visits to a source are answered alike by two stores. -/
structure AnswersAlike (a b : Store) (source : SourceType) : Prop where
  summaries : ∀ {σ : Type} first last (visit : σ → Summary → σ × Bool) (init : σ),
    (a.visitSummaries source first last visit init).1 =
      (b.visitSummaries source first last visit init).1
  scores : ∀ {σ : Type} first last (visit : σ → AnomalyScore → σ × Bool) (init : σ),
    (a.visitScores source first last visit init).1 = (b.visitScores source first last visit init).1

/-- A range in order for the store is shown in order of nanoseconds. -/
theorem Mirrors.showsRange {calls : List StoreCall} (h : (ofCalls calls).Mirrors calls)
    (source : SourceType) {first last : Instant} (hle : first.clampedNanos ≤ last.clampedNanos) :
    ShowsRange Instant.clampedNanos calls source first last := by
  constructor
  · refine ⟨_, (h.summaries source).isTimeline _ _, fun visit init => ?_⟩
    rw [h.visitSummaries_eq fun hspoils => Int.not_lt.2 hle hspoils.2]
    exact shows_visitWhile visit _ init
  · refine ⟨_, (h.scores source).isSeries _ _, fun visit init => ?_⟩
    rw [h.visitScores_eq fun hspoils => Int.not_lt.2 hle hspoils.2]
    exact shows_visitWhile visit _ init

/-- Stores whose calls have left the same of a source answer alike. -/
theorem Mirrors.answersAlike {a b : Store} {calls others : List StoreCall} (ha : a.Mirrors calls)
    (hb : b.Mirrors others) {source : SourceType}
    (hsummaries : savedSummaries source others = savedSummaries source calls)
    (hscores : savedScores source others = savedScores source calls) :
    a.AnswersAlike b source := by
  constructor
  · intro σ first last visit init
    by_cases hspoils : (StoreCall.visitSummaries source first last).Spoils calls
    · rw [ha.visitSummaries_of_spoils hspoils, hb.visitSummaries_of_spoils]
      rwa [StoreCall.Spoils, hsummaries]
    · have hspoils' : ¬ (StoreCall.visitSummaries source first last).Spoils others := by
        rwa [StoreCall.Spoils, hsummaries]
      have htimeline := (hb.summaries source).isTimeline first.clampedNanos last.clampedNanos
      rw [hsummaries] at htimeline
      rw [ha.visitSummaries_eq hspoils, hb.visitSummaries_eq hspoils',
        ((ha.summaries source).isTimeline _ _).unique htimeline]
  · intro σ first last visit init
    by_cases hspoils : (StoreCall.visitScores source first last).Spoils calls
    · rw [ha.visitScores_of_spoils hspoils, hb.visitScores_of_spoils]
      rwa [StoreCall.Spoils, hscores]
    · have hspoils' : ¬ (StoreCall.visitScores source first last).Spoils others := by
        rwa [StoreCall.Spoils, hscores]
      have hseries := (hb.scores source).isSeries first.clampedNanos last.clampedNanos
      rw [hscores] at hseries
      rw [ha.visitScores_eq hspoils, hb.visitScores_eq hspoils',
        ((ha.scores source).isSeries _ _).unique hseries]

/-- Where no leap seconds occur, the order of nanoseconds is that of the calendar. -/
theorem ShowsRange.calendar {calls : List StoreCall} {source : SourceType} {first last : Instant}
    (h : ShowsRange Instant.clampedNanos calls source first last)
    (hsummaries : ∀ m ∈ savedSummaries source calls, IsOrdinary m.time)
    (hscores : ∀ m ∈ savedScores source calls, IsOrdinary m.time)
    (hfirst : first.isLeap = false) (hlast : last.isLeap = false) :
    ShowsRange (fun t => t) calls source first last := by
  obtain ⟨shown, htimeline, hshows⟩ := h.summaries
  obtain ⟨series, hseries, hshowsSeries⟩ := h.scores
  exact ⟨⟨shown, htimeline.of_clampedNanos hsummaries hfirst hlast, hshows⟩,
    ⟨series, hseries.of_clampedNanos hscores hfirst hlast, hshowsSeries⟩⟩

/-- After any calls a store can be used unless one of them has spoilt it, which ranges in the order of the
calendar do only in leap seconds.  A store that can be used shows what is left of a source, in order of
nanoseconds and, outside leap seconds, in that of the calendar; and calls about other sources do not
change what it shows. -/
theorem visits_show_saved (calls : List StoreCall) (source : SourceType) :
    ((ofCalls calls).poisoned = true ↔ IsSpoilt calls) ∧
    ((∀ call ∈ calls, call.IsPlain) → ¬ IsSpoilt calls) ∧
    (¬ IsSpoilt calls →
      (∀ first last : Instant, first.clampedNanos ≤ last.clampedNanos →
        ShowsRange Instant.clampedNanos calls source first last) ∧
      ((∀ m ∈ savedSummaries source calls, IsOrdinary m.time) →
        (∀ m ∈ savedScores source calls, IsOrdinary m.time) →
        ∀ first last : Instant, first ≤ last → first.isLeap = false → last.isLeap = false →
          ShowsRange (fun t => t) calls source first last) ∧
      AnswersAlike (ofCalls calls) (ofCalls (callsOf source calls)) source) := by
  refine ⟨?_, not_isSpoilt_of_isPlain calls, fun hsound => ?_⟩
  · rcases poisoned_or_mirrors calls with ⟨hspoilt, hpoisoned⟩ | ⟨hsound, hmirrors⟩
    · exact iff_of_true hpoisoned hspoilt
    · rw [hmirrors.usable.poisoned]
      exact iff_of_false Bool.false_ne_true hsound
  · have hmirrors : (ofCalls calls).Mirrors calls :=
      ((poisoned_or_mirrors calls).resolve_left fun h => hsound h.1).2
    have hown : (ofCalls (callsOf source calls)).Mirrors (callsOf source calls) :=
      ((poisoned_or_mirrors _).resolve_left fun h => hsound (isSpoilt_of_callsOf source calls h.1)).2
    obtain ⟨hsummaries, hscores⟩ := saved_callsOf source calls
    refine ⟨fun first last hle => hmirrors.showsRange source hle, ?_,
      hmirrors.answersAlike hown hsummaries hscores⟩
    intro hordinary hordinary' first last hle hfirst hlast
    exact (hmirrors.showsRange source (Instant.clampedNanos_mono hfirst hlast hle)).calendar hordinary
      hordinary' hfirst hlast

/-- The summary of a few traps. -/
def trapsAt (time : Instant) : Summary :=
  .trap ⟨time, 4, 1, []⟩

/-- A range that begins in the middle of a leap second and ends soon after it is in the order of the
calendar, but once it has been asked for no visit is answered any more. -/
theorem leapSecond_poisons :
    let first : Instant := ⟨1483228799, 1500000000⟩
    let last : Instant := ⟨1483228800, 200000000⟩
    let calls := [.saveSummary (trapsAt ⟨1483228800, 0⟩), .visitSummaries .trap first last]
    first ≤ last ∧ IsSpoilt calls ∧ (ofCalls calls).poisoned = true := by
  intro first last calls
  have hspoilt : IsSpoilt calls := by
    refine ⟨[.saveSummary (trapsAt ⟨1483228800, 0⟩)], _, List.prefix_refl _, ?_, by decide⟩
    exact List.cons_ne_nil _ _
  exact ⟨by decide, hspoilt, (visits_show_saved calls .trap).1.2 hspoilt⟩

end Store

end LogWatch
