import LogWatch.Report.Window
import Mathlib.Data.List.Infix

/-!
# What the reports of a window count

A window is asked to add records and to look at the time, in any order and with any times.  The calls
that are answered with a report cut the records it has accepted into batches.

* `Window.Call`, `Window.transcript` — a run of calls, each with its answer;
* `Window.batches` — the details that were accepted from one report to the next;
* `Window.Holding` — a window has counted some details since it was opened, and nothing else;
* `Window.reports_eq_batches` — each report is that of a fresh tally of its batch, and the open window
  holds the last one.
-/

namespace LogWatch.Report

open Time

/-- The tally of some details, counted one after the other from nothing. -/
def Tally.ofDetails (source : SourceType) (details : List RecordDetail) : Tally :=
  details.foldl Tally.add (.empty source)

theorem Tally.ofDetails_concat (source : SourceType) (details : List RecordDetail)
    (d : RecordDetail) :
    Tally.ofDetails source (details ++ [d]) = (Tally.ofDetails source details).add d := by
  rw [ofDetails, List.foldl_append, List.foldl_cons, List.foldl_nil, ofDetails]

/-- Counting does not change whose details a tally takes. -/
theorem Tally.source_add (t : Tally) (d : RecordDetail) : (t.add d).source = t.source := by
  cases t <;> cases d <;> rfl

theorem Tally.source_ofDetails (source : SourceType) (details : List RecordDetail) :
    (Tally.ofDetails source details).source = source := by
  induction details using List.reverseRecOn with
  | nil => cases source <;> rfl
  | append_singleton details d ih => rw [ofDetails_concat, source_add, ih]

/-- The beginnings of the windows that a clock closes at some times, one after the other. -/
def WindowClock.closings (c : WindowClock) : List Instant → List Instant
  | [] => []
  | now :: rest => (c.tick now).1.toList ++ closings (c.tick now).2 rest

namespace Window

/-! ## Runs -/

/-- What is asked of a window. -/
inductive Call where
  | add (r : LogRecord)
  | tick (now : Instant)

/-- The detail that a call brings to the report of a source, if it brings one. -/
def Call.accepted (source : SourceType) : Call → List RecordDetail
  | .add r => r.detail.toList.filter fun d => d.source = source
  | .tick _ => []

/-- The time that a call tells. -/
def Call.time? : Call → Option Instant
  | .add _ => none
  | .tick now => some now

/-- The report that answers a call, if one does, and the window after the call. -/
def answer (w : Window) : Call → Option Summary × Window
  | .add r => (none, w.add r)
  | .tick now => w.tick now

/-- Calls one after the other, each with its answer. -/
def transcript (w : Window) : List Call → List (Call × Option Summary)
  | [] => []
  | c :: rest => (c, (w.answer c).1) :: transcript (w.answer c).2 rest

/-- The window after some calls. -/
def after (w : Window) (calls : List Call) : Window :=
  calls.foldl (fun w c => (w.answer c).2) w

/-- The details that were accepted before the first report, between one report and the next, and after
the last report. -/
def batches (source : SourceType) (calls : List (Call × Option Summary)) :
    List (List RecordDetail) :=
  (calls.splitOnP fun x => x.2.isSome).map fun part => part.flatMap fun x => x.1.accepted source

section Batches

variable {source : SourceType}

theorem batches_none (c : Call) (calls : List (Call × Option Summary)) :
    batches source ((c, none) :: calls) =
      (batches source calls).modifyHead (c.accepted source ++ ·) := by
  rw [batches, List.splitOnP_cons_eq_if_modifyHead, if_neg (by simp), batches]
  cases calls.splitOnP fun x => x.2.isSome with
  | nil => rfl
  | cons part parts => rfl

/-- Before any other details, no details are added to the first batch. -/
theorem modifyHead_nil_append (parts : List (List RecordDetail)) :
    parts.modifyHead ([] ++ ·) = parts := by
  cases parts with
  | nil => rfl
  | cons part rest => rfl

theorem batches_some (c : Call) (s : Summary) (calls : List (Call × Option Summary)) :
    batches source ((c, some s) :: calls) = [] :: batches source calls := by
  rw [batches, List.splitOnP_cons_eq_if_modifyHead, if_pos Option.isSome_some, batches]
  rfl

end Batches

/-! ## Steps -/

/-- Since it was opened, a window has counted some details of its source, in order, and nothing else.
Their number is kept in 64 bits. -/
structure Holding (w : Window) (source : SourceType) (topN : Nat) (held : List RecordDetail) :
    Prop where
  tally : w.tally = Tally.ofDetails source held
  pending : w.pending = UInt64.ofNat held.length
  topN : w.topN = topN

section Steps

variable {w : Window} {source : SourceType} {n : Nat} {held : List RecordDetail}

theorem holding_start (source : SourceType) (settings : ReportSettings) (now : Instant) :
    (start source settings now).Holding source settings.topN [] :=
  ⟨rfl, rfl, rfl⟩

theorem Holding.source_eq (h : w.Holding source n held) : w.source = source := by
  rw [Window.source, h.tally, Tally.source_ofDetails]

/-- A record is counted if it has a detail of the window's source, and else changes nothing. -/
theorem Holding.add (h : w.Holding source n held) (r : LogRecord) :
    (w.add r).Holding source n (held ++ Call.accepted source (.add r)) := by
  rw [Window.add, h.source_eq]
  cases hdetail : r.detail with
  | none => simpa [Call.accepted, hdetail] using h
  | some d =>
    by_cases hsource : d.source = source
    · have haccepted : Call.accepted source (.add r) = [d] := by
        simp [Call.accepted, hdetail, hsource]
      rw [haccepted]
      show Holding (if d.source = source then _ else _) source n (held ++ [d])
      rw [if_pos hsource]
      refine ⟨?_, ?_, h.topN⟩
      · show w.tally.add d = _
        rw [Tally.ofDetails_concat, h.tally]
      · show w.pending + 1 = _
        rw [List.length_append, h.pending, List.length_singleton, UInt64.ofNat_add]
        rfl
    · have haccepted : Call.accepted source (.add r) = [] := by
        simp [Call.accepted, hdetail, hsource]
      rw [haccepted, List.append_nil]
      show Holding (if d.source = source then _ else _) source n held
      rw [if_neg hsource]
      exact h

/-- Adding records does not move the clock. -/
theorem clock_add (w : Window) (r : LogRecord) : (w.add r).clock = w.clock := by
  unfold Window.add
  split
  · split <;> rfl
  · rfl

theorem clock_tick (w : Window) (now : Instant) : (w.tick now).2.clock = (w.clock.tick now).2 := by
  unfold Window.tick
  split <;> rename_i heq <;> rw [heq]

/-- While the clock stays in the open window, the window goes on. -/
theorem Holding.tick_none (h : w.Holding source n held) {now : Instant}
    (hopen : (w.clock.tick now).1 = none) :
    (w.tick now).1 = none ∧ (w.tick now).2.Holding source n held := by
  unfold Window.tick
  split
  · rename_i heq
    rw [heq] at hopen
    cases hopen
  · exact ⟨rfl, h.tally, h.pending, h.topN⟩

/-- When the clock closes the open window, the report is that of the details held, and the next window
begins with none. -/
theorem Holding.tick_some (h : w.Holding source n held) {now closed : Instant}
    (hclosed : (w.clock.tick now).1 = some closed) :
    (w.tick now).1 = some ((Tally.ofDetails source held).summary closed n) ∧
      (w.tick now).2.Holding source n [] := by
  unfold Window.tick
  split
  · rename_i heq
    rw [heq] at hclosed
    cases hclosed
    refine ⟨?_, ?_, rfl, h.topN⟩
    · rw [h.tally, h.topN]
    · show Tally.empty w.source = _
      rw [h.source_eq]
      rfl
  · rename_i heq
    rw [heq] at hclosed
    cases hclosed

end Steps

/-! ## What a run reports -/

/-- What is known of a run from a window that holds some details: those and the accepted ones, cut at the
reports. -/
structure Accounts (w : Window) (source : SourceType) (n : Nat) (held : List RecordDetail)
    (calls : List Call) (closed : List (List RecordDetail)) (last : List RecordDetail) : Prop where
  batches : (batches source (w.transcript calls)).modifyHead (held ++ ·) = closed ++ [last]
  reports : (w.transcript calls).filterMap (·.2) =
    List.zipWith (fun begin details => (Tally.ofDetails source details).summary begin n)
      (w.clock.closings (calls.filterMap Call.time?)) closed
  closings : (w.clock.closings (calls.filterMap Call.time?)).length = closed.length
  holding : (w.after calls).Holding source n last
  all : closed.flatten ++ last = held ++ calls.flatMap (Call.accepted source)

/-- A call without a report leaves the details that it brings to the first report that follows. -/
theorem Accounts.cons_none {w : Window} {source : SourceType} {n : Nat}
    {held last : List RecordDetail} {calls : List Call} {closed : List (List RecordDetail)} {c : Call}
    (hanswer : (w.answer c).1 = none)
    (hclock : (w.answer c).2.clock.closings (calls.filterMap Call.time?) =
      w.clock.closings ((c :: calls).filterMap Call.time?))
    (h : (w.answer c).2.Accounts source n (held ++ c.accepted source) calls closed last) :
    w.Accounts source n held (c :: calls) closed last := by
  refine ⟨?_, ?_, ?_, h.holding, ?_⟩
  · rw [transcript, hanswer, batches_none, List.modifyHead_modifyHead, ← h.batches]
    congr 1
    funext details
    exact (List.append_assoc ..).symm
  · rw [transcript, hanswer, List.filterMap_cons_none rfl, h.reports, hclock]
  · rw [← hclock, h.closings]
  · rw [h.all, List.flatMap_cons, List.append_assoc]

/-- Every run is accounted for. -/
theorem Holding.accounts {source : SourceType} {n : Nat} (calls : List Call) {w : Window}
    {held : List RecordDetail} (h : w.Holding source n held) :
    ∃ closed last, w.Accounts source n held calls closed last := by
  induction calls generalizing w held with
  | nil =>
    refine ⟨[], held, ?_, rfl, rfl, h, (List.append_nil held).symm⟩
    show [held ++ []] = [held]
    rw [List.append_nil]
  | cons c calls ih =>
    cases c with
    | add r =>
      obtain ⟨closed, last, haccounts⟩ := ih (h.add r)
      refine ⟨closed, last, haccounts.cons_none rfl ?_⟩
      show (w.add r).clock.closings _ = _
      rw [clock_add]
      rfl
    | tick now =>
      cases hclock : (w.clock.tick now).1 with
      | none =>
        obtain ⟨hanswer, hnext⟩ := h.tick_none hclock
        have hheld : held = held ++ Call.accepted source (.tick now) := (List.append_nil _).symm
        rw [hheld] at hnext
        obtain ⟨closed, last, haccounts⟩ := ih hnext
        refine ⟨closed, last, haccounts.cons_none hanswer ?_⟩
        show (w.tick now).2.clock.closings _ = (w.clock.tick now).1.toList ++ _
        rw [clock_tick, hclock]
        rfl
      | some begin =>
        obtain ⟨hanswer, hnext⟩ := h.tick_some hclock
        obtain ⟨closed, last, haccounts⟩ := ih hnext
        have hclosings : w.clock.closings ((Call.tick now :: calls).filterMap Call.time?) =
            begin :: (w.tick now).2.clock.closings (calls.filterMap Call.time?) := by
          show (w.clock.tick now).1.toList ++ _ = _
          rw [clock_tick, hclock]
          rfl
        have hanswer' : (w.answer (.tick now)).1 =
            some ((Tally.ofDetails source held).summary begin n) := hanswer
        refine ⟨held :: closed, last, ?_, ?_, ?_, haccounts.holding, ?_⟩
        · rw [transcript, hanswer', batches_some]
          show (held ++ []) :: batches source _ = held :: (closed ++ [last])
          rw [List.append_nil, ← haccounts.batches, modifyHead_nil_append]
          rfl
        · rw [transcript, hanswer', hclosings, List.zipWith_cons_cons, ← haccounts.reports]
          rfl
        · rw [hclosings, List.length_cons, List.length_cons]
          congr 1
          exact haccounts.closings
        · rw [List.flatten_cons, List.append_assoc, haccounts.all, List.flatMap_cons]
          rfl

/-- The calls that are answered with a report cut the accepted details into batches, and each report is
that of a fresh tally of its batch, at the beginning of the window that has closed.  What has been
accepted since the last report is what the open window has counted, and `pending` is the number of
those details modulo 2^64.  Nothing is lost and nothing counts twice: the batches one after the other
are the accepted details. -/
theorem reports_eq_batches (source : SourceType) (settings : ReportSettings) (now : Instant)
    (calls : List Call) :
    ∃ closed last,
      batches source ((start source settings now).transcript calls) = closed ++ [last] ∧
      ((start source settings now).transcript calls).filterMap (·.2) =
        List.zipWith
          (fun begin details => (Tally.ofDetails source details).summary begin settings.topN)
          ((start source settings now).clock.closings (calls.filterMap Call.time?)) closed ∧
      ((start source settings now).clock.closings (calls.filterMap Call.time?)).length =
        closed.length ∧
      ((start source settings now).after calls).tally = Tally.ofDetails source last ∧
      ((start source settings now).after calls).pending = UInt64.ofNat last.length ∧
      closed.flatten ++ last = calls.flatMap (Call.accepted source) := by
  obtain ⟨closed, last, h⟩ := (holding_start source settings now).accounts calls
  refine ⟨closed, last, ?_, h.reports, h.closings, h.holding.tally, h.holding.pending, h.all⟩
  rw [← h.batches, modifyHead_nil_append]

end Window

end LogWatch.Report
