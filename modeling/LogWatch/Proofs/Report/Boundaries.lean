import LogWatch.Proofs.Report.Batches
import LogWatch.Proofs.Report.Timelines
import Mathlib.Order.Bounds.Defs

/-!
# Boundaries of windows

A clock goes by the latest time that it has been told: its window begins at the last boundary that this
time has passed.  A boundary is a whole multiple of the interval since the beginning of 1970, before it
as well as after it.

* `IsBoundary`, `IsBeginning` — the boundaries, and the last one that an instant has passed;
* `isBeginning_floorTo` — rounding down finds it;
* `WindowClock.Follows.tick` — one look at the time;
* `WindowClock.ticks_follow_latest` — the window of a clock, and those that it has closed.
-/

namespace LogWatch

open Time

/-! ## The order of instants -/

namespace Time.Instant

theorem le_iff {a b : Instant} : a ≤ b ↔ ¬ b < a := Iff.rfl

theorem le_refl (a : Instant) : a ≤ a :=
  lt_irrefl a

theorem le_of_lt {a b : Instant} (h : a < b) : a ≤ b := by
  rw [le_iff]
  rw [lt_iff] at *
  omega

theorem le_trans {a b c : Instant} (hab : a ≤ b) (hbc : b ≤ c) : a ≤ c := by
  rw [le_iff, lt_iff] at *
  omega

theorem lt_of_lt_of_le {a b c : Instant} (hab : a < b) (hbc : b ≤ c) : a < c := by
  rw [le_iff] at hbc
  rw [lt_iff] at *
  omega

theorem le_antisymm {a b : Instant} (hab : a ≤ b) (hba : b ≤ a) : a = b := by
  obtain ⟨s, n⟩ := a
  obtain ⟨t, m⟩ := b
  rw [le_iff, lt_iff] at hab hba
  dsimp only at hab hba
  rw [mk.injEq]
  omega

/-- An instant outside leap seconds whose nanoseconds a signed word of 64 bits holds. -/
structure IsRegular (t : Instant) : Prop where
  isLeap : t.isLeap = false
  fits : t.nanos?.isSome = true

/-- A regular instant is rounded down to a multiple of the step. -/
theorem IsRegular.floorTo_eq {t : Instant} (h : t.IsRegular) (step : Nat) :
    t.floorTo step = ⟨t.toNanos / (step * nanosPerSecond : Nat) * step, 0⟩ := by
  obtain ⟨n, hn⟩ := Option.isSome_iff_exists.1 h.fits
  have hnanos : n = t.toNanos := Report.nanos?_eq_some hn
  subst hnanos
  have hmultiple : t.toNanos - t.toNanos % (step * nanosPerSecond : Nat) =
      t.toNanos / (step * nanosPerSecond : Nat) * step * nanosPerSecond := by
    have hsplit := Int.mul_ediv_add_emod t.toNanos (step * nanosPerSecond : Nat)
    rw [Int.mul_assoc, ← Int.natCast_mul, Int.mul_comm]
    omega
  have hpos : (nanosPerSecond : Int) ≠ 0 := by decide
  have hnotLeap : ¬ (t.isLeap = true ∧ t.toNanos % (step * nanosPerSecond : Nat) < nanosPerSecond) := by
    rw [h.isLeap]
    exact fun hleap => Bool.false_ne_true hleap.1
  rw [floorTo, hn]
  show (if t.isLeap = true ∧ t.toNanos % (step * nanosPerSecond : Nat) < nanosPerSecond then _
    else ofNanos (t.toNanos - t.toNanos % (step * nanosPerSecond : Nat))) = _
  rw [if_neg hnotLeap, hmultiple, ofNanos, Int.mul_ediv_cancel _ hpos, Int.mul_emod_left]
  rfl

end Time.Instant

namespace Report

/-! ## Boundaries -/

/-- A boundary between windows: a whole multiple of the interval since the beginning of 1970. -/
def IsBoundary (interval : ReportInterval) (t : Instant) : Prop :=
  ∃ k : Int, t = ⟨k * interval.seconds, 0⟩

/-- The beginning of the window that a time falls into: the last boundary that is not after it. -/
def IsBeginning (interval : ReportInterval) (now beginning : Instant) : Prop :=
  IsGreatest {b | IsBoundary interval b ∧ b ≤ now} beginning

theorem boundary_le_iff (interval : ReportInterval) {t : Instant} (h : t.isLeap = false) (k : Int) :
    (⟨k * interval.seconds, 0⟩ : Instant) ≤ t ↔
      k ≤ t.toNanos / (interval.seconds * nanosPerSecond : Nat) := by
  have hboundary : (⟨k * interval.seconds, 0⟩ : Instant).isLeap = false := rfl
  rw [Instant.le_iff_toNanos_le hboundary h, Instant.toNanos]
  dsimp only
  cases interval
  · rw [ReportInterval.seconds, nanosPerSecond]
    omega
  · rw [ReportInterval.seconds, nanosPerSecond]
    omega

/-- Rounding down finds the beginning of the window. -/
theorem isBeginning_floorTo (interval : ReportInterval) {now : Instant} (h : now.IsRegular) :
    IsBeginning interval now (now.floorTo interval.seconds) := by
  rw [h.floorTo_eq interval.seconds]
  refine ⟨⟨⟨_, rfl⟩, (boundary_le_iff interval h.isLeap _).2 (Int.le_refl _)⟩, ?_⟩
  rintro _ ⟨⟨k, rfl⟩, hk⟩
  rw [boundary_le_iff interval h.isLeap] at hk
  rw [boundary_le_iff interval rfl]
  exact Int.le_trans hk ((boundary_le_iff interval rfl _).1 (Instant.le_refl _))

theorem IsBeginning.unique {interval : ReportInterval} {now a b : Instant}
    (ha : IsBeginning interval now a) (hb : IsBeginning interval now b) : a = b :=
  Instant.le_antisymm (hb.2 ha.1) (ha.2 hb.1)

/-- A later time falls into no earlier window. -/
theorem IsBeginning.mono {interval : ReportInterval} {now later a b : Instant} (h : now ≤ later)
    (ha : IsBeginning interval now a) (hb : IsBeginning interval later b) : a ≤ b :=
  hb.2 ⟨ha.1.1, Instant.le_trans ha.1.2 h⟩

namespace WindowClock

variable {interval : ReportInterval} {c : WindowClock} {times : List Instant} {now : Instant}

/-- The clock after it has been told some times. -/
def after (c : WindowClock) (times : List Instant) : WindowClock :=
  times.foldl (fun c now => (c.tick now).2) c

theorem after_concat (c : WindowClock) (times : List Instant) (now : Instant) :
    c.after (times ++ [now]) = ((c.after times).tick now).2 := by
  rw [after, List.foldl_concat, after]

/-! ## One look at the time -/

/-- A clock closes its window when the time has passed a later boundary, and else stays as it is. -/
theorem tick_cases (c : WindowClock) (now : Instant) :
    (c.current < now.floorTo c.interval.seconds ∧
      c.tick now = (some c.current, { c with current := now.floorTo c.interval.seconds })) ∨
    (now.floorTo c.interval.seconds ≤ c.current ∧ c.tick now = (none, c)) := by
  rw [tick]
  by_cases h : c.current < now.floorTo c.interval.seconds
  · exact Or.inl ⟨h, if_pos h⟩
  · exact Or.inr ⟨h, if_neg h⟩

/-- The window of a clock begins at the last boundary that any of some times has passed. -/
structure Follows (c : WindowClock) (interval : ReportInterval) (times : List Instant) : Prop where
  interval_eq : c.interval = interval
  current : IsGreatest {b | ∃ t ∈ times, IsBeginning interval t b} c.current

theorem follows_start (interval : ReportInterval) {begin : Instant} (h : begin.IsRegular) :
    (start interval begin).Follows interval [begin] where
  interval_eq := rfl
  current := by
    refine ⟨⟨begin, List.mem_singleton_self _, isBeginning_floorTo interval h⟩, ?_⟩
    rintro b ⟨t, ht, hb⟩
    rw [List.mem_singleton.1 ht] at hb
    rw [hb.unique (isBeginning_floorTo interval h)]
    exact Instant.le_refl _

theorem Follows.isBoundary (h : c.Follows interval times) : IsBoundary interval c.current := by
  obtain ⟨t, -, hbeginning⟩ := h.current.1
  exact hbeginning.1.1

/-- After another time the clock follows that too. -/
theorem Follows.tick (h : c.Follows interval times) (hnow : now.IsRegular) :
    (c.tick now).2.Follows interval (times ++ [now]) := by
  have hfloor := isBeginning_floorTo interval hnow
  obtain ⟨t, ht, hcurrent⟩ := h.current.1
  -- A boundary that one of the times has passed is not after the old window or the new time.
  have hmem : ∀ b, (∃ t ∈ times ++ [now], IsBeginning interval t b) →
      b ≤ c.current ∨ b = now.floorTo interval.seconds := by
    rintro b ⟨t, ht, hb⟩
    rcases List.mem_append.1 ht with ht | ht
    · exact Or.inl (h.current.2 ⟨t, ht, hb⟩)
    · rw [List.mem_singleton.1 ht] at hb
      exact Or.inr (hb.unique hfloor)
  have hcases := c.tick_cases now
  rw [h.interval_eq] at hcases
  rcases hcases with ⟨hlt, htick⟩ | ⟨hle, htick⟩
  · rw [htick]
    refine ⟨rfl, ⟨now, List.mem_append_right _ (List.mem_singleton_self _), hfloor⟩, ?_⟩
    intro b hb
    rcases hmem b hb with hb | rfl
    · exact Instant.le_trans hb (Instant.le_of_lt hlt)
    · exact Instant.le_refl _
  · rw [htick]
    refine ⟨h.interval_eq, ⟨t, List.mem_append_left _ ht, hcurrent⟩, ?_⟩
    intro b hb
    rcases hmem b hb with hb | rfl
    · exact hb
    · exact hle

/-- A time that is not later than one that the clock has been told changes nothing. -/
theorem Follows.tick_eq_self (h : c.Follows interval times) (hnow : now.IsRegular)
    (hle : ∃ t ∈ times, t.IsRegular ∧ now ≤ t) : c.tick now = (none, c) := by
  obtain ⟨t, ht, hregular, hle⟩ := hle
  have hfloor := isBeginning_floorTo interval hnow
  have hbefore : now.floorTo interval.seconds ≤ c.current :=
    Instant.le_trans (hfloor.mono hle (isBeginning_floorTo interval hregular))
      (h.current.2 ⟨t, ht, isBeginning_floorTo interval hregular⟩)
  rcases c.tick_cases now with ⟨hlt, -⟩ | ⟨-, htick⟩
  · rw [h.interval_eq] at hlt
    exact absurd hlt hbefore
  · exact htick

/-- The clock says that a window has closed just when the next one has begun. -/
theorem tick_eq_some_iff (c : WindowClock) (now closed : Instant) :
    (c.tick now).1 = some closed ↔ c.current < (c.tick now).2.current ∧ closed = c.current := by
  rcases c.tick_cases now with ⟨hlt, htick⟩ | ⟨hle, htick⟩
  · rw [htick, Option.some_inj]
    exact ⟨fun h => ⟨hlt, h.symm⟩, fun h => h.2.symm⟩
  · rw [htick]
    constructor
    · intro h
      cases h
    · exact fun h => absurd h.1 (Instant.lt_irrefl _)

/-! ## Many looks at the time -/

theorem Follows.after (h : c.Follows interval times) {more : List Instant}
    (hmore : ∀ t ∈ more, t.IsRegular) : (c.after more).Follows interval (times ++ more) := by
  induction more using List.reverseRecOn with
  | nil => rwa [List.append_nil]
  | append_singleton more now ih =>
    rw [after_concat, ← List.append_assoc]
    exact (ih fun t ht => hmore t (List.mem_append_left _ ht)).tick
      (hmore now (List.mem_append_right _ (List.mem_singleton_self _)))

/-- No window is closed before the open one, and later ones only after it. -/
theorem current_le_of_mem_closings {c : WindowClock} {times : List Instant} {closed : Instant}
    (h : closed ∈ c.closings times) : c.current ≤ closed := by
  induction times generalizing c with
  | nil => cases h
  | cons now times ih =>
    rw [closings] at h
    rcases c.tick_cases now with ⟨hlt, htick⟩ | ⟨-, htick⟩
    · rw [htick, Option.toList_some, List.singleton_append] at h
      rcases List.mem_cons.1 h with rfl | h
      · exact Instant.le_refl _
      · exact Instant.le_trans (Instant.le_of_lt hlt) (ih h)
    · rw [htick, Option.toList_none, List.nil_append] at h
      exact ih h

/-- Windows are closed one after the other. -/
theorem pairwise_closings (c : WindowClock) (times : List Instant) :
    (c.closings times).Pairwise (· < ·) := by
  induction times generalizing c with
  | nil => exact List.Pairwise.nil
  | cons now times ih =>
    rw [closings]
    rcases c.tick_cases now with ⟨hlt, htick⟩ | ⟨-, htick⟩
    · rw [htick, Option.toList_some, List.singleton_append]
      refine List.pairwise_cons.2 ⟨fun closed h => ?_, ih _⟩
      exact Instant.lt_of_lt_of_le hlt (current_le_of_mem_closings h)
    · rw [htick, Option.toList_none, List.nil_append]
      exact ih c

theorem Follows.isBoundary_closings (h : c.Follows interval times) {more : List Instant}
    (hmore : ∀ t ∈ more, t.IsRegular) {closed : Instant} (hclosed : closed ∈ c.closings more) :
    IsBoundary interval closed := by
  induction more generalizing c times with
  | nil => cases hclosed
  | cons now more ih =>
    rw [List.forall_mem_cons] at hmore
    rw [closings] at hclosed
    rcases List.mem_append.1 hclosed with hclosed | hclosed
    · rw [Option.mem_toList, tick_eq_some_iff] at hclosed
      rw [hclosed.2]
      exact h.isBoundary
    · exact ih (h.tick hmore.1) hmore.2 hclosed

/-- After any regular times, in whatever order, the window of a clock begins at the latest of the
boundaries that the start and these times have passed.  Each look at the time answers that a window has
closed just when this boundary has moved on, and then with the old one; a time that is not later than an
earlier one changes nothing.  So the windows that are closed begin on boundaries, one after the other, and
none is closed twice. -/
theorem ticks_follow_latest (interval : ReportInterval) (begin : Instant) (times : List Instant)
    (hregular : ∀ t ∈ begin :: times, t.IsRegular) :
    (∀ past, past <+: times →
      IsGreatest {b | ∃ t ∈ begin :: past, IsBeginning interval t b}
        ((start interval begin).after past).current) ∧
    (∀ past now, past ++ [now] <+: times →
      (∀ closed, (((start interval begin).after past).tick now).1 = some closed ↔
        ((start interval begin).after past).current <
            ((start interval begin).after (past ++ [now])).current ∧
          closed = ((start interval begin).after past).current) ∧
      ((∃ t ∈ begin :: past, now ≤ t) →
        ((start interval begin).after past).tick now = (none, (start interval begin).after past))) ∧
    (∀ closed ∈ (start interval begin).closings times, IsBoundary interval closed) ∧
    ((start interval begin).closings times).Pairwise (· < ·) ∧
    ((start interval begin).closings times).Nodup := by
  rw [List.forall_mem_cons] at hregular
  have hstart := follows_start interval hregular.1
  have hfollows : ∀ past, past <+: times →
      ((start interval begin).after past).Follows interval (begin :: past) := fun past hpast =>
    hstart.after fun t ht => hregular.2 t (hpast.subset ht)
  have hpairwise := (start interval begin).pairwise_closings times
  have hnodup : ((start interval begin).closings times).Nodup := by
    refine hpairwise.imp ?_
    rintro a _ hlt rfl
    exact Instant.lt_irrefl a hlt
  refine ⟨fun past hpast => (hfollows past hpast).current, fun past now hnow => ⟨fun closed => ?_, ?_⟩,
    fun closed hclosed => hstart.isBoundary_closings hregular.2 hclosed, hpairwise, hnodup⟩
  · rw [after_concat]
    exact tick_eq_some_iff ..
  · rintro ⟨t, ht, hle⟩
    have hpast : past <+: times := (List.prefix_append past [now]).trans hnow
    have hmem : now ∈ times := hnow.subset (List.mem_append_right _ (List.mem_singleton_self _))
    refine (hfollows past hpast).tick_eq_self (hregular.2 now hmem) ⟨t, ht, ?_, hle⟩
    rcases List.mem_cons.1 ht with rfl | ht
    · exact hregular.1
    · exact hregular.2 t (hpast.subset ht)

/-- A clock of minutes is started before 1970, put back once, and told a time after the beginning of 1970:
two windows have closed by then, and putting it back has changed nothing. -/
theorem ticks_follow_latest_putBack :
    let begin : Instant := ⟨-90, 0⟩
    let before : Instant := ⟨-1, 5⟩
    let back : Instant := ⟨-100, 0⟩
    let later : Instant := ⟨30, 0⟩
    (∀ t ∈ begin :: [before, back, later], t.IsRegular) ∧
      IsGreatest {b | ∃ t ∈ begin :: [before, back, later], IsBeginning .minute t b} ⟨0, 0⟩ ∧
      ([before, back] <+: [before, back, later] ∧ (∃ t ∈ begin :: [before], back ≤ t) ∧
        ((start .minute begin).after [before]).tick back = (none, (start .minute begin).after [before])) ∧
      (start .minute begin).closings [before, back, later] = [⟨-120, 0⟩, ⟨-60, 0⟩] ∧
      IsBoundary .minute ⟨-60, 0⟩ := by
  intro begin before back later
  have hregular : ∀ t ∈ begin :: [before, back, later], t.IsRegular := by
    rintro t (_ | ⟨_, _ | ⟨_, _ | ⟨_, _ | ⟨_, ⟨⟩⟩⟩⟩⟩) <;>
      exact ⟨by decide, by decide⟩
  obtain ⟨hcurrent, hticks, hboundaries, -, -⟩ :=
    ticks_follow_latest .minute begin [before, back, later] hregular
  have hshort : [before, back] <+: [before, back, later] := ⟨[later], rfl⟩
  have hback : ∃ t ∈ begin :: [before], back ≤ t :=
    ⟨before, List.mem_cons_of_mem _ (List.mem_singleton_self _), by decide⟩
  have hclosings : (start .minute begin).closings [before, back, later] = [⟨-120, 0⟩, ⟨-60, 0⟩] := by
    decide +kernel
  have hlast : ((start .minute begin).after [before, back, later]).current = ⟨0, 0⟩ := by
    decide +kernel
  have hgreatest := hcurrent [before, back, later] (List.prefix_refl _)
  rw [hlast] at hgreatest
  refine ⟨hregular, hgreatest, ⟨hshort, hback, (hticks [before] back hshort).2 hback⟩, hclosings,
    hboundaries ⟨-60, 0⟩ ?_⟩
  rw [hclosings]
  exact List.mem_cons_of_mem _ (List.mem_singleton_self _)

end WindowClock

end Report

end LogWatch
