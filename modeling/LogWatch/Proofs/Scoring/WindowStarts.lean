import LogWatch.Report.Window

/-!
# When windows begin

The store sorts reports by nanoseconds, the scorer compares instants.  Within a leap second the two
disagree: its nanoseconds are those of the second after it.  Windows begin on whole minutes, where they
agree.

* `Instant.Precedes` — earlier for the scorer, and not later for the store;
* `IsWindowStart.precedes` — of two beginnings of windows the earlier one precedes the other;
* `WindowClock.precedes_of_tick` — the window that a clock closes precedes the one that it opens.
-/

namespace LogWatch.Time.Instant

/-- An instant comes before another one, and the store does not sort it behind the other. -/
def Precedes (a b : Instant) : Prop :=
  a < b ∧ a.clampedNanos ≤ b.clampedNanos

/-- Only the last second of a minute can be followed by a leap second. -/
structure IsProper (t : Instant) : Prop where
  nanos_lt : t.nanos < 2 * nanosPerSecond
  seconds_of_leap : t.isLeap = true → t.seconds % 60 = 59

theorem lt_irrefl (a : Instant) : ¬ a < a := by
  rintro (h | ⟨-, h⟩)
  · exact absurd h (Int.lt_irrefl _)
  · exact absurd h (Nat.lt_irrefl _)

theorem lt_iff {a b : Instant} :
    a < b ↔ a.seconds < b.seconds ∨ (a.seconds = b.seconds ∧ a.nanos < b.nanos) :=
  Iff.rfl

/-- Nanoseconds are cut off below and above, and kept in between. -/
theorem clampedNanos_cases (t : Instant) :
    (t.toNanos < -0x8000000000000000 ∧ t.clampedNanos = -0x8000000000000000) ∨
    (0x8000000000000000 ≤ t.toNanos ∧ t.clampedNanos = 0x7fffffffffffffff) ∨
    (-0x8000000000000000 ≤ t.toNanos ∧ t.toNanos < 0x8000000000000000 ∧
      t.clampedNanos = t.toNanos) := by
  rw [clampedNanos]
  by_cases hlow : t.toNanos < -0x8000000000000000
  · rw [if_pos hlow]
    exact Or.inl ⟨hlow, rfl⟩
  · rw [if_neg hlow]
    by_cases hhigh : 0x8000000000000000 ≤ t.toNanos
    · rw [if_pos hhigh]
      exact Or.inr (Or.inl ⟨hhigh, rfl⟩)
    · rw [if_neg hhigh]
      exact Or.inr (Or.inr ⟨by omega, by omega, rfl⟩)

end LogWatch.Time.Instant

namespace LogWatch.Report

open Time

/-- A window of a minute or an hour may begin at this time. -/
def IsWindowStart (t : Instant) : Prop :=
  ∃ (interval : ReportInterval) (now : Instant), now.IsProper ∧ t = now.floorTo interval.seconds

/-- An excess over whole steps of a minute or an hour leaves whole minutes. -/
theorem sub_emod_whole (interval : ReportInterval) (n : Int) :
    (n - n % (interval.seconds * nanosPerSecond : Nat)) % 60000000000 = 0 := by
  cases interval
  · rw [ReportInterval.seconds, nanosPerSecond]
    omega
  · rw [ReportInterval.seconds, nanosPerSecond]
    omega

theorem nanos?_eq_some {t : Instant} {n : Int} (h : t.nanos? = some n) : n = t.toNanos := by
  rw [Instant.nanos?] at h
  split at h
  · exact (Option.some.inj h).symm
  · cases h

theorem nanos?_eq_none {t : Instant} (h : t.nanos? = none) :
    t.toNanos < -0x8000000000000000 ∨ 0x8000000000000000 ≤ t.toNanos := by
  rw [Instant.nanos?] at h
  split at h
  · cases h
  · omega

theorem toNanos_ofNanos (n : Int) : (Instant.ofNanos n).toNanos = n := by
  rw [Instant.ofNanos, Instant.toNanos]
  simp only [nanosPerSecond]
  omega

/-- A window begins on a whole minute, unless it is too far off for nanoseconds. -/
theorem IsWindowStart.whole_or_beyond {t : Instant} (h : IsWindowStart t) :
    t.nanos < 2 * nanosPerSecond ∧
      (t.toNanos % 60000000000 = 0 ∨ t.toNanos < -0x8000000000000000 ∨
        0x8000000000000000 ≤ t.toNanos) := by
  obtain ⟨interval, now, hnow, rfl⟩ := h
  have hnanos := hnow.nanos_lt
  rw [Instant.floorTo]
  split
  · rename_i hnone
    exact ⟨hnanos, Or.inr (nanos?_eq_none hnone)⟩
  · rename_i n hsome
    have hn := nanos?_eq_some hsome
    have hwhole := sub_emod_whole interval n
    have hpos : 0 ≤ n % (interval.seconds * nanosPerSecond : Nat) := by
      cases interval
      · exact Int.emod_nonneg _ (by decide)
      · exact Int.emod_nonneg _ (by decide)
    generalize n % (interval.seconds * nanosPerSecond : Nat) = excess at hwhole hpos ⊢
    dsimp only
    split
    · rename_i hleap
      obtain ⟨hleap, hexcess⟩ := hleap
      rw [Instant.isLeap, decide_eq_true_eq] at hleap
      -- The excess is taken from the nanoseconds alone, which are a second at least.
      have hnanos' : (⟨now.seconds, now.nanos - excess.toNat⟩ : Instant).toNanos = n - excess := by
        rw [hn]
        simp only [Instant.toNanos, nanosPerSecond] at hleap hexcess ⊢
        omega
      refine ⟨Nat.lt_of_le_of_lt (Nat.sub_le _ _) hnanos, Or.inl ?_⟩
      rw [hnanos', hwhole]
    · refine ⟨?_, Or.inl ?_⟩
      · simp only [Instant.ofNanos, nanosPerSecond]
        omega
      · rw [toNanos_ofNanos, hwhole]

/-- Of two beginnings of windows the earlier one precedes the other. -/
theorem IsWindowStart.precedes {a b : Instant} (ha : IsWindowStart a) (hb : IsWindowStart b)
    (h : a < b) : a.Precedes b := by
  refine ⟨h, ?_⟩
  obtain ⟨hna, ha⟩ := ha.whole_or_beyond
  obtain ⟨hnb, hb⟩ := hb.whole_or_beyond
  have hlt := Instant.lt_iff.1 h
  have hca := a.clampedNanos_cases
  have hcb := b.clampedNanos_cases
  simp only [Instant.toNanos, nanosPerSecond] at *
  omega

/-- A clock opens windows where windows may begin, and the one that it closes precedes the new one. -/
theorem WindowClock.precedes_of_tick {c c' : WindowClock} {now closed : Instant}
    (hc : IsWindowStart c.current) (hnow : now.IsProper) (h : c.tick now = (some closed, c')) :
    closed = c.current ∧ IsWindowStart c'.current ∧ closed.Precedes c'.current := by
  rw [tick] at h
  split at h
  · rename_i hlt
    cases h
    have hstart : IsWindowStart (now.floorTo c.interval.seconds) := ⟨c.interval, now, hnow, rfl⟩
    exact ⟨rfl, hstart, hc.precedes hstart hlt⟩
  · cases h

end LogWatch.Report
