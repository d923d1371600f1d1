import LogWatch.Proofs.Scoring.Observation

/-!
# The delay of alerts

How many hours a history must span before alerts are raised, from the variable that sets it to the alert.
The hours are kept in thirty-two bits, so that a larger number is taken modulo the size of a word, and the
delay may be shorter than asked for.

* `Settings.notifyDelayHours_ofEnvironment` — the delay that a variable sets;
* `asked_le_kept_iff` — when it is as long as asked for;
* `Scorer.alert_of_scored`, `Scorer.alert?_eq_none_of_span_le` — when an observation raises an alert;
* `Scorer.delay_kept_in_word` — alerts wait for the delay that is kept.
-/

namespace LogWatch

/-! ## The delay that is kept -/

/-- A number of hours that is read is kept in thirty-two bits. -/
theorem Settings.notifyDelayHours_ofEnvironment {env : Environment} {profile v : String} {n : Nat}
    (hvalue : env.get? (ofEnvironment env profile).profile "ANOMALY_NOTIFY_DELAY_HOURS" = some v)
    (hreads : Number.readNat? 0x10000000000000000 v.toList = some n) :
    (ofEnvironment env profile).anomaly.notifyDelayHours.toNat = n % 0x100000000 := by
  have hread : env.natD (ofEnvironment env profile).profile "ANOMALY_NOTIFY_DELAY_HOURS" 24 = n := by
    rw [Environment.natD, hvalue, Option.bind_some, hreads, Option.getD_some]
  change (UInt32.ofNat (env.natD (ofEnvironment env profile).profile
    "ANOMALY_NOTIFY_DELAY_HOURS" 24)).toNat = _
  rw [hread, UInt32.toNat_ofNat']

/-- What is kept of a number is as much as was asked for and fits, just when the number fits or all of its
low bits are set. -/
theorem asked_le_kept_iff (n : Nat) :
    min n 0xffffffff ≤ n % 0x100000000 ↔ n < 0x100000000 ∨ n % 0x100000000 = 0xffffffff := by
  omega

namespace Anomaly.Scorer

open Time

/-! ## Alerts -/

section Alerts

variable (rawScores? : UInt64 → List Row → Option (List Float)) (store : Store) (s : Scorer)
  (source : SourceType) (time : Instant) (vector : List Float)

/-- A score is due when it stands out of enough points over more than the delay. -/
theorem isDue_iff {settings : AnomalySettings} {points : List HistoryPoint} {last : HistoryPoint}
    (hlast : points.getLast? = some last) {score : AnomalyScore} :
    IsDue settings points score ↔ standsOut settings score = true ∧
      settings.minAlertPoints ≤ points.length ∧
      settings.notifyDelayHours.toNat * nanosPerHour < span points := by
  have hready : alertsReady settings points = true ↔ settings.minAlertPoints ≤ points.length ∧
      settings.notifyDelayHours.toNat * nanosPerHour < span points := by
    simp [alertsReady]
  rw [← hready, alertsReady_iff hlast, standsOut_iff]
  constructor
  · rintro ⟨threshold, first, last', hthreshold, hexceeds, hpoints, hfirst, hlast', hspan⟩
    obtain rfl : last' = last := Option.some.inj (hlast'.symm.trans hlast)
    exact ⟨⟨threshold, hthreshold, hexceeds⟩, hpoints, first, hfirst, hspan⟩
  · rintro ⟨⟨threshold, hthreshold, hexceeds⟩, hpoints, first, hfirst, hspan⟩
    exact ⟨threshold, first, last, hthreshold, hexceeds, hpoints, hfirst, hlast, hspan⟩

/-- When points are scored, the newest score is an alert if it stands out and the points span more than the
delay. -/
theorem alert_of_scored {scores : List AnomalyScore} {alert : Option AnomalyScore}
    (h : (s.observeWith rawScores? store source time vector).1 = .ok (.scored scores alert))
    (score : AnomalyScore) :
    alert = some score ↔ scores.getLast? = some score ∧ standsOut s.settings score = true ∧
      s.settings.minAlertPoints ≤ (s.compared source ⟨time, vector⟩).length ∧
      s.settings.notifyDelayHours.toNat * nanosPerHour <
        span (s.compared source ⟨time, vector⟩) := by
  have hlast := getLast?_compared s source ⟨time, vector⟩
  have halert : alert = alertOf s.settings (s.compared source ⟨time, vector⟩) scores := by
    have hobserves := observes_observeWith rawScores? store s source time vector
    generalize s.observeWith rawScores? store source time vector = result at h hobserves
    cases hobserves <;> cases h
    rfl
  rw [halert, alertOf_eq_some_iff hlast, isDue_iff hlast]

/-- No alert is raised as long as the points that are compared span no more than the delay. -/
theorem alert?_eq_none_of_span_le
    (hspan : span (s.compared source ⟨time, vector⟩) ≤
      s.settings.notifyDelayHours.toNat * nanosPerHour) :
    alert? (s.observeWith rawScores? store source time vector).1 = none := by
  cases houtcome : (s.observeWith rawScores? store source time vector).1 with
  | error e => rfl
  | ok outcome =>
    cases outcome with
    | insufficient n => rfl
    | scored scores alert =>
      rw [alert?, Option.eq_none_iff_forall_ne_some]
      intro score halert
      obtain ⟨-, -, -, hlonger⟩ :=
        (alert_of_scored rawScores? store s source time vector houtcome score).1 halert
      omega

end Alerts

/-- Hours that are asked for are kept modulo the size of a word.  They are as many as were asked for, as far as
a word can tell, just when they fit or all low bits are set, and then no alert is raised as long as the points
that are compared span no more.  In any case it is the hours that are kept which alerts wait for: once
points are scored, a newest score that stands out of enough of them is an alert just when they span more
than these. -/
theorem delay_kept_in_word {env : Environment} {profile v : String} {n : Nat}
    (hvalue : env.get? (Settings.ofEnvironment env profile).profile "ANOMALY_NOTIFY_DELAY_HOURS" =
      some v)
    (hreads : Number.readNat? 0x10000000000000000 v.toList = some n) :
    let settings := (Settings.ofEnvironment env profile).anomaly
    settings.notifyDelayHours.toNat = n % 0x100000000 ∧
    (min n 0xffffffff ≤ settings.notifyDelayHours.toNat ↔
      n < 0x100000000 ∨ n % 0x100000000 = 0xffffffff) ∧
    ∀ rawScores? store (s : Scorer) source time vector, s.settings = settings →
      let outcome := (s.observeWith rawScores? store source time vector).1
      let points := s.compared source ⟨time, vector⟩
      (span points ≤ (n % 0x100000000 : Nat) * nanosPerHour → alert? outcome = none) ∧
      (n < 0x100000000 ∨ n % 0x100000000 = 0xffffffff →
        span points ≤ (min n 0xffffffff : Nat) * nanosPerHour → alert? outcome = none) ∧
      ∀ scores alert, outcome = .ok (.scored scores alert) →
        ∀ score, alert = some score ↔
          scores.getLast? = some score ∧ standsOut settings score = true ∧
            settings.minAlertPoints ≤ points.length ∧
            (n % 0x100000000 : Nat) * nanosPerHour < span points := by
  intro settings
  have hkept : settings.notifyDelayHours.toNat = n % 0x100000000 :=
    Settings.notifyDelayHours_ofEnvironment hvalue hreads
  refine ⟨hkept, hkept ▸ asked_le_kept_iff n, ?_⟩
  intro rawScores? store s source time vector hsettings outcome points
  rw [← hsettings] at hkept
  have hquiet : span points ≤ (n % 0x100000000 : Nat) * nanosPerHour → alert? outcome = none := by
    rw [← hkept]
    exact alert?_eq_none_of_span_le rawScores? store s source time vector
  refine ⟨hquiet, fun hasked hspan => hquiet ?_, fun scores alert hscored score => ?_⟩
  · -- What was asked for is no more than what is kept.
    have hhours : ((min n 0xffffffff : Nat) : Int) ≤ (n % 0x100000000 : Nat) :=
      Int.ofNat_le.2 ((asked_le_kept_iff n).2 hasked)
    exact Int.le_trans hspan (Int.mul_le_mul_of_nonneg_right hhours (by decide))
  · rw [alert_of_scored rawScores? store s source time vector hscored score, hkept, hsettings]

/-- Settings of which the delay is given in words. -/
def delayedEnvironment (hours : String) : Environment := fun key =>
  [("ANOMALY_NOTIFY_DELAY_HOURS", hours), ("ANOMALY_THRESHOLD", "55"), ("ANOMALY_MIN_POINTS", "3"),
    ("ANOMALY_MIN_ALERT_POINTS", "3")].lookup key

/-- A scorer with such settings, and three points an hour apart. -/
def delayedScorer (hours : String) : Scorer :=
  (start (Settings.ofEnvironment (delayedEnvironment hours) "").anomaly 1).setHistory .syslog
    [⟨⟨0, 0⟩, [1.0]⟩, ⟨⟨3600, 0⟩, [1.0]⟩, ⟨⟨7200, 0⟩, [1.0]⟩]

/-- What comes of a point that is three hours after the first one and higher than all others. -/
def delayedOutcome (hours : String) : Except ObserveError Outcome :=
  ((delayedScorer hours).observeWith (fun _ rows => some (rows.map fun row => row.headD 0.0)) .empty
    .syslog ⟨10800, 0⟩ [9.0]).1

/-- With a delay of a day there is no alert after three hours; with one of 2 ^ 32 hours there is, as none of
them are kept. -/
theorem delay_kept_in_word_dropped :
    alert? (delayedOutcome "+24") = none ∧
      (Settings.ofEnvironment (delayedEnvironment "4294967296") "").anomaly.notifyDelayHours.toNat =
        0 ∧
      span ((delayedScorer "4294967296").compared .syslog ⟨⟨10800, 0⟩, [9.0]⟩) = 3 * nanosPerHour ∧
      (alert? (delayedOutcome "4294967296")).isSome = true := by
  have hday : (delayedEnvironment "+24").get?
      (Settings.ofEnvironment (delayedEnvironment "+24") "").profile "ANOMALY_NOTIFY_DELAY_HOURS" =
        some "+24" := by
    decide +kernel
  have hlong : (delayedEnvironment "4294967296").get?
      (Settings.ofEnvironment (delayedEnvironment "4294967296") "").profile
        "ANOMALY_NOTIFY_DELAY_HOURS" = some "4294967296" := by
    decide +kernel
  obtain ⟨-, -, hobserve⟩ := delay_kept_in_word hday (n := 24) (by decide +kernel)
  obtain ⟨-, hquiet, -⟩ := hobserve (fun _ rows => some (rows.map fun row => row.headD 0.0)) .empty
    (delayedScorer "+24") .syslog ⟨10800, 0⟩ [9.0] rfl
  obtain ⟨hkept, -⟩ := delay_kept_in_word hlong (n := 4294967296) (by decide +kernel)
  exact ⟨hquiet (.inl (by decide)) (by decide +kernel), hkept, by decide +kernel, by decide +kernel⟩

end Anomaly.Scorer

end LogWatch
