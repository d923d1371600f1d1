import LogWatch.Report.Tally
import LogWatch.Settings

/-!
# Windows

The records of a source are counted over windows of a minute or an hour.  A window closes when the
clock has passed its end; then its report is made and counting starts anew.

* `WindowClock.tick` — has a window closed?
* `Window.add`, `Window.tick` — counting, and the report of a window that has closed.
-/

namespace LogWatch.Report

open Time

/-- The boundaries of windows: their length, and when the open one began. -/
structure WindowClock where
  interval : ReportInterval
  current : Instant

namespace WindowClock

/-- The clock whose open window a time falls into. -/
def start (interval : ReportInterval) (now : Instant) : WindowClock :=
  ⟨interval, now.floorTo interval.seconds⟩

/-- The clock at a later time, and the beginning of the window that has closed, if one has.  A time
before the open window changes nothing. -/
def tick (c : WindowClock) (now : Instant) : Option Instant × WindowClock :=
  let bucket := now.floorTo c.interval.seconds
  if c.current < bucket then (some c.current, { c with current := bucket }) else (none, c)

end WindowClock

/-- The open window of a source, with the number of records counted in it, modulo 2^64. -/
structure Window where
  tally : Tally
  clock : WindowClock
  topN : Nat
  pending : UInt64

namespace Window

/-- The window of a source that is open at a time. -/
def start (source : SourceType) (settings : ReportSettings) (now : Instant) : Window :=
  ⟨.empty source, .start (settings.intervalFor source) now, settings.topN, 0⟩

/-- The source whose records are counted. -/
def source (w : Window) : SourceType :=
  w.tally.source

/-- The window with one record more, which counts if it carries details of the window's source. -/
def add (w : Window) (r : LogRecord) : Window :=
  match r.detail with
  | some d =>
    if d.source = w.source then { w with tally := w.tally.add d, pending := w.pending + 1 } else w
  | none => w

/-- The window at a later time, and the report of the one that has closed, if one has. -/
def tick (w : Window) (now : Instant) : Option Summary × Window :=
  match w.clock.tick now with
  | (some closed, clock) =>
    (some (w.tally.summary closed w.topN),
      { w with tally := .empty w.source, clock := clock, pending := 0 })
  | (none, clock) => (none, { w with clock := clock })

end Window

end LogWatch.Report
