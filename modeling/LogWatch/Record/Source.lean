/-!
# Sources of records

The kinds of log streams that records come from.  A source has a name for people, a code in
stored records, and a few further names under which it may be asked for.
-/

namespace LogWatch

/-- A kind of log stream. -/
inductive SourceType where
  | syslog
  | trap
  | netflow
  | windowsEvent
  | otelLog
  | mqtt
  | monitor
deriving DecidableEq, Repr

namespace SourceType

/-- All sources, in the order of their reports. -/
def all : List SourceType :=
  [.syslog, .trap, .netflow, .windowsEvent, .otelLog, .mqtt, .monitor]

/-- The name of a source. -/
def name : SourceType → String
  | .syslog => "syslog"
  | .trap => "trap"
  | .netflow => "netflow"
  | .windowsEvent => "winevent"
  | .otelLog => "otel"
  | .mqtt => "mqtt"
  | .monitor => "monitor"

/-- The code of a source in stored records. -/
def code : SourceType → String
  | .windowsEvent => "windows_event"
  | .otelLog => "otel_log"
  | s => s.name

/-- The source of a code. -/
def ofCode? (s : String) : Option SourceType :=
  all.find? (·.code == s)

/-- The source of a name, a code, or the other name of the flow protocol. -/
def ofName? (s : String) : Option SourceType :=
  if s = "ipfix" then some .netflow else all.find? fun t => t.name == s || t.code == s

/-- Records of the host monitor are not matched against rules. -/
def isDetectable (s : SourceType) : Bool :=
  s != .monitor

end SourceType

/-- A value for each source. -/
structure PerSource (α : Type) where
  syslog : α
  trap : α
  netflow : α
  windowsEvent : α
  otelLog : α
  mqtt : α
  monitor : α

namespace PerSource

variable {α : Type}

/-- The same value for every source. -/
def const (a : α) : PerSource α :=
  ⟨a, a, a, a, a, a, a⟩

/-- A value for each source. -/
def ofFun (f : SourceType → α) : PerSource α :=
  ⟨f .syslog, f .trap, f .netflow, f .windowsEvent, f .otelLog, f .mqtt, f .monitor⟩

/-- The value of a source. -/
def get (p : PerSource α) : SourceType → α
  | .syslog => p.syslog
  | .trap => p.trap
  | .netflow => p.netflow
  | .windowsEvent => p.windowsEvent
  | .otelLog => p.otelLog
  | .mqtt => p.mqtt
  | .monitor => p.monitor

/-- The values with that of one source replaced. -/
def set (p : PerSource α) (s : SourceType) (a : α) : PerSource α :=
  match s with
  | .syslog => { p with syslog := a }
  | .trap => { p with trap := a }
  | .netflow => { p with netflow := a }
  | .windowsEvent => { p with windowsEvent := a }
  | .otelLog => { p with otelLog := a }
  | .mqtt => { p with mqtt := a }
  | .monitor => { p with monitor := a }

/-- A replaced value is read back. -/
@[simp] theorem get_set_self (p : PerSource α) (s : SourceType) (a : α) :
    (p.set s a).get s = a := by
  cases s <;> rfl

/-- A replacement leaves the other sources alone. -/
@[simp] theorem get_set_of_ne (p : PerSource α) {s t : SourceType} (h : t ≠ s) (a : α) :
    (p.set s a).get t = p.get t := by
  cases s <;> cases t <;> first | rfl | exact absurd rfl h

/-- The value of a source in a constant family. -/
@[simp] theorem get_const (a : α) (s : SourceType) : (const a).get s = a := by
  cases s <;> rfl

/-- The value of a source in a family given by a function. -/
@[simp] theorem get_ofFun (f : SourceType → α) (s : SourceType) : (ofFun f).get s = f s := by
  cases s <;> rfl

end PerSource

end LogWatch
