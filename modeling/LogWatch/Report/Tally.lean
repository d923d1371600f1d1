import LogWatch.Report.Flow
import LogWatch.Report.Frequency
import LogWatch.Report.Pattern

/-!
# Tallies

What has been counted in the open window of a source.  A tally only takes the details of its own
source.

* `Tally.empty`, `Tally.add` — counting;
* `Tally.summary` — the report of what has been counted.
-/

namespace LogWatch.Report

open Time

/-! ## Severity -/

/-- How severe a record is. -/
inductive Severity where
  | normal
  | warn
  | error
deriving DecidableEq, Repr

/-- Severities of syslog: 0 to 3 are errors, 4 is a warning. -/
def Severity.ofSyslog (n : UInt8) : Severity :=
  if n ≤ 3 then .error else if n = 4 then .warn else .normal

/-- Levels of the event log: 1 and 2 are errors, 3 is a warning. -/
def Severity.ofWindows (n : UInt8) : Severity :=
  if n = 1 ∨ n = 2 then .error else if n = 3 then .warn else .normal

/-- Severity numbers of telemetry: from 17 on errors, from 13 on warnings. -/
def Severity.ofOtel (n : UInt8) : Severity :=
  if 17 ≤ n then .error else if 13 ≤ n then .warn else .normal

/-- Counts with one record more. -/
def countSeverity (c : SeverityCounts) : Severity → SeverityCounts
  | .normal => { c with normal := c.normal + 1 }
  | .warn => { c with warn := c.warn + 1 }
  | .error => { c with error := c.error + 1 }

/-! ## Tallies by kind -/

/-- Names that have been seen, each once. -/
abbrev NameSet := Dictionary Unit

/-- How many names have been seen. -/
def NameSet.size (s : NameSet) : UInt64 :=
  UInt64.ofNat s.length

/-- Messages by severity and pattern. -/
structure MessageTally where
  counts : SeverityCounts := ⟨0, 0, 0⟩
  patterns : FrequencyTable := {}
  errorPatterns : FrequencyTable := {}

/-- The tally with one message more. -/
def MessageTally.add (t : MessageTally) (severity : Severity) (message : String) : MessageTally :=
  let pattern := Pattern.normalize message
  { counts := countSeverity t.counts severity
    patterns := t.patterns.increment pattern
    errorPatterns :=
      if severity = .error then t.errorPatterns.increment pattern else t.errorPatterns }

/-- Traffic by packets and by bytes. -/
structure TrafficTally where
  packets : FrequencyTable := {}
  bytes : FrequencyTable := {}

namespace TrafficTally

/-- The tally with some traffic of a label more. -/
def add (t : TrafficTally) (label : String) (packets bytes : UInt64) : TrafficTally :=
  ⟨t.packets.add label packets, t.bytes.add label bytes⟩

/-- The number of labels. -/
def distinct (t : TrafficTally) : UInt64 :=
  t.packets.distinct

/-- The labels with the most traffic. -/
def tops (t : TrafficTally) (n : Nat) : TrafficTops :=
  ⟨t.packets.top n, t.bytes.top n⟩

end TrafficTally

/-- Flows between addresses. -/
structure FlowTally where
  packets : UInt64 := 0
  bytes : UInt64 := 0
  macs : TrafficTally := {}
  ips : TrafficTally := {}
  flows : TrafficTally := {}
  protocols : TrafficTally := {}
  fumbles : FrequencyTable := {}

namespace FlowTally

/-- Traffic of a hardware address, where a flow names one. -/
def addMac (t : TrafficTally) (mac : Option String) (packets bytes : UInt64) : TrafficTally :=
  match mac with
  | some m => if m = "" then t else t.add m packets bytes
  | none => t

/-- The tally with one flow more. -/
def add (t : FlowTally) (f : FlowRecord) : FlowTally where
  packets := addCounts t.packets f.packets
  bytes := addCounts t.bytes f.bytes
  macs := addMac (addMac t.macs f.srcMac f.packets f.bytes) f.dstMac f.packets f.bytes
  ips := (t.ips.add f.src.toText f.packets f.bytes).add f.dst.toText f.packets f.bytes
  flows := t.flows.add (Flow.label f.src f.dst) f.packets f.bytes
  protocols := t.protocols.add (flowService f.protocol f.srcPort f.dstPort) f.packets f.bytes
  fumbles :=
    match Flow.fumbler? f with
    | some address => t.fumbles.increment address.toText
    | none => t.fumbles

end FlowTally

/-- Sums of measurements. -/
structure MeasureTally where
  samples : UInt64 := 0
  cpu : Float := 0.0
  memory : Float := 0.0
  load : Float := 0.0
  disk : Float := 0.0
  net : Float := 0.0

/-! ## Tallies -/

/-- What has been counted in the open window of a source. -/
inductive Tally where
  | syslog (messages : MessageTally)
  | trap (count : UInt64) (types : FrequencyTable)
  | netflow (flows : FlowTally)
  | windowsEvent (messages : MessageTally)
  | otelLog (messages : MessageTally) (hosts traceIds : NameSet)
  | mqtt (count : UInt64) (types : FrequencyTable) (clients topics : NameSet)
  | monitor (sums : MeasureTally)

namespace Tally

/-- The tally of a source in which nothing has been counted. -/
def empty : SourceType → Tally
  | .syslog => .syslog {}
  | .trap => .trap 0 {}
  | .netflow => .netflow {}
  | .windowsEvent => .windowsEvent {}
  | .otelLog => .otelLog {} [] []
  | .mqtt => .mqtt 0 {} [] []
  | .monitor => .monitor {}

/-- The source whose details a tally takes. -/
def source : Tally → SourceType
  | .syslog _ => .syslog
  | .trap _ _ => .trap
  | .netflow _ => .netflow
  | .windowsEvent _ => .windowsEvent
  | .otelLog .. => .otelLog
  | .mqtt .. => .mqtt
  | .monitor _ => .monitor

/-- Names with those of a trace, where a record names one. -/
def addTrace (names : NameSet) (traceId : Option String) : NameSet :=
  match traceId with
  | some id => if id = "" then names else names.insert id ()
  | none => names

/-- The tally with one detail more; details of other sources do not count. -/
def add (t : Tally) (d : RecordDetail) : Tally :=
  match t, d with
  | .syslog m, .syslog severity host tag message =>
    .syslog (m.add (.ofSyslog severity) (host ++ " " ++ tag ++ " " ++ message))
  | .trap count types, .trap sender trapType =>
    .trap (count + 1) (types.increment (sender ++ " " ++ trapType))
  | .netflow flows, .netflow f => .netflow (flows.add f)
  | .windowsEvent m, .windowsEvent level computer provider eventId message =>
    .windowsEvent
      (m.add (.ofWindows level)
        (computer ++ " " ++ provider ++ "/" ++ Text.decimal eventId.toNat ++ " " ++ message))
  | .otelLog m hosts traceIds, .otelLog severity host service message traceId =>
    .otelLog (m.add (.ofOtel severity) (host ++ " " ++ service ++ " " ++ message))
      (hosts.insert host ()) (addTrace traceIds traceId)
  | .mqtt count types clients topics, .mqtt client topic =>
    .mqtt (count + 1) (types.increment (client ++ " " ++ topic)) (clients.insert client ())
      (topics.insert topic ())
  | .monitor s, .monitor cpu memory load disk net =>
    .monitor
      ⟨s.samples + 1, s.cpu + cpu, s.memory + memory, s.load + load, s.disk + disk, s.net + net⟩
  | t, _ => t

/-- The report of what has been counted, for the window that began at a time.  The lists of labels
are cut at a length.  Measurements are averaged. -/
def summary (t : Tally) (time : Instant) (n : Nat) : Summary :=
  match t with
  | .syslog m =>
    .syslog ⟨time, m.counts, m.patterns.distinct, m.errorPatterns.distinct, m.patterns.top n,
      m.errorPatterns.top n⟩
  | .trap count types => .trap ⟨time, count, types.distinct, types.top n⟩
  | .netflow f =>
    .netflow
      { time := time
        packets := f.packets
        bytes := f.bytes
        macs := f.macs.distinct
        ips := f.ips.distinct
        flows := f.flows.distinct
        protocols := f.protocols.distinct
        fumbles := f.fumbles.distinct
        topMacs := f.macs.tops n
        topIps := f.ips.tops n
        topFlows := f.flows.tops n
        topProtocols := f.protocols.tops n
        topFumbles := f.fumbles.top n }
  | .windowsEvent m =>
    .windowsEvent ⟨time, m.counts, m.patterns.distinct, m.errorPatterns.distinct,
      m.patterns.top n, m.errorPatterns.top n⟩
  | .otelLog m hosts traceIds =>
    .otelLog ⟨time, m.counts, m.patterns.distinct, m.errorPatterns.distinct, hosts.size,
      traceIds.size, m.patterns.top n, m.errorPatterns.top n⟩
  | .mqtt count types clients topics =>
    .mqtt ⟨time, count, types.distinct, clients.size, topics.size, types.top n⟩
  | .monitor s =>
    let samples := (max s.samples 1).toFloat
    .monitor ⟨time, s.cpu / samples, s.memory / samples, s.load / samples, s.disk / samples,
      s.net / samples, s.samples⟩

end Tally

end LogWatch.Report
