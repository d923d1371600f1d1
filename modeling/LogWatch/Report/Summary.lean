import LogWatch.Json.Words
import LogWatch.Record.Source

/-!
# Summaries

What a report says about one window of a source: counters, numbers of distinct keys and the lists
of the most frequent ones.

* `Summary.vector` — the numbers that the anomaly scorer compares, in a fixed order;
* `Summary.topLists` — the lists;
* `Summary.toJson`, `Summary.ofJson?` — the stored form, with the source's code under `type`.
-/

namespace LogWatch

open Time Json

/-- A label with the number that ranks it. -/
structure TopEntry where
  label : String
  metric : UInt64
deriving DecidableEq

/-- How many records of a window were normal, warnings and errors. -/
structure SeverityCounts where
  normal : UInt64
  warn : UInt64
  error : UInt64
deriving DecidableEq

structure SyslogSummary where
  time : Instant
  counts : SeverityCounts
  patterns : UInt64
  errorPatterns : UInt64
  top : List TopEntry
  topErrors : List TopEntry

structure TrapSummary where
  time : Instant
  count : UInt64
  types : UInt64
  top : List TopEntry

/-- The lists of the most frequent keys of one kind, by packets and by bytes. -/
structure TrafficTops where
  packets : List TopEntry
  bytes : List TopEntry

structure NetflowSummary where
  time : Instant
  packets : UInt64
  bytes : UInt64
  macs : UInt64
  ips : UInt64
  flows : UInt64
  protocols : UInt64
  fumbles : UInt64
  topMacs : TrafficTops
  topIps : TrafficTops
  topFlows : TrafficTops
  topProtocols : TrafficTops
  topFumbles : List TopEntry

structure WindowsSummary where
  time : Instant
  counts : SeverityCounts
  types : UInt64
  errorTypes : UInt64
  top : List TopEntry
  topErrors : List TopEntry

structure OtelSummary where
  time : Instant
  counts : SeverityCounts
  types : UInt64
  errorTypes : UInt64
  hosts : UInt64
  traceIds : UInt64
  top : List TopEntry
  topErrors : List TopEntry

structure MqttSummary where
  time : Instant
  count : UInt64
  types : UInt64
  clients : UInt64
  topics : UInt64
  top : List TopEntry

structure MonitorSummary where
  time : Instant
  cpu : Float
  memory : Float
  load : Float
  disk : Float
  net : Float
  samples : UInt64

/-- The report of one window of a source. -/
inductive Summary where
  | syslog (s : SyslogSummary)
  | trap (s : TrapSummary)
  | netflow (s : NetflowSummary)
  | windowsEvent (s : WindowsSummary)
  | otelLog (s : OtelSummary)
  | mqtt (s : MqttSummary)
  | monitor (s : MonitorSummary)

namespace Summary

/-- The source that a summary reports on. -/
def source : Summary → SourceType
  | .syslog _ => .syslog
  | .trap _ => .trap
  | .netflow _ => .netflow
  | .windowsEvent _ => .windowsEvent
  | .otelLog _ => .otelLog
  | .mqtt _ => .mqtt
  | .monitor _ => .monitor

/-- The time of a summary: the start of its window. -/
def time : Summary → Instant
  | .syslog s => s.time
  | .trap s => s.time
  | .netflow s => s.time
  | .windowsEvent s => s.time
  | .otelLog s => s.time
  | .mqtt s => s.time
  | .monitor s => s.time

/-- The numbers that the anomaly scorer compares. -/
def vector : Summary → List Float
  | .syslog s =>
    [s.counts.normal, s.counts.warn, s.counts.error, s.patterns, s.errorPatterns].map
      UInt64.toFloat
  | .trap s => [s.count, s.types].map UInt64.toFloat
  | .netflow s =>
    [s.packets, s.bytes, s.macs, s.ips, s.flows, s.protocols, s.fumbles].map UInt64.toFloat
  | .windowsEvent s =>
    [s.counts.normal, s.counts.warn, s.counts.error, s.types, s.errorTypes].map UInt64.toFloat
  | .otelLog s =>
    [s.counts.normal, s.counts.warn, s.counts.error, s.types, s.errorTypes, s.hosts,
      s.traceIds].map UInt64.toFloat
  | .mqtt s => [s.count, s.types, s.clients, s.topics].map UInt64.toFloat
  | .monitor s => [s.cpu, s.memory, s.load, s.disk, s.net]

/-- The lists of the most frequent keys. -/
def topLists : Summary → List (List TopEntry)
  | .syslog s => [s.top, s.topErrors]
  | .trap s => [s.top]
  | .netflow s =>
    [s.topMacs.packets, s.topMacs.bytes, s.topIps.packets, s.topIps.bytes, s.topFlows.packets,
      s.topFlows.bytes, s.topProtocols.packets, s.topProtocols.bytes, s.topFumbles]
  | .windowsEvent s => [s.top, s.topErrors]
  | .otelLog s => [s.top, s.topErrors]
  | .mqtt s => [s.top]
  | .monitor _ => []

end Summary

/-! ## Stored form -/

namespace TopEntry

/-- An entry as an object. -/
def toJson (e : TopEntry) : Json :=
  .obj [("label", .str e.label), ("metric", ofNat e.metric.toNat)]

/-- An entry. -/
def ofJson? (j : Json) : Option TopEntry := do
  match ← j.fields? ["label", "metric"] with
  | [label, metric] => some ⟨← required? str? label, ← required? u64? metric⟩
  | _ => none

end TopEntry

/-- A list of entries. -/
def topToJson (top : List TopEntry) : Json :=
  .arr (top.map TopEntry.toJson)

/-- A list of entries. -/
def topOfJson? (j : Json) : Option (List TopEntry) :=
  j.list? TopEntry.ofJson?

/-- A word of sixty-four bits. -/
def countToJson (n : UInt64) : Json :=
  ofNat n.toNat

namespace Summary

/-- The members of a summary besides its type. -/
def members : Summary → List (String × Json)
  | .syslog s =>
    [("time", ofTime s.time), ("normal", countToJson s.counts.normal),
      ("warn", countToJson s.counts.warn), ("error", countToJson s.counts.error),
      ("patterns", countToJson s.patterns), ("err_patterns", countToJson s.errorPatterns),
      ("top_list", topToJson s.top), ("top_error_list", topToJson s.topErrors)]
  | .trap s =>
    [("time", ofTime s.time), ("count", countToJson s.count), ("types", countToJson s.types),
      ("top_list", topToJson s.top)]
  | .netflow s =>
    [("time", ofTime s.time), ("packets", countToJson s.packets), ("bytes", countToJson s.bytes),
      ("macs", countToJson s.macs), ("ips", countToJson s.ips), ("flows", countToJson s.flows),
      ("protocols", countToJson s.protocols), ("fumbles", countToJson s.fumbles),
      ("top_mac_packets", topToJson s.topMacs.packets),
      ("top_mac_bytes", topToJson s.topMacs.bytes),
      ("top_ip_packets", topToJson s.topIps.packets), ("top_ip_bytes", topToJson s.topIps.bytes),
      ("top_flow_packets", topToJson s.topFlows.packets),
      ("top_flow_bytes", topToJson s.topFlows.bytes),
      ("top_protocol_packets", topToJson s.topProtocols.packets),
      ("top_protocol_bytes", topToJson s.topProtocols.bytes),
      ("top_fumble_src", topToJson s.topFumbles)]
  | .windowsEvent s =>
    [("time", ofTime s.time), ("normal", countToJson s.counts.normal),
      ("warn", countToJson s.counts.warn), ("error", countToJson s.counts.error),
      ("types", countToJson s.types), ("error_types", countToJson s.errorTypes),
      ("top_list", topToJson s.top), ("top_error_list", topToJson s.topErrors)]
  | .otelLog s =>
    [("time", ofTime s.time), ("normal", countToJson s.counts.normal),
      ("warn", countToJson s.counts.warn), ("error", countToJson s.counts.error),
      ("types", countToJson s.types), ("error_types", countToJson s.errorTypes),
      ("hosts", countToJson s.hosts), ("trace_ids", countToJson s.traceIds),
      ("top_list", topToJson s.top), ("top_error_list", topToJson s.topErrors)]
  | .mqtt s =>
    [("time", ofTime s.time), ("count", countToJson s.count), ("types", countToJson s.types),
      ("clients", countToJson s.clients), ("topics", countToJson s.topics),
      ("top_list", topToJson s.top)]
  | .monitor s =>
    [("time", ofTime s.time), ("cpu", ofFloat s.cpu), ("memory", ofFloat s.memory),
      ("load", ofFloat s.load), ("disk", ofFloat s.disk), ("net", ofFloat s.net),
      ("samples", countToJson s.samples)]

/-- A summary as an object with its type. -/
def toJson (s : Summary) : Json :=
  .obj (("type", .str s.source.code) :: s.members)

/-- The severity counters of a summary. -/
def counts? (normal warn error : Option Json) : Option SeverityCounts := do
  some ⟨← required? u64? normal, ← required? u64? warn, ← required? u64? error⟩

/-- The summary of a source. -/
def ofFields? (source : SourceType) (j : Json) : Option Summary := do
  match source with
  | .syslog =>
    match ← j.fields? ["time", "normal", "warn", "error", "patterns", "err_patterns", "top_list",
      "top_error_list"] with
    | [time, normal, warn, error, patterns, errorPatterns, top, topErrors] =>
      some (.syslog
        { time := ← required? time? time
          counts := ← counts? normal warn error
          patterns := ← required? u64? patterns
          errorPatterns := ← required? u64? errorPatterns
          top := ← required? topOfJson? top
          topErrors := ← required? topOfJson? topErrors })
    | _ => none
  | .trap =>
    match ← j.fields? ["time", "count", "types", "top_list"] with
    | [time, count, types, top] =>
      some (.trap
        { time := ← required? time? time
          count := ← required? u64? count
          types := ← required? u64? types
          top := ← required? topOfJson? top })
    | _ => none
  | .netflow =>
    match ← j.fields? ["time", "packets", "bytes", "macs", "ips", "flows", "protocols", "fumbles",
      "top_mac_packets", "top_mac_bytes", "top_ip_packets", "top_ip_bytes", "top_flow_packets",
      "top_flow_bytes", "top_protocol_packets", "top_protocol_bytes", "top_fumble_src"] with
    | [time, packets, bytes, macs, ips, flows, protocols, fumbles, macPackets, macBytes, ipPackets,
        ipBytes, flowPackets, flowBytes, protocolPackets, protocolBytes, fumbleSrc] =>
      some (.netflow
        { time := ← required? time? time
          packets := ← required? u64? packets
          bytes := ← required? u64? bytes
          macs := ← required? u64? macs
          ips := ← required? u64? ips
          flows := ← required? u64? flows
          protocols := ← required? u64? protocols
          fumbles := ← required? u64? fumbles
          topMacs := ⟨← required? topOfJson? macPackets, ← required? topOfJson? macBytes⟩
          topIps := ⟨← required? topOfJson? ipPackets, ← required? topOfJson? ipBytes⟩
          topFlows := ⟨← required? topOfJson? flowPackets, ← required? topOfJson? flowBytes⟩
          topProtocols :=
            ⟨← required? topOfJson? protocolPackets, ← required? topOfJson? protocolBytes⟩
          topFumbles := ← required? topOfJson? fumbleSrc })
    | _ => none
  | .windowsEvent =>
    match ← j.fields? ["time", "normal", "warn", "error", "types", "error_types", "top_list",
      "top_error_list"] with
    | [time, normal, warn, error, types, errorTypes, top, topErrors] =>
      some (.windowsEvent
        { time := ← required? time? time
          counts := ← counts? normal warn error
          types := ← required? u64? types
          errorTypes := ← required? u64? errorTypes
          top := ← required? topOfJson? top
          topErrors := ← required? topOfJson? topErrors })
    | _ => none
  | .otelLog =>
    match ← j.fields? ["time", "normal", "warn", "error", "types", "error_types", "hosts",
      "trace_ids", "top_list", "top_error_list"] with
    | [time, normal, warn, error, types, errorTypes, hosts, traceIds, top, topErrors] =>
      some (.otelLog
        { time := ← required? time? time
          counts := ← counts? normal warn error
          types := ← required? u64? types
          errorTypes := ← required? u64? errorTypes
          hosts := ← required? u64? hosts
          traceIds := ← required? u64? traceIds
          top := ← required? topOfJson? top
          topErrors := ← required? topOfJson? topErrors })
    | _ => none
  | .mqtt =>
    match ← j.fields? ["time", "count", "types", "clients", "topics", "top_list"] with
    | [time, count, types, clients, topics, top] =>
      some (.mqtt
        { time := ← required? time? time
          count := ← required? u64? count
          types := ← required? u64? types
          clients := ← required? u64? clients
          topics := ← required? u64? topics
          top := ← required? topOfJson? top })
    | _ => none
  | .monitor =>
    match ← j.fields? ["time", "cpu", "memory", "load", "disk", "net", "samples"] with
    | [time, cpu, memory, load, disk, net, samples] =>
      some (.monitor
        { time := ← required? time? time
          cpu := ← required? float? cpu
          memory := ← required? float? memory
          load := ← required? float? load
          disk := ← required? float? disk
          net := ← required? float? net
          samples := ← required? u64? samples })
    | _ => none

/-- A summary by its type. -/
def ofJson? (j : Json) : Option Summary := do
  let (type, rest) ← j.tagged? "type"
  let source ← SourceType.ofCode? type
  ofFields? source rest

end Summary

end LogWatch
