import LogWatch.Json.Words
import LogWatch.Record.Basic

/-!
# Records in JSON

How records are stored: `LogRecord.toJson` and `LogRecord.ofJson?`, with the same pair for details
and flows.  A detail carries its source's code under `kind`; an absent detail is left out.
-/

namespace LogWatch

open Json

/-! ## Sources -/

/-- A source by its code. -/
def SourceType.toJson (s : SourceType) : Json :=
  .str s.code

/-- A source by its code. -/
def SourceType.ofJson? (j : Json) : Option SourceType :=
  j.variant?.bind SourceType.ofCode?

/-! ## Flows -/

namespace FlowRecord

/-- The names of the fields of a flow. -/
def fieldNames : List String :=
  ["src", "dst", "src_port", "dst_port", "protocol", "tcp_flags", "packets", "bytes", "src_mac",
    "dst_mac"]

/-- The members of a flow. -/
def members (f : FlowRecord) : List (String × Json) :=
  [("src", ofAddress f.src), ("dst", ofAddress f.dst), ("src_port", ofNat f.srcPort.toNat),
    ("dst_port", ofNat f.dstPort.toNat), ("protocol", ofNat f.protocol.toNat),
    ("tcp_flags", ofNat f.tcpFlags.toNat), ("packets", ofNat f.packets.toNat),
    ("bytes", ofNat f.bytes.toNat), ("src_mac", ofString? f.srcMac),
    ("dst_mac", ofString? f.dstMac)]

/-- A flow as an object. -/
def toJson (f : FlowRecord) : Json :=
  .obj f.members

/-- A flow; ports and flags default to zero. -/
def ofJson? (j : Json) : Option FlowRecord := do
  match ← j.fields? fieldNames with
  | [src, dst, srcPort, dstPort, protocol, flags, packets, bytes, srcMac, dstMac] =>
    some
      { src := ← required? address? src
        dst := ← required? address? dst
        srcPort := ← withDefault? u16? 0 srcPort
        dstPort := ← withDefault? u16? 0 dstPort
        protocol := ← required? u8? protocol
        tcpFlags := ← withDefault? u8? 0 flags
        packets := ← required? u64? packets
        bytes := ← required? u64? bytes
        srcMac := ← optional? str? srcMac
        dstMac := ← optional? str? dstMac }
  | _ => none

end FlowRecord

/-! ## Details -/

namespace RecordDetail

/-- The members of a detail besides its kind. -/
def members : RecordDetail → List (String × Json)
  | .syslog severity host tag message =>
    [("severity", ofNat severity.toNat), ("host", .str host), ("tag", .str tag),
      ("message", .str message)]
  | .trap sender trapType => [("sender", .str sender), ("trap_type", .str trapType)]
  | .netflow flow => flow.members
  | .windowsEvent level computer provider eventId message =>
    [("level", ofNat level.toNat), ("computer", .str computer), ("provider", .str provider),
      ("event_id", ofNat eventId.toNat), ("message", .str message)]
  | .otelLog severity host service message traceId =>
    [("severity_number", ofNat severity.toNat), ("host", .str host), ("service", .str service),
      ("message", .str message), ("trace_id", ofString? traceId)]
  | .mqtt clientId topic => [("client_id", .str clientId), ("topic", .str topic)]
  | .monitor cpu memory load disk netBytes =>
    [("cpu", ofFloat cpu), ("memory", ofFloat memory), ("load", ofFloat load),
      ("disk", ofFloat disk), ("net_bytes", ofFloat netBytes)]

/-- A detail as an object with its kind. -/
def toJson (d : RecordDetail) : Json :=
  .obj (("kind", d.source.toJson) :: d.members)

/-- The detail of a source. -/
def ofFields? (source : SourceType) (j : Json) : Option RecordDetail := do
  match source with
  | .syslog =>
    match ← j.fields? ["severity", "host", "tag", "message"] with
    | [severity, host, tag, message] =>
      some (.syslog (← required? u8? severity) (← required? str? host) (← required? str? tag)
        (← required? str? message))
    | _ => none
  | .trap =>
    match ← j.fields? ["sender", "trap_type"] with
    | [sender, trapType] => some (.trap (← required? str? sender) (← required? str? trapType))
    | _ => none
  | .netflow => (FlowRecord.ofJson? j).map .netflow
  | .windowsEvent =>
    match ← j.fields? ["level", "computer", "provider", "event_id", "message"] with
    | [level, computer, provider, eventId, message] =>
      some (.windowsEvent (← required? u8? level) (← required? str? computer)
        (← required? str? provider) (← required? u32? eventId) (← withDefault? str? "" message))
    | _ => none
  | .otelLog =>
    match ← j.fields? ["severity_number", "host", "service", "message", "trace_id"] with
    | [severity, host, service, message, traceId] =>
      some (.otelLog (← required? u8? severity) (← required? str? host) (← required? str? service)
        (← required? str? message) (← optional? str? traceId))
    | _ => none
  | .mqtt =>
    match ← j.fields? ["client_id", "topic"] with
    | [clientId, topic] => some (.mqtt (← required? str? clientId) (← required? str? topic))
    | _ => none
  | .monitor =>
    match ← j.fields? ["cpu", "memory", "load", "disk", "net_bytes"] with
    | [cpu, memory, load, disk, netBytes] =>
      some (.monitor (← required? float? cpu) (← required? float? memory)
        (← required? float? load) (← required? float? disk) (← required? float? netBytes))
    | _ => none

/-- A detail by its kind. -/
def ofJson? (j : Json) : Option RecordDetail := do
  let (kind, rest) ← j.tagged? "kind"
  let source ← SourceType.ofCode? kind
  ofFields? source rest

end RecordDetail

/-! ## Records -/

namespace LogRecord

/-- A record as an object; an absent detail is left out. -/
def toJson (r : LogRecord) : Json :=
  .obj
    ([("time", ofTime r.time), ("source_type", r.sourceType.toJson), ("source", .str r.source),
      ("body", .str r.body)] ++
      match r.detail with
      | some d => [("detail", d.toJson)]
      | none => [])

/-- A record. -/
def ofJson? (j : Json) : Option LogRecord := do
  match ← j.fields? ["time", "source_type", "source", "body", "detail"] with
  | [time, sourceType, source, body, detail] =>
    some
      { time := ← required? time? time
        sourceType := ← required? SourceType.ofJson? sourceType
        source := ← required? str? source
        body := ← required? str? body
        detail := ← optional? RecordDetail.ofJson? detail }
  | _ => none

end LogRecord

end LogWatch
