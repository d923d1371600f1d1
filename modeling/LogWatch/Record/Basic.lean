import LogWatch.Net.Address
import LogWatch.Record.Source
import LogWatch.Time.Instant

/-!
# Log records

A record has a time, a source, the name of what sent it and a body.  Records that take part in
reports also carry a typed projection of the body: the fields that the report of their source
counts.
-/

namespace LogWatch

open Net Time

/-- A flow between two addresses. -/
structure FlowRecord where
  src : IpAddress
  dst : IpAddress
  srcPort : UInt16
  dstPort : UInt16
  protocol : UInt8
  tcpFlags : UInt8
  packets : UInt64
  bytes : UInt64
  srcMac : Option String
  dstMac : Option String
deriving DecidableEq

/-- The flags of a segment of the transmission control protocol. -/
def FlowRecord.allFlags : UInt8 :=
  0x3F

/-- The message type of a flow of the control message protocols, which is kept in the upper half of
the destination port. -/
def FlowRecord.icmpType? (f : FlowRecord) : Option UInt8 :=
  if f.protocol = 1 ∨ f.protocol = 58 then some (f.dstPort >>> 8).toUInt8 else none

/-- The fields of a record that the report of its source counts. -/
inductive RecordDetail where
  | syslog (severity : UInt8) (host tag message : String)
  | trap (sender trapType : String)
  | netflow (flow : FlowRecord)
  | windowsEvent (level : UInt8) (computer provider : String) (eventId : UInt32) (message : String)
  | otelLog (severityNumber : UInt8) (host service message : String) (traceId : Option String)
  | mqtt (clientId topic : String)
  | monitor (cpu memory load disk netBytes : Float)

/-- The source whose report counts a detail. -/
def RecordDetail.source : RecordDetail → SourceType
  | .syslog .. => .syslog
  | .trap .. => .trap
  | .netflow _ => .netflow
  | .windowsEvent .. => .windowsEvent
  | .otelLog .. => .otelLog
  | .mqtt .. => .mqtt
  | .monitor .. => .monitor

/-- A record of a log stream. -/
structure LogRecord where
  time : Instant
  sourceType : SourceType
  source : String
  body : String
  detail : Option RecordDetail

end LogWatch
