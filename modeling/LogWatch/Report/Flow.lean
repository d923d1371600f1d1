import LogWatch.Record.Basic
import LogWatch.Report.Service

/-!
# Flows in reports

How the two directions of a conversation get one label, and which flows are fumbles: attempts that
found nothing to talk to.

* `Flow.label` — the label of two addresses, whichever comes first;
* `Flow.fumbler?` — the address that a fumble is counted for.
-/

namespace LogWatch.Report.Flow

open Net

/-- Does an address of four octets name one host of the whole net? -/
def isGlobalV4 (bits : BitVec 32) : Bool :=
  let n := bits.toNat
  !(n == 0 || n >>> 24 == 127 || n >>> 28 == 14 || n >>> 16 == 169 * 256 + 254 ||
    n == 0xffffffff)

/-- Does an address of eight groups name one host of the whole net? -/
def isGlobalV6 (bits : BitVec 128) : Bool :=
  let n := bits.toNat
  !(n == 0 || n == 1 || n >>> 120 == 0xff || n >>> 118 == 0xfe80 >>> 6)

/-- What orders the addresses of a label: those of one host in the whole net first, then the shorter
family, then by number. -/
def rank : IpAddress → Nat × Nat × Nat
  | .v4 bits => (if isGlobalV4 bits then 0 else 1, 4, bits.toNat)
  | .v6 bits => (if isGlobalV6 bits then 0 else 1, 6, bits.toNat)

/-- Does a rank come before another one or equal it? -/
def rankLe (a b : Nat × Nat × Nat) : Bool :=
  a.1 < b.1 || (a.1 == b.1 && (a.2.1 < b.2.1 || (a.2.1 == b.2.1 && a.2.2 ≤ b.2.2)))

/-- The label of a conversation between two addresses. -/
def label (a b : IpAddress) : String :=
  let (first, second) := if rankLe (rank a) (rank b) then (a, b) else (b, a)
  first.toText ++ " <-> " ++ second.toText

/-- A connection with fewer packets has not been used. -/
def fewPackets : UInt64 :=
  5

/-- The message that a destination cannot be reached. -/
def unreachable : UInt8 :=
  3

/-- The address that a fumble is counted for: the source of a connection with all flags set or with
few packets, and the destination of a message that something cannot be reached. -/
def fumbler? (f : FlowRecord) : Option IpAddress :=
  if f.protocol = Protocol.tcp then
    if f.tcpFlags &&& FlowRecord.allFlags = FlowRecord.allFlags ∨ f.packets < fewPackets then
      some f.src
    else none
  else if f.icmpType? = some unreachable then some f.dst
  else none

end LogWatch.Report.Flow
