import LogWatch.Text.Basic

/-!
# Services

The names of protocols and of the services behind well-known ports.

* `protocolName`, `service?` — the names themselves;
* `flowService` — the service that a flow belongs to, whichever side it is on.
-/

namespace LogWatch.Report

/-- A well-known port of a protocol. -/
structure Service where
  protocol : UInt8
  port : UInt16
  name : String
deriving DecidableEq, Repr

namespace Protocol

/-- The transmission control protocol. -/
def tcp : UInt8 := 6

/-- The user datagram protocol. -/
def udp : UInt8 := 17

/-- The stream control transmission protocol. -/
def sctp : UInt8 := 132

end Protocol

open Protocol in
/-- The services that are known by name. -/
def services : List Service := [
  ⟨tcp, 20, "ftp-data"⟩, ⟨tcp, 21, "ftp"⟩, ⟨tcp, 22, "ssh"⟩, ⟨tcp, 23, "telnet"⟩,
  ⟨tcp, 25, "smtp"⟩, ⟨tcp, 53, "domain"⟩, ⟨udp, 53, "domain"⟩, ⟨udp, 67, "bootps"⟩,
  ⟨udp, 68, "bootpc"⟩, ⟨udp, 69, "tftp"⟩, ⟨tcp, 80, "http"⟩, ⟨tcp, 88, "kerberos"⟩,
  ⟨udp, 88, "kerberos"⟩, ⟨tcp, 110, "pop3"⟩, ⟨udp, 123, "ntp"⟩, ⟨tcp, 135, "epmap"⟩,
  ⟨udp, 137, "netbios-ns"⟩, ⟨udp, 138, "netbios-dgm"⟩, ⟨tcp, 139, "netbios-ssn"⟩,
  ⟨tcp, 143, "imap"⟩, ⟨udp, 161, "snmp"⟩, ⟨udp, 162, "snmptrap"⟩, ⟨tcp, 179, "bgp"⟩,
  ⟨tcp, 389, "ldap"⟩, ⟨udp, 389, "ldap"⟩, ⟨tcp, 443, "https"⟩, ⟨udp, 443, "https"⟩,
  ⟨tcp, 445, "microsoft-ds"⟩, ⟨udp, 500, "isakmp"⟩, ⟨udp, 514, "syslog"⟩,
  ⟨tcp, 587, "submission"⟩, ⟨tcp, 636, "ldaps"⟩, ⟨tcp, 853, "domain-s"⟩, ⟨tcp, 993, "imaps"⟩,
  ⟨tcp, 995, "pop3s"⟩, ⟨tcp, 1433, "ms-sql-s"⟩, ⟨udp, 1812, "radius"⟩,
  ⟨udp, 1813, "radius-acct"⟩, ⟨tcp, 1883, "mqtt"⟩, ⟨udp, 2055, "netflow"⟩,
  ⟨tcp, 3306, "mysql"⟩, ⟨tcp, 3389, "ms-wbt-server"⟩, ⟨udp, 4739, "ipfix"⟩,
  ⟨udp, 5353, "mdns"⟩, ⟨tcp, 5432, "postgresql"⟩, ⟨tcp, 5900, "vnc"⟩, ⟨tcp, 6379, "redis"⟩,
  ⟨udp, 6343, "sflow"⟩, ⟨tcp, 8080, "http-alt"⟩, ⟨tcp, 8883, "secure-mqtt"⟩,
  ⟨tcp, 9200, "elasticsearch"⟩]

/-- The protocols that are known by name. -/
def protocols : List (UInt8 × String) := [
  (1, "icmp"), (2, "igmp"), (Protocol.tcp, "tcp"), (Protocol.udp, "udp"), (47, "gre"), (50, "esp"),
  (51, "ah"), (58, "ipv6-icmp"), (89, "ospf"), (Protocol.sctp, "sctp")]

/-- The name of a protocol, or its number. -/
def protocolName (protocol : UInt8) : String :=
  match protocols.find? (·.1 == protocol) with
  | some (_, name) => name
  | none => Text.decimal protocol.toNat

/-- The name of the service behind a port. -/
def service? (protocol : UInt8) (port : UInt16) : Option String :=
  (services.find? fun s => s.protocol == protocol && s.port == port).map (·.name)

/-- Does a protocol have ports? -/
def hasPorts (protocol : UInt8) : Bool :=
  protocol == Protocol.tcp || protocol == Protocol.udp || protocol == Protocol.sctp

/-- The service of a flow between two ports: that of the lower port, else that of the higher one,
else the lower port itself.  A protocol without ports is its own service. -/
def flowService (protocol : UInt8) (a b : UInt16) : String :=
  if !hasPorts protocol then protocolName protocol
  else
    let low := min a b
    let high := max a b
    match service? protocol low with
    | some name => name
    | none =>
      match service? protocol high with
      | some name => name
      | none => Text.decimal low.toNat ++ "/" ++ protocolName protocol

end LogWatch.Report
