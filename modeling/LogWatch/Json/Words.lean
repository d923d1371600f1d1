import LogWatch.Json.Fields
import LogWatch.Net.Address
import LogWatch.Number.Binary
import LogWatch.Time.Timestamp

/-!
# Leaves of records in JSON

Words of fixed width, doubles, times and addresses as they stand in records.
-/

namespace LogWatch.Json

/-- A word of eight bits. -/
def u8? (j : Json) : Option UInt8 :=
  (j.nat? 0x100).map UInt8.ofNat

/-- A word of sixteen bits. -/
def u16? (j : Json) : Option UInt16 :=
  (j.nat? 0x10000).map UInt16.ofNat

/-- A word of thirty-two bits. -/
def u32? (j : Json) : Option UInt32 :=
  (j.nat? 0x100000000).map UInt32.ofNat

/-- A word of sixty-four bits. -/
def u64? (j : Json) : Option UInt64 :=
  (j.nat? 0x10000000000000000).map UInt64.ofNat

/-- A natural number. -/
def ofNat (n : Nat) : Json :=
  .int n

/-- A double; one that is infinite or undefined is written as `null`. -/
def ofFloat (x : Float) : Json :=
  if Number.isFinite x then .float x else .null

/-- An instant. -/
def time? : Json → Option Time.Instant
  | .str s => Time.Instant.ofText? s
  | _ => none

/-- An instant. -/
def ofTime (t : Time.Instant) : Json :=
  .str t.toText

/-- An address. -/
def address? : Json → Option Net.IpAddress
  | .str s => Net.IpAddress.ofText? s
  | _ => none

/-- An address. -/
def ofAddress (a : Net.IpAddress) : Json :=
  .str a.toText

/-- An optional string. -/
def ofString? (s : Option String) : Json :=
  ofOption .str s

end LogWatch.Json
