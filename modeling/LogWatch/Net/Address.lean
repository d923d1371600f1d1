import LogWatch.Text.Basic

/-!
# Addresses of the Internet Protocol

Addresses of both families with their usual written forms: four decimal octets, or eight groups
of hexadecimal digits of which one run of zeros may be left out.

* `IpAddress.toText` writes an address, the longest run of zero groups shortened to `::`;
* `IpAddress.ofText?` reads an address of either family.
-/

namespace LogWatch.Net

/-- An address of version four or six. -/
inductive IpAddress where
  | v4 (bits : BitVec 32)
  | v6 (bits : BitVec 128)
deriving DecidableEq, Repr

namespace IpAddress

/-! ## Parts -/

/-- The address of four octets. -/
def ofOctets (a b c d : Nat) : IpAddress :=
  .v4 (BitVec.ofNat 32 (((a * 256 + b) * 256 + c) * 256 + d))

/-- The octets of an address of version four. -/
def octets (bits : BitVec 32) : List Nat :=
  let n := bits.toNat
  [n >>> 24 % 256, n >>> 16 % 256, n >>> 8 % 256, n % 256]

/-- The eight groups of sixteen bits of an address of version six. -/
def groups (bits : BitVec 128) : List Nat :=
  (List.range 8).map fun i => bits.toNat >>> (16 * (7 - i)) % 65536

/-- The address of eight groups. -/
def ofGroups (gs : List Nat) : IpAddress :=
  .v6 (BitVec.ofNat 128 (gs.foldl (fun n g => n * 65536 + g) 0))

/-! ## Writing -/

/-- Four octets with points between them. -/
def v4Text (bits : BitVec 32) : String :=
  ".".intercalate ((octets bits).map Text.decimal)

/-- Start and length of the longest run of zeros, the first of equal ones. -/
def longestZeros (gs : List Nat) : Nat × Nat :=
  let runs := (List.range gs.length).map fun i => (i, ((gs.drop i).takeWhile (· == 0)).length)
  runs.foldl (fun best run => if best.2 < run.2 then run else best) (0, 0)

/-- Groups in hexadecimal with colons between them. -/
def groupsText (gs : List Nat) : String :=
  ":".intercalate (gs.map Text.hexadecimal)

/-- Eight groups; two or more zero groups in a row are left out, and an address that embeds one
of version four ends in octets. -/
def v6Text (bits : BitVec 128) : String :=
  let gs := groups bits
  if gs.take 6 = [0, 0, 0, 0, 0, 0xffff] then
    "::ffff:" ++ v4Text (BitVec.ofNat 32 bits.toNat)
  else
    let (start, length) := longestZeros gs
    if length > 1 then groupsText (gs.take start) ++ "::" ++ groupsText (gs.drop (start + length))
    else groupsText gs

/-- The written form of an address. -/
def toText : IpAddress → String
  | .v4 bits => v4Text bits
  | .v6 bits => v6Text bits

/-! ## Reading -/

/-- An octet: one to three digits, no zero in front, below 256. -/
def octet? (cs : List Char) : Option Nat :=
  if cs.isEmpty || cs.length > 3 || !cs.all Text.isDigit then none
  else if cs.length > 1 && cs.head? == some '0' then none
  else
    let n := Text.decimalValue cs
    if n < 256 then some n else none

/-- Four octets with points between them. -/
def v4Octets? (cs : List Char) : Option (List Nat) :=
  let pieces := Text.splitOn '.' cs
  if pieces.length = 4 then pieces.mapM octet? else none

/-- A group: one to four hexadecimal digits. -/
def group? (cs : List Char) : Option Nat :=
  if cs.isEmpty || cs.length > 4 then none
  else
    (cs.mapM Text.hexValue?).map fun ds => ds.foldl (fun n d => n * 16 + d) 0

/-- Groups with colons between them; the last piece may be an address of version four, which
stands for two groups, if `embedded` allows it.  The empty text has no groups. -/
def groups? (embedded : Bool) (cs : List Char) : Option (List Nat) :=
  if cs.isEmpty then some []
  else
    let pieces := Text.splitOn ':' cs
    let last := pieces.getLast?.getD []
    if embedded && last.contains '.' then do
      let before ← pieces.dropLast.mapM group?
      match ← v4Octets? last with
      | [a, b, c, d] => some (before ++ [a * 256 + b, c * 256 + d])
      | _ => none
    else pieces.mapM group?

/-- A text cut at its first `::`. -/
def cutAtGap : List Char → Option (List Char × List Char)
  | [] => none
  | c :: cs =>
    match c, cs with
    | ':', ':' :: rest => some ([], rest)
    | _, _ => (cutAtGap cs).map fun (before, after) => (c :: before, after)

/-- An address of version six. -/
def v6? (cs : List Char) : Option IpAddress :=
  match cutAtGap cs with
  | none =>
    match groups? true cs with
    | some gs => if gs.length = 8 then some (ofGroups gs) else none
    | none => none
  | some (before, after) => do
    let front ← groups? false before
    let back ← groups? true after
    if front.length + back.length ≤ 7 then
      some (ofGroups (front ++ List.replicate (8 - front.length - back.length) 0 ++ back))
    else none

/-- An address of version four. -/
def v4? (cs : List Char) : Option IpAddress :=
  match v4Octets? cs with
  | some [a, b, c, d] => some (ofOctets a b c d)
  | _ => none

/-- An address of either version. -/
def ofText? (s : String) : Option IpAddress :=
  match v4? s.toList with
  | some a => some a
  | none => v6? s.toList

end IpAddress

end LogWatch.Net
