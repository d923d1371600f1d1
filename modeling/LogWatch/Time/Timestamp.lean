import LogWatch.Text.Basic
import LogWatch.Number.Reading
import LogWatch.Time.Instant

/-!
# Timestamps

The written form of an instant: date, time of day and offset from universal time.

* `Instant.toText` writes universal time with `Z` and a fraction of none, three, six or nine
  digits, the fewest that are exact;
* `Instant.ofText?` reads any such text and some looser ones: `t` or a blank between date and
  time, one-digit fields, any number of decimals (those beyond nine are dropped), blanks before
  a field or a separator, and any offset.
-/

namespace LogWatch.Time

/-! ## Writing -/

/-- A year of four digits, or with a sign and at least four digits. -/
def yearText (year : Int) : String :=
  if 0 ≤ year ∧ year ≤ 9999 then Text.padded 4 year.toNat
  else (if year < 0 then "-" else "+") ++ Text.padded 4 year.natAbs

/-- The decimals of a second: none, three, six or nine, the fewest that are exact. -/
def fractionText (nanos : Nat) : String :=
  if nanos = 0 then ""
  else if nanos % 1000000 = 0 then "." ++ Text.padded 3 (nanos / 1000000)
  else if nanos % 1000 = 0 then "." ++ Text.padded 6 (nanos / 1000)
  else "." ++ Text.padded 9 nanos

/-- An instant in universal time. -/
def Instant.toText (t : Instant) : String :=
  let d := t.date
  let s := t.secondOfDay
  let second := if t.isLeap then s % 60 + 1 else s % 60
  let nanos := if t.isLeap then t.nanos - nanosPerSecond else t.nanos
  yearText d.year ++ "-" ++ Text.padded 2 d.month ++ "-" ++ Text.padded 2 d.day ++ "T" ++
    Text.padded 2 (s / 3600) ++ ":" ++ Text.padded 2 (s / 60 % 60) ++ ":" ++
    Text.padded 2 second ++ fractionText nanos ++ "Z"

/-! ## Reading -/

/-- A number of one up to `width` digits, after blanks. -/
def scanField? (width : Nat) (cs : List Char) : Option (Nat × List Char) :=
  let cs := Text.trimStart cs
  let digits := (cs.takeWhile Text.isDigit).take width
  if digits.isEmpty then none else some (Text.decimalValue digits, cs.drop digits.length)

/-- A year: up to four digits, or any number of them after a sign. -/
def scanYear? (cs : List Char) : Option (Int × List Char) :=
  match Text.trimStart cs with
  | '-' :: rest => signed rest |>.map fun (n, r) => (-(n : Int), r)
  | '+' :: rest => signed rest |>.map fun (n, r) => ((n : Int), r)
  | rest => scanField? 4 rest |>.map fun (n, r) => ((n : Int), r)
where
  /-- All digits at the front. -/
  signed (cs : List Char) : Option (Nat × List Char) :=
    let digits := cs.takeWhile Text.isDigit
    if digits.isEmpty then none else some (Text.decimalValue digits, cs.dropWhile Text.isDigit)

/-- A separator, after blanks. -/
def scanMark? (mark : Char) (cs : List Char) : Option (List Char) :=
  match Text.trimStart cs with
  | c :: rest => if c = mark then some rest else none
  | [] => none

/-- Decimals after a point as nanoseconds; those beyond the ninth are dropped. -/
def scanFraction? (cs : List Char) : Option (Nat × List Char) :=
  match cs with
  | '.' :: rest =>
    let digits := rest.takeWhile Text.isDigit
    let kept := digits.take 9
    if kept.isEmpty then none
    else some (Text.decimalValue kept * Nat.pow 10 (9 - kept.length), rest.dropWhile Text.isDigit)
  | _ => some (0, cs)

/-- An offset from universal time in seconds: `Z`, the word `UTC`, or a sign with hours and
minutes. -/
def scanOffset? (cs : List Char) : Option (Int × List Char) :=
  if Text.sameIgnoringCase (cs.take 3) ['u', 't', 'c'] then some (0, cs.drop 3)
  else
    match cs with
    | 'Z' :: rest => some (0, rest)
    | 'z' :: rest => some (0, rest)
    | '+' :: rest => hours? rest
    | '-' :: rest => (hours? rest).map fun (n, r) => (-n, r)
    | '\u2212' :: rest => (hours? rest).map fun (n, r) => (-n, r)
    | _ => none
where
  /-- Two digits of hours, colons or blanks, two digits of minutes below sixty. -/
  hours? (cs : List Char) : Option (Int × List Char) :=
    match cs with
    | a :: b :: rest =>
      if Text.isDigit a && Text.isDigit b then
        match rest.dropWhile (fun c => c == ':' || Text.isBlank c) with
        | m :: n :: rest =>
          if Text.isDigit m && Text.isDigit n && Text.digitValue m < 6 then
            let hours := Text.digitValue a * 10 + Text.digitValue b
            let minutes := Text.digitValue m * 10 + Text.digitValue n
            some (((hours * 3600 + minutes * 60 : Nat) : Int), rest)
          else none
        | _ => none
      else none
    | _ => none

/-- The years that dates may have. -/
def isYearInRange (year : Int) : Bool :=
  -262143 ≤ year && year ≤ 262142

/-- An instant from its written form. -/
def Instant.ofChars? (cs : List Char) : Option Instant := do
  let (year, cs) ← scanYear? cs
  let cs ← scanMark? '-' cs
  let (month, cs) ← scanField? 2 cs
  let cs ← scanMark? '-' cs
  let (day, cs) ← scanField? 2 cs
  let cs ← match cs with
    | 'T' :: rest => some rest
    | 't' :: rest => some rest
    | ' ' :: rest => some rest
    | _ => none
  let (hour, cs) ← scanField? 2 cs
  let cs ← scanMark? ':' cs
  let (minute, cs) ← scanField? 2 cs
  let cs ← scanMark? ':' cs
  let (second, cs) ← scanField? 2 cs
  let (nanos, cs) ← scanFraction? cs
  let (offset, cs) ← scanOffset? (Text.trimStart cs)
  let date : Date := ⟨year, month, day⟩
  let inRange := isYearInRange year && date.isValid && hour < 24 && minute < 60 && second ≤ 60
  if !inRange || !(Text.trimStart cs).isEmpty || !(offset.natAbs < 86400) then none
  else
    let leap := second == 60
    let ofDay : Nat := hour * 3600 + minute * 60 + (if leap then 59 else second)
    let t : Instant :=
      ⟨date.dayNumber * 86400 + ofDay - offset, if leap then nanos + nanosPerSecond else nanos⟩
    if isYearInRange t.date.year then some t else none

/-- An instant from its written form. -/
def Instant.ofText? (s : String) : Option Instant :=
  Instant.ofChars? s.toList

end LogWatch.Time
