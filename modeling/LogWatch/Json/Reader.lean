import LogWatch.Text.Basic
import LogWatch.Json.Basic

/-!
# JSON texts read

`Json.ofText?` reads a whole text: one value with blanks around it.  Integers of 64 bits are kept
exactly; every other number becomes a double, formed from its first nineteen or twenty digits and
a power of ten by one multiplication or division per power of the table, so the last bit may
differ from the nearest double.
-/

namespace LogWatch.Json

/-! ## Numbers -/

/-- A power of ten as a double. -/
def powerOfTen (n : Nat) : Float :=
  Float.ofScientific 1 false n

/-- A significand times a power of ten.  Powers down to `10 ^ -308` are one division, smaller ones
are reached in steps; none when the value is beyond the doubles. -/
def scale? : Nat → Float → Int → Option Float
  | 0, f, _ => some f
  | fuel + 1, f, exponent =>
    if exponent.natAbs ≤ 308 then
      if exponent ≥ 0 then
        let g := f * powerOfTen exponent.natAbs
        if g.isInf then none else some g
      else some (f / powerOfTen exponent.natAbs)
    else if f == 0.0 then some f
    else if exponent ≥ 0 then none
    else scale? fuel (f / powerOfTen 308) (exponent + 308)

/-- The double of a significand and an exponent.  Once the value has underflowed further steps
change nothing, so a few of them are enough. -/
def floatOfParts? (negative : Bool) (significand : Nat) (exponent : Int) : Option Float :=
  (scale? 8 (Float.ofNat significand) exponent).map fun f => if negative then -f else f

/-- Digits added to a significand as long as it fits in 64 bits, with the number of digits taken
and what is left. -/
def takeDigits (significand : Nat) : List Char → Nat × Nat × List Char
  | [] => (significand, 0, [])
  | c :: cs =>
    if Text.isDigit c then
      let next := significand * 10 + Text.digitValue c
      if next < 0x10000000000000000 then
        let (s, n, rest) := takeDigits next cs
        (s, n + 1, rest)
      else (significand, 0, c :: cs)
    else (significand, 0, c :: cs)

/-- An exponent after `e`: a sign and digits. -/
def scanExponent? (cs : List Char) : Option (Int × List Char) :=
  let (negative, cs) := match cs with
    | '+' :: rest => (false, rest)
    | '-' :: rest => (true, rest)
    | rest => (false, rest)
  let digits := cs.takeWhile Text.isDigit
  if digits.isEmpty then none
  else
    let n : Int := Text.decimalValue digits
    some (if negative then -n else n, cs.dropWhile Text.isDigit)

/-- The part of a number after its digits: an exponent or nothing. -/
def finishNumber? (negative : Bool) (significand : Nat) (exponent : Int) (cs : List Char) :
    Option (Json × List Char) :=
  let close (e : Int) (rest : List Char) : Json × List Char :=
    match floatOfParts? negative significand e with
    | some f => (.float f, rest)
    | none => (.unreadable, rest)
  match cs with
  | c :: rest =>
    if c = 'e' ∨ c = 'E' then
      (scanExponent? rest).map fun (e, rest) =>
        if e.natAbs ≥ 0x80000000 then
          if significand ≠ 0 ∧ e > 0 then (.unreadable, rest)
          else (.float (if negative then -0.0 else 0.0), rest)
        else close (exponent + e) rest
    else some (close exponent (c :: rest))
  | [] => some (close exponent [])

/-- The part of a number after its point: at least one digit. -/
def finishDecimals? (negative : Bool) (significand : Nat) (exponent : Int) (cs : List Char) :
    Option (Json × List Char) :=
  match cs with
  | c :: _ =>
    if Text.isDigit c then
      let (s, n, rest) := takeDigits significand cs
      finishNumber? negative s (exponent - n) (rest.dropWhile Text.isDigit)
    else none
  | [] => none

/-- A number without its sign; an integer does not start with a zero unless it is zero. -/
def scanNumber? (negative : Bool) (cs : List Char) : Option (Json × List Char) :=
  let digits := cs.takeWhile Text.isDigit
  if digits.isEmpty || (digits.head? == some '0' && digits.length > 1) then none
  else
    let (significand, _, excess) := takeDigits 0 cs
    let dropped := (excess.takeWhile Text.isDigit).length
    match excess.dropWhile Text.isDigit with
    | '.' :: rest => finishDecimals? negative significand dropped rest
    | c :: rest =>
      if c = 'e' ∨ c = 'E' then finishNumber? negative significand dropped (c :: rest)
      else some (whole significand dropped, c :: rest)
    | [] => some (whole significand dropped, [])
where
  /-- An integer, or the double that stands for it. -/
  whole (significand : Nat) (dropped : Nat) : Json :=
    let n : Int := if negative then -(significand : Int) else significand
    if dropped = 0 ∧ inIntRange n ∧ !(negative && significand = 0) then .int n
    else
      match floatOfParts? negative significand dropped with
      | some f => .float f
      | none => .unreadable

/-! ## Strings -/

/-- Four hexadecimal digits. -/
def scanHex? : List Char → Option (Nat × List Char)
  | a :: b :: c :: d :: rest => do
    let a ← Text.hexValue? a
    let b ← Text.hexValue? b
    let c ← Text.hexValue? c
    let d ← Text.hexValue? d
    some (((a * 16 + b) * 16 + c) * 16 + d, rest)
  | _ => none

/-- What a string literal holds after its opening quote: its characters, unless a surrogate stands
alone, and the text after the closing quote. -/
structure Literal where
  chars : Option (List Char)
  rest : List Char

/-- A character put in front of a literal. -/
def Literal.cons (c : Char) (l : Literal) : Literal :=
  ⟨l.chars.map (c :: ·), l.rest⟩

/-- A string literal without its opening quote; the first argument bounds the number of
characters. -/
def scanString? : Nat → List Char → Option Literal
  | 0, _ => none
  | fuel + 1, cs =>
    match cs with
    | [] => none
    | '"' :: rest => some ⟨some [], rest⟩
    | '\\' :: e :: rest =>
      match e with
      | '"' => (scanString? fuel rest).map (.cons '"')
      | '\\' => (scanString? fuel rest).map (.cons '\\')
      | '/' => (scanString? fuel rest).map (.cons '/')
      | 'b' => (scanString? fuel rest).map (.cons '\x08')
      | 'f' => (scanString? fuel rest).map (.cons '\x0c')
      | 'n' => (scanString? fuel rest).map (.cons '\n')
      | 'r' => (scanString? fuel rest).map (.cons '\r')
      | 't' => (scanString? fuel rest).map (.cons '\t')
      | 'u' =>
        match scanHex? rest with
        | none => none
        | some (n, rest) =>
          if 0xD800 ≤ n ∧ n ≤ 0xDBFF then
            match rest with
            | '\\' :: 'u' :: more =>
              match scanHex? more with
              | none => none
              | some (m, more) =>
                if 0xDC00 ≤ m ∧ m ≤ 0xDFFF then
                  (scanString? fuel more).map
                    (.cons (Char.ofNat (0x10000 + (n - 0xD800) * 1024 + (m - 0xDC00))))
                else (scanString? fuel more).map fun l => ⟨none, l.rest⟩
            | _ => (scanString? fuel rest).map fun l => ⟨none, l.rest⟩
          else if 0xDC00 ≤ n ∧ n ≤ 0xDFFF then
            (scanString? fuel rest).map fun l => ⟨none, l.rest⟩
          else (scanString? fuel rest).map (.cons (Char.ofNat n))
      | _ => none
    | c :: rest => if c.toNat < 0x20 ∨ c = '\\' then none else (scanString? fuel rest).map (.cons c)

/-! ## Values -/

/-- The blanks between the parts of a text. -/
def skipBlanks (cs : List Char) : List Char :=
  cs.dropWhile fun c => c == ' ' || c == '\n' || c == '\r' || c == '\t'

/-- A value under a name, if the name is readable. -/
def member (name : Option (List Char)) (value : Json) : String × Json :=
  match name with
  | some cs => (String.ofList cs, value)
  | none => ("", .unreadable)

mutual

/-- A value, after blanks; the first argument bounds the number of steps. -/
def scanValue? : Nat → List Char → Option (Json × List Char)
  | 0, _ => none
  | fuel + 1, cs =>
    match skipBlanks cs with
    | 'n' :: 'u' :: 'l' :: 'l' :: rest => some (.null, rest)
    | 't' :: 'r' :: 'u' :: 'e' :: rest => some (.bool true, rest)
    | 'f' :: 'a' :: 'l' :: 's' :: 'e' :: rest => some (.bool false, rest)
    | '"' :: rest =>
      (scanString? (rest.length + 1) rest).map fun l =>
        (match l.chars with
          | some cs => .str (String.ofList cs)
          | none => .unreadable, l.rest)
    | '[' :: rest =>
      match skipBlanks rest with
      | ']' :: rest => some (.arr [], rest)
      | rest => (scanItems? fuel rest).map fun (items, rest) => (.arr items, rest)
    | '\x7b' :: rest =>
      match skipBlanks rest with
      | '\x7d' :: rest => some (.obj [], rest)
      | rest => (scanMembers? fuel rest).map fun (members, rest) => (.obj members, rest)
    | '-' :: rest => scanNumber? true rest
    | c :: rest => if Text.isDigit c then scanNumber? false (c :: rest) else none
    | [] => none

/-- The items of an array, at least one, up to the closing bracket. -/
def scanItems? : Nat → List Char → Option (List Json × List Char)
  | 0, _ => none
  | fuel + 1, cs =>
    match scanValue? fuel cs with
    | none => none
    | some (item, rest) =>
      match skipBlanks rest with
      | ',' :: rest => (scanItems? fuel rest).map fun (items, rest) => (item :: items, rest)
      | ']' :: rest => some ([item], rest)
      | _ => none

/-- The members of an object, at least one, up to the closing brace. -/
def scanMembers? : Nat → List Char → Option (List (String × Json) × List Char)
  | 0, _ => none
  | fuel + 1, cs =>
    match skipBlanks cs with
    | '"' :: rest =>
      match scanString? (rest.length + 1) rest with
      | none => none
      | some name =>
        match skipBlanks name.rest with
        | ':' :: rest =>
          match scanValue? fuel rest with
          | none => none
          | some (value, rest) =>
            match skipBlanks rest with
            | ',' :: rest =>
              (scanMembers? fuel rest).map fun (members, rest) =>
                (member name.chars value :: members, rest)
            | '\x7d' :: rest => some ([member name.chars value], rest)
            | _ => none
        | _ => none
    | _ => none

end

/-- The value of a whole text.  Two steps per character are enough. -/
def ofChars? (cs : List Char) : Option Json :=
  match scanValue? (2 * cs.length + 2) cs with
  | some (j, rest) => if (skipBlanks rest).isEmpty then some j else none
  | none => none

/-- The value of a whole text. -/
def ofText? (s : String) : Option Json :=
  ofChars? s.toList

end LogWatch.Json
