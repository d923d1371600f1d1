import LogWatch.Text.Basic

/-!
# Numbers read from text

* `readFloat?` — a double: optional sign, then digits with an optional point and exponent, or one
  of the words `inf`, `infinity`, `nan` in any case;
* `readNat?` — an unsigned integer with an optional plus sign, below a bound;
* `readInt?` — a signed integer between two bounds;
* `ofDecimal` — the double nearest to `digits · 10 ^ exponent`.
-/

namespace LogWatch.Number

/-- The double nearest to `digits · 10 ^ exponent`.  Exponents beyond the range of doubles are
settled first, so that no huge power of ten is formed. -/
def ofDecimal (digits : Nat) (exponent : Int) : Float :=
  if digits = 0 then 0.0
  else
    let size : Int := (Text.decimal digits).length
    if exponent + size > 400 then 1.0 / 0.0
    else if exponent + size < -400 then 0.0
    else
      match exponent with
      | .ofNat e => Float.ofScientific digits false e
      | .negSucc e => Float.ofScientific digits true (e + 1)

/-- A number without sign taken from the front of a text. -/
structure Scanned where
  digits : Nat
  exponent : Int
  rest : List Char

/-- Whole digits, a point, decimals: at least one digit on either side of the point. -/
def scanDecimal? (cs : List Char) : Option Scanned :=
  let whole := cs.takeWhile Text.isDigit
  let rest := cs.dropWhile Text.isDigit
  match rest with
  | '.' :: rest =>
    let decimals := rest.takeWhile Text.isDigit
    if whole.isEmpty && decimals.isEmpty then none
    else
      some ⟨Text.decimalValue (whole ++ decimals), -(decimals.length : Int),
        rest.dropWhile Text.isDigit⟩
  | rest => if whole.isEmpty then none else some ⟨Text.decimalValue whole, 0, rest⟩

/-- The exponent after `e` or `E`: digits with an optional sign, and nothing after them. -/
def readExponent? : List Char → Option Int
  | [] => none
  | '+' :: cs => read? cs
  | '-' :: cs => (read? cs).map (- ·)
  | cs => read? cs
where
  /-- A non-empty list of digits. -/
  read? (cs : List Char) : Option Int :=
    if cs.isEmpty || !cs.all Text.isDigit then none else some (Text.decimalValue cs : Nat)

/-- A double without a sign. -/
def readUnsignedFloat? (cs : List Char) : Option Float :=
  let word := String.ofList (cs.map Text.asciiLower)
  if word == "inf" || word == "infinity" then some (1.0 / 0.0)
  else if word == "nan" then some (0.0 / 0.0)
  else
    match scanDecimal? cs with
    | none => none
    | some s =>
      match s.rest with
      | [] => some (ofDecimal s.digits s.exponent)
      | c :: rest =>
        if c = 'e' ∨ c = 'E' then
          (readExponent? rest).map fun e => ofDecimal s.digits (s.exponent + e)
        else none

/-- A double: optional sign, then digits with an optional point and exponent, or a word for an
infinity or the undefined number. -/
def readFloat? : List Char → Option Float
  | '+' :: cs => readUnsignedFloat? cs
  | '-' :: cs => (readUnsignedFloat? cs).map (- ·)
  | cs => readUnsignedFloat? cs

/-- A non-empty list of digits of a base, as a number. -/
def readDigits? (base : Nat) (cs : List Char) : Option Nat :=
  if cs.isEmpty then none
  else
    cs.foldl
      (fun acc c =>
        match acc, Text.hexValue? c with
        | some n, some d => if d < base then some (n * base + d) else none
        | _, _ => none)
      (some 0)

/-- An unsigned integer below `bound`, with an optional plus sign. -/
def readNat? (bound : Nat) : List Char → Option Nat
  | '+' :: cs => below cs
  | cs => below cs
where
  /-- Digits only, and the value below the bound. -/
  below (cs : List Char) : Option Nat :=
    match readDigits? 10 cs with
    | some n => if n < bound then some n else none
    | none => none

/-- A signed integer of 64 bits. -/
def readInt64? : List Char → Option Int
  | '-' :: cs =>
    match readDigits? 10 cs with
    | some n => if n ≤ 0x8000000000000000 then some (-(n : Int)) else none
    | none => none
  | cs => (readNat? 0x8000000000000000 cs).map Int.ofNat

end LogWatch.Number
