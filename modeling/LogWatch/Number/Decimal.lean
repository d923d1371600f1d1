import LogWatch.Number.Binary
import LogWatch.Text.Basic

/-!
# The decimal text of doubles

* `shortest` — the fewest decimal digits that read back as the same double, nearest to it;
* `plain` — those digits in positional notation, however long;
* `scientific` — the same digits with an exponent when the point would be far away;
* `fixed` — a given number of decimals, a half to the even neighbour.
-/

namespace LogWatch.Number

/-- A positive decimal: `digits · 10 ^ exponent`. -/
structure Decimal where
  digits : Nat
  exponent : Int
deriving Repr, DecidableEq

/-! ## Shortest digits -/

/-- The greatest `k` with `10 ^ k ≤ num / den`, for positive `num` and `den`. -/
def floorLog10 (num den : Nat) : Int :=
  if den ≤ num then
    ((Text.decimal (num / den)).length : Int) - 1
  else
    -(below den num (3 * (Nat.log2 den + 1)) : Int)
where
  /-- The least `k` with `den ≤ num · 10 ^ k`, searched upwards. -/
  below (den num : Nat) : Nat → Nat
    | 0 => 0
    | fuel + 1 => if den ≤ num then 0 else below den (num * 10) fuel + 1

/-- Multiples of `10 ^ k` next to `num / den`, below (or equal) and above it, counted in units of
`10 ^ k`. -/
def gridPoint (num den : Nat) (k : Int) : Nat :=
  match k with
  | .ofNat e => num / (den * Nat.pow 10 e)
  | .negSucc e => num * Nat.pow 10 (e + 1) / den

/-- `d · 10 ^ k · den` and `num`, brought to whole numbers by the same factor. -/
def compareScaled (d : Nat) (k : Int) (num den : Nat) : Nat × Nat :=
  match k with
  | .ofNat e => (d * Nat.pow 10 e * den, num)
  | .negSucc e => (d * den, num * Nat.pow 10 (e + 1))

/-- The reals that read as a double: a fraction with its bounds over one denominator, which
belong to the interval when `closed`. -/
structure Interval where
  low : Nat
  middle : Nat
  high : Nat
  den : Nat
  closed : Bool

/-- The interval of reals that round to the double `significand · 2 ^ exponent`.  Below a power of
two the neighbour is half as far. -/
def Interval.of (b : Binary) : Interval :=
  let m := b.significand
  let below := if m = 0x10000000000000 ∧ b.exponent > -1074 then 1 else 2
  let closed : Bool := m % 2 == 0
  match b.exponent - 2 with
  | .ofNat e =>
    ⟨(4 * m - below) <<< e, (4 * m) <<< e, (4 * m + 2) <<< e, 1, closed⟩
  | .negSucc e => ⟨4 * m - below, 4 * m, 4 * m + 2, 1 <<< (e + 1), closed⟩

/-- Does `d · 10 ^ k` lie in the interval? -/
def Interval.holds (i : Interval) (d : Nat) (k : Int) : Bool :=
  let (a, low) := compareScaled d k i.low i.den
  let (b, high) := compareScaled d k i.high i.den
  if i.closed then low ≤ a && b ≤ high else low < a && b < high

/-- Distance of `d · 10 ^ k` from the middle of the interval, in a unit that depends on `k`. -/
def Interval.distance (i : Interval) (d : Nat) (k : Int) : Nat :=
  let (a, middle) := compareScaled d k i.middle i.den
  if a ≤ middle then middle - a else a - middle

/-- The grid point of `n` significant digits in the interval that is nearest to its middle. -/
def Interval.pick (i : Interval) (n : Nat) : Option Decimal :=
  let k := floorLog10 i.middle i.den + 1 - n
  let d := gridPoint i.middle i.den k
  match i.holds d k, i.holds (d + 1) k with
  | true, true =>
    let lower := i.distance d k
    let upper := i.distance (d + 1) k
    if lower < upper ∨ (lower = upper ∧ d % 2 = 0) then some ⟨d, k⟩ else some ⟨d + 1, k⟩
  | true, false => some ⟨d, k⟩
  | false, true => some ⟨d + 1, k⟩
  | false, false => none

/-- The fewest digits that read back as the double, and of these the nearest; seventeen always
suffice. -/
def shortest (b : Binary) : Decimal :=
  if b.significand = 0 then ⟨0, 0⟩
  else
    let i := Interval.of b
    match (List.range 17).findSome? (fun n => i.pick (n + 1)) with
    | some d => d
    | none => ⟨b.significand, 0⟩

/-! ## Notations -/

/-- Digits with a point after the first `point` of them, filled with zeros where needed. -/
def positional (digits : List Char) (point : Int) : List Char :=
  if point ≤ 0 then
    '0' :: '.' :: (List.replicate (-point).toNat '0' ++ digits)
  else
    let n := point.toNat
    if digits.length ≤ n then digits ++ List.replicate (n - digits.length) '0'
    else digits.take n ++ '.' :: digits.drop n

/-- The sign and the digits of a finite double, with the place of its point. -/
def signedDigits (b : Binary) : List Char × List Char × Int :=
  let d := shortest b
  let digits := (Text.decimal d.digits).toList
  let kept := (digits.reverse.dropWhile (· == '0')).reverse
  let kept := if kept.isEmpty then ['0'] else kept
  (if b.negative then ['-'] else [], kept, (digits.length : Int) + d.exponent)

/-- Shortest positional notation: no exponent, no point in whole numbers, `-0` for the negative
zero, and the words `inf`, `-inf` and `NaN`. -/
def plain (x : Float) : String :=
  match magnitude x with
  | .undefined => "NaN"
  | .infinite negative => if negative then "-inf" else "inf"
  | .finite b =>
    if b.significand = 0 then (if b.negative then "-0" else "0")
    else
      let (sign, digits, point) := signedDigits b
      String.ofList (sign ++ positional digits point)

/-- Shortest notation that always shows a point or an exponent: positional from `1e-5` up to below
`1e16`, otherwise with an exponent. -/
def scientific (b : Binary) : String :=
  if b.significand = 0 then (if b.negative then "-0.0" else "0.0")
  else
    let (sign, digits, point) := signedDigits b
    let body :=
      if 0 < point ∧ point ≤ 16 then
        let text := positional digits point
        if text.contains '.' then text else text ++ ['.', '0']
      else if -5 < point ∧ point ≤ 0 then positional digits point
      else
        let first := digits.take 1
        let more := digits.drop 1
        let mantissa := if more.isEmpty then first else first ++ '.' :: more
        mantissa ++ 'e' :: (toString (point - 1)).toList
    String.ofList (sign ++ body)

/-- A given number of decimals, rounded to nearest with a half going to the even neighbour. -/
def fixed (places : Nat) (x : Float) : String :=
  match magnitude x with
  | .undefined => "NaN"
  | .infinite negative => if negative then "-inf" else "inf"
  | .finite b =>
    let (num, den) := b.fraction
    let scaled := roundDiv (num * Nat.pow 10 places) den
    let digits := (Text.padded (places + 1) scaled).toList
    let whole := digits.take (digits.length - places)
    let decimals := digits.drop (digits.length - places)
    let body := if places = 0 then whole else whole ++ '.' :: decimals
    String.ofList ((if b.negative then ['-'] else []) ++ body)

end LogWatch.Number
