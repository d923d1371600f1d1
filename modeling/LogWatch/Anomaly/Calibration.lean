/-!
# Calibration

Raw scores are stretched to 0 to 100 and then moved and scaled so that their mean is 50 and their
sample standard deviation is 10.  Scores that are all alike cannot be calibrated.

The rule is stated for any numbers that have the operations it needs, doubles among them.

* `calibrate?` — the calibrated scores, in the order of the raw ones.
-/

namespace LogWatch.Anomaly

/-- Numbers with the operations that calibration needs. -/
class Arithmetic (α : Type) extends Add α, Sub α, Mul α, Div α where
  ofNat : Nat → α
  sqrt : α → α
  /-- Does a value take part in comparisons? -/
  isDefined : α → Bool
  below : α → α → Bool

/-- Doubles, of which only the undefined one takes no part in comparisons. -/
instance : Arithmetic Float where
  ofNat := Float.ofNat
  sqrt := Float.sqrt
  isDefined x := !x.isNaN
  below x y := x < y

section

variable {α : Type} [Arithmetic α]

/-- The least of some values. -/
def least? (xs : List α) : Option α :=
  xs.foldl (fun least x => match least with
    | none => some x
    | some y => if Arithmetic.below x y then some x else some y) none

/-- The greatest of some values. -/
def greatest? (xs : List α) : Option α :=
  xs.foldl (fun greatest x => match greatest with
    | none => some x
    | some y => if Arithmetic.below y x then some x else some y) none

/-- The sum of some values. -/
def total (xs : List α) : α :=
  xs.foldl (· + ·) (Arithmetic.ofNat 0)

/-- Values between two bounds, stretched to 0 to 100. -/
def stretch (low high : α) (xs : List α) : List α :=
  xs.map fun x => (x - low) / (high - low) * Arithmetic.ofNat 100

/-- The mean of some values. -/
def mean (xs : List α) : α :=
  total xs / Arithmetic.ofNat xs.length

/-- The standard deviation of some values from their mean, as a sample has it. -/
def deviation (xs : List α) : α :=
  let m := mean xs
  Arithmetic.sqrt
    (total (xs.map fun x => (x - m) * (x - m)) /
      (Arithmetic.ofNat xs.length - Arithmetic.ofNat 1))

/-- Values moved and scaled to a mean of 50 and a deviation of 10. -/
def center (m d : α) (xs : List α) : List α :=
  xs.map fun x => Arithmetic.ofNat 10 * (x - m) / d + Arithmetic.ofNat 50

/-- Is a value no less and no more than nothing? -/
def isZero (x : α) : Bool :=
  Arithmetic.isDefined x && !Arithmetic.below x (Arithmetic.ofNat 0) &&
    !Arithmetic.below (Arithmetic.ofNat 0) x

/-- The calibrated scores of at least two that are not all alike. -/
def calibrate? (raw : List α) : Option (List α) :=
  if raw.length < 2 then none
  else
    let defined := raw.filter Arithmetic.isDefined
    match least? defined, greatest? defined with
    | some low, some high =>
      if Arithmetic.below low high then
        let scaled := stretch low high raw
        let d := deviation scaled
        if isZero d then none else some (center (mean scaled) d scaled)
      else none
    | _, _ => none

end

end LogWatch.Anomaly
