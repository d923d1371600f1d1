/-!
# Doubles as exact fractions

A finite double is a significand times a power of two.  This file reads that form off the bits of
a `Float`, so that everything which must be exact about doubles — their decimal text, their
integral part — is computed with natural numbers.
-/

namespace LogWatch.Number

/-- A finite double: `± significand · 2 ^ exponent`. -/
structure Binary where
  negative : Bool
  significand : Nat
  exponent : Int
deriving Repr, DecidableEq

/-- What a double stands for. -/
inductive Magnitude where
  | finite (value : Binary)
  | infinite (negative : Bool)
  | undefined
deriving Repr, DecidableEq

/-- The 64 bits of a double taken apart: a sign, eleven bits of exponent, fifty-two of fraction. -/
def Magnitude.ofBits (bits : Nat) : Magnitude :=
  let negative : Bool := bits >>> 63 % 2 == 1
  let exponent : Nat := bits >>> 52 % 0x800
  let fraction : Nat := bits % 0x10000000000000
  if exponent = 2047 then
    if fraction = 0 then .infinite negative else .undefined
  else if exponent = 0 then .finite ⟨negative, fraction, -1074⟩
  else .finite ⟨negative, fraction + 0x10000000000000, (exponent : Int) - 1075⟩

/-- What a double stands for. -/
def magnitude (x : Float) : Magnitude :=
  Magnitude.ofBits x.toBits.toNat

namespace Binary

/-- The absolute value as a fraction: numerator and denominator, the latter a power of two. -/
def fraction (b : Binary) : Nat × Nat :=
  match b.exponent with
  | .ofNat e => (b.significand <<< e, 1)
  | .negSucc e => (b.significand, 1 <<< (e + 1))

/-- The integral part, toward zero. -/
def truncate (b : Binary) : Int :=
  let (num, den) := b.fraction
  if b.negative then -((num / den : Nat) : Int) else ((num / den : Nat) : Int)

/-- Is the value a whole number? -/
def isWhole (b : Binary) : Bool :=
  let (num, den) := b.fraction
  num % den == 0

end Binary

/-- Neither infinite nor undefined. -/
def isFinite (x : Float) : Bool :=
  match magnitude x with
  | .finite _ => true
  | _ => false

/-- A quotient rounded to the nearest whole number, a half to the even neighbour. -/
def roundDiv (num den : Nat) : Nat :=
  let q := num / den
  let twice := 2 * (num % den)
  if twice < den then q
  else if den < twice then q + 1
  else if q % 2 = 0 then q
  else q + 1

end LogWatch.Number
