/-!
# Random choices

What growing a forest asks of a generator of random numbers: an index, and a value in a range.  Any
generator will do, and what is proved of forests and scores is proved of any choices.
`Choices.mixing`, which spreads the bits of a counter, is the one that runs; the scores that it leads to
differ in their digits from those of another generator with the same seed.
-/

namespace LogWatch.Anomaly

/-- A generator with states of type `σ`. -/
structure Choices (σ : Type) where
  /-- The state that a seed stands for. -/
  start : UInt64 → σ
  /-- An index below a bound that is not zero. -/
  index : σ → Nat → Nat × σ
  /-- A value from a lower bound on and below an upper one. -/
  between : σ → Float → Float → Float × σ

namespace Choices

/-- The next state of a counter. -/
def advance (state : UInt64) : UInt64 :=
  state + 0x9E3779B97F4A7C15

/-- The bits of a counter, spread. -/
def spread (state : UInt64) : UInt64 :=
  let z := (state ^^^ (state >>> 30)) * 0xBF58476D1CE4E5B9
  let z := (z ^^^ (z >>> 27)) * 0x94D049BB133111EB
  z ^^^ (z >>> 31)

/-- A fraction from zero on and below one. -/
def fraction (state : UInt64) : Float :=
  (spread state >>> 11).toFloat / 9007199254740992.0

/-- The generator that spreads the bits of a counter.  It stands in for any seeded generator: its numbers
are its own. -/
def mixing : Choices UInt64 where
  start seed := spread (advance seed)
  index state bound :=
    let state := advance state
    ((spread state).toNat % bound, state)
  between state low high :=
    let state := advance state
    let x := low + fraction state * (high - low)
    (if x < low then low else if x < high then x else low, state)

end Choices

end LogWatch.Anomaly
