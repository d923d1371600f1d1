import LogWatch.Anomaly.Choices
import LogWatch.Number.Binary

/-!
# Isolation forests

A tree splits rows of numbers at random until each stands alone.  Rows that stand apart from the others
do so after few splits, so a short path from the root means an anomaly.

* `Tree.grow?` — a tree, unless a row is too short or a column too wide to be split;
* `Tree.pathLength` — how far a row goes, with what a leaf of several rows would have added;
* `Forest.fit?`, `Forest.score` — many trees, each on a sample of the rows, and the score of a row.
-/

namespace LogWatch.Anomaly

/-- A row of numbers. -/
abbrev Row := List Float

/-- A tree of splits.  A leaf knows how many rows ended there. -/
inductive Tree where
  | leaf (size : Nat)
  | split (feature : Nat) (value : Float) (left right : Tree)

/-! ## Columns -/

/-- A column that varies: its place and its bounds. -/
structure Column where
  feature : Nat
  low : Float
  high : Float

/-- The least and the greatest value of a column, undefined ones apart; infinitely far the wrong way
round where there is none. -/
def bounds (values : List Float) : Float × Float :=
  values.foldl
    (fun (low, high) x => (if x < low then x else low, if high < x then x else high))
    (1.0 / 0.0, -1.0 / 0.0)

/-- The values of a column, if every row has one. -/
def column? (rows : List Row) (feature : Nat) : Option (List Float) :=
  rows.mapM fun row => row[feature]?

/-- The columns that vary, if every row is long enough. -/
def varying? (rows : List Row) (width : Nat) : Option (List Column) := do
  let columns ← (List.range width).mapM fun feature => do
    let (low, high) := bounds (← column? rows feature)
    return Column.mk feature low high
  return columns.filter fun c => c.low < c.high

/-! ## Trees -/

namespace Tree

/-- Does a row belong to the left of a split? -/
def goesLeft (feature : Nat) (value : Float) (row : Row) : Bool :=
  row.getD feature 0.0 < value

/-- A tree of at most the given height.  The choices are the column to split, among those that vary,
and the value to split it at. -/
def grow? {σ : Type} (choices : Choices σ) : Nat → List Row → σ → Option (Tree × σ)
  | 0, rows, s => some (.leaf rows.length, s)
  | height + 1, rows, s =>
    match rows with
    | [] => some (.leaf 0, s)
    | [_] => some (.leaf 1, s)
    | first :: _ =>
      match varying? rows first.length with
      | none => none
      | some columns =>
        let (i, s) := choices.index s columns.length
        match columns[i]? with
        | none => some (.leaf rows.length, s)
        | some c =>
          if Number.isFinite (c.high - c.low) then
            let (value, s) := choices.between s c.low c.high
            let (left, right) := rows.partition (goesLeft c.feature value)
            match grow? choices height left s with
            | none => none
            | some (l, s) =>
              match grow? choices height right s with
              | none => none
              | some (r, s) => some (.split c.feature value l r, s)
          else none

end Tree

/-- The constant of Euler, to ten places. -/
def eulerGamma : Float :=
  0.5772156649

/-- The mean number of splits that set one of `n` rows apart. -/
def averagePathLength (n : Nat) : Float :=
  if n ≤ 1 then 0.0
  else if n = 2 then 1.0
  else
    let x := Float.ofNat n
    2.0 * ((x - 1.0).log + eulerGamma) - 2.0 * (x - 1.0) / x

namespace Tree

/-- How far a row goes from a place `depth` splits below the root. -/
def pathLength (row : Row) (depth : Nat) : Tree → Float
  | .leaf size => Float.ofNat depth + averagePathLength size
  | .split feature value left right =>
    if goesLeft feature value row then pathLength row (depth + 1) left
    else pathLength row (depth + 1) right

end Tree

/-! ## Forests -/

/-- Some rows taken at random, each at most once. -/
def takeSample {σ : Type} (choices : Choices σ) : Nat → List Row → σ → List Row × σ
  | 0, _, s => ([], s)
  | n + 1, rows, s =>
    let (i, s) := choices.index s rows.length
    match rows[i]? with
    | none => ([], s)
    | some row =>
      let (more, s) := takeSample choices n (rows.eraseIdx i) s
      (row :: more, s)

/-- Trees and the size of the samples that they were grown on. -/
structure Forest where
  trees : List Tree
  sampleSize : Nat

namespace Forest

/-- The height at which a tree on a sample of a size stops: the least whose power of two reaches the
size, at least one. -/
def heightLimit (sampleSize : Nat) : Nat :=
  let h := Nat.log2 sampleSize
  max (if 1 <<< h < sampleSize then h + 1 else h) 1

/-- Trees on samples of some rows, with seeds in a row. -/
def growTrees? {σ : Type} (choices : Choices σ) (rows : List Row) (sampleSize : Nat)
    (seed : UInt64) : Nat → Option (List Tree)
  | 0 => some []
  | n + 1 =>
    let (sample, s) := takeSample choices sampleSize rows (choices.start seed)
    match Tree.grow? choices (heightLimit sampleSize) sample s with
    | none => none
    | some (tree, _) => (growTrees? choices rows sampleSize (seed + 1) n).map (tree :: ·)

/-- A forest of at least one tree.  A sample has no more rows than there are. -/
def fit? {σ : Type} (choices : Choices σ) (rows : List Row) (trees sampleSize : Nat)
    (seed : UInt64) : Option Forest :=
  let sampleSize := max (min sampleSize rows.length) 1
  (growTrees? choices rows sampleSize seed (max trees 1)).map fun ts => ⟨ts, sampleSize⟩

/-- The score of a row: near one where its paths are short, and a half where nothing can be told. -/
def score (f : Forest) (row : Row) : Float :=
  let lengths := f.trees.map (Tree.pathLength row 0)
  let mean := lengths.foldl (· + ·) 0.0 / Float.ofNat f.trees.length
  let c := averagePathLength f.sampleSize
  if c == 0.0 then 0.5 else Float.pow 2.0 (-mean / c)

end Forest

/-- The scores of some rows in the forest that is grown on them. -/
def forestScores? {σ : Type} (choices : Choices σ) (trees sampleSize : Nat) (seed : UInt64)
    (rows : List Row) : Option (List Float) :=
  (Forest.fit? choices rows trees sampleSize seed).map fun f => rows.map f.score

end LogWatch.Anomaly
