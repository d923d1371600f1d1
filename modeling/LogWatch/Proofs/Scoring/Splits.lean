import LogWatch.Proofs.Outcome
import LogWatch.Proofs.Scoring.Observation
import Mathlib.Algebra.GroupWithZero.Nat

/-!
# What a tree of splits knows of its rows

A tree is grown by cutting rows in two and is asked by following one row down, each with its own
comparisons.  They agree: every leaf has the size of the rows that are led to it.  Nothing is assumed of the
values, which may be undefined, nor of the choices of the generator.

* `Tree.depth`, `Tree.leafSizes`, `Tree.features` — a tree as a whole;
* `Tree.route`, `Tree.sizeAt?` — the turns that a row takes, and the size of the leaf that turns end in;
* `varying?_eq_some` — rows of one length have their columns;
* `Tree.growWith` — growth with a generator that may refuse a range, of which `Tree.grow?` is a case;
* `Tree.Accounts` — a tree that accounts for some rows;
* `Tree.Refused` — a range of some of the rows that is refused;
* `Tree.accounts_of_growWith`, `Tree.refused_of_growWith` — what is grown accounts for its rows, and only a
  refused range keeps a tree from growing;
* `leaves_count_their_rows` — both, and the rows of an observation are of one length.
-/

namespace LogWatch.Anomaly

/-! ## Columns -/

/-- Rows of one length. -/
def Rectangular (width : Nat) (rows : List Row) : Prop :=
  ∀ row ∈ rows, row.length = width

theorem Rectangular.mono {width : Nat} {rows part : List Row} (h : Rectangular width rows)
    (hpart : part ⊆ rows) : Rectangular width part := by
  intro row hrow
  exact h row (hpart hrow)

theorem Rectangular.filter {width : Nat} {rows : List Row} (h : Rectangular width rows)
    (p : Row → Bool) : Rectangular width (rows.filter p) :=
  h.mono (List.filter_subset_self _)

/-- The column of a feature, for rows that have it. -/
def columnOf (rows : List Row) (feature : Nat) : Column where
  feature := feature
  low := (bounds (rows.map fun row => row.getD feature 0.0)).1
  high := (bounds (rows.map fun row => row.getD feature 0.0)).2

theorem column?_eq_some {width feature : Nat} {rows : List Row} (hrows : Rectangular width rows)
    (hfeature : feature < width) :
    column? rows feature = some (rows.map fun row => row.getD feature 0.0) := by
  unfold column?
  apply mapM_eq_some_map
  intro row hrow
  have hlength : feature < row.length := by rwa [hrows row hrow]
  simp [hlength]

/-- Rows of one length have their columns. -/
theorem varying?_eq_some {width : Nat} {rows : List Row} (hrows : Rectangular width rows) :
    varying? rows width =
      some (((List.range width).map (columnOf rows)).filter fun c => c.low < c.high) := by
  unfold varying?
  rw [mapM_eq_some_map (g := columnOf rows)]
  · rfl
  · intro feature hfeature
    rw [column?_eq_some hrows (List.mem_range.1 hfeature)]
    rfl

namespace Tree

/-! ## Leaves and turns -/

/-- The most splits on the way to a leaf. -/
def depth : Tree → Nat
  | .leaf _ => 0
  | .split _ _ left right => max left.depth right.depth + 1

/-- The sizes of the leaves, from left to right. -/
def leafSizes : Tree → List Nat
  | .leaf size => [size]
  | .split _ _ left right => left.leafSizes ++ right.leafSizes

/-- The columns that the splits ask for. -/
def features : Tree → List Nat
  | .leaf _ => []
  | .split feature _ left right => feature :: (left.features ++ right.features)

/-- The turns that a row takes on its way to a leaf: `true` is to the left. -/
def route (row : Row) : Tree → List Bool
  | .leaf _ => []
  | .split feature value left right =>
    if goesLeft feature value row then true :: route row left else false :: route row right

/-- The size of the leaf that turns end in, if they do. -/
def sizeAt? : Tree → List Bool → Option Nat
  | .leaf size, [] => some size
  | .leaf _, _ :: _ => none
  | .split .., [] => none
  | .split _ _ left _, true :: turns => left.sizeAt? turns
  | .split _ _ _ right, false :: turns => right.sizeAt? turns

/-- The length of the path of a row is read off the leaf that its turns end in. -/
theorem pathLength_eq_of_route (row : Row) (start : Nat) (tree : Tree) :
    ∃ size, tree.sizeAt? (tree.route row) = some size ∧
      tree.pathLength row start =
        Float.ofNat (start + (tree.route row).length) + averagePathLength size := by
  induction tree generalizing start with
  | leaf size => exact ⟨size, rfl, rfl⟩
  | split feature value left right ihleft ihright =>
    unfold route pathLength
    by_cases hgoes : goesLeft feature value row = true
    · obtain ⟨size, hsize, hpath⟩ := ihleft (start + 1)
      refine ⟨size, ?_, ?_⟩
      · simpa [hgoes, sizeAt?] using hsize
      · simp only [hgoes, if_true, hpath, List.length_cons]
        congr 2
        omega
    · obtain ⟨size, hsize, hpath⟩ := ihright (start + 1)
      refine ⟨size, ?_, ?_⟩
      · simpa [hgoes, sizeAt?] using hsize
      · simp only [if_neg hgoes, hpath, List.length_cons]
        congr 2
        omega

/-! ## Growth -/

section Growth

variable {σ : Type} (admits : Float → Float → Bool) (choices : Choices σ)

/-- Growth with a generator that refuses the ranges that are not admitted. -/
def growWith : Nat → List Row → σ → Option (Tree × σ)
  | 0, rows, s => some (.leaf rows.length, s)
  | height + 1, rows, s =>
    match rows with
    | [] => some (.leaf 0, s)
    | [_] => some (.leaf 1, s)
    | first :: _ =>
      match varying? rows first.length with
      | none => none
      | some columns =>
        let (i, s) := choices.index s columns.length
        match columns[i]? with
        | none => some (.leaf rows.length, s)
        | some c =>
          if admits c.low c.high then
            let (value, s) := choices.between s c.low c.high
            let (left, right) := rows.partition (goesLeft c.feature value)
            match growWith height left s with
            | none => none
            | some (l, s) =>
              match growWith height right s with
              | none => none
              | some (r, s) => some (.split c.feature value l r, s)
          else none

/-- A range is finite when the difference of its bounds is. -/
def isFiniteRange (low high : Float) : Bool :=
  Number.isFinite (high - low)

theorem grow?_eq_growWith (height : Nat) (rows : List Row) (s : σ) :
    grow? choices height rows s = growWith isFiniteRange choices height rows s := by
  induction height generalizing rows s with
  | zero => rfl
  | succ height ih =>
    unfold grow? growWith
    simp only [ih]
    rfl

/-- Two trees under a split, the right one grown after the left one. -/
def growBoth (height : Nat) (c : Column) (value : Float) (rows : List Row) (s : σ) :
    Option (Tree × σ) :=
  match growWith admits choices height (rows.filter (goesLeft c.feature value)) s with
  | none => none
  | some (l, s) =>
    match growWith admits choices height (rows.filter (!goesLeft c.feature value ·)) s with
    | none => none
    | some (r, s) => some (.split c.feature value l r, s)

/-- What growth can do with rows of one length: it stops with a leaf, a column that varies has a range which is
refused, or it goes on at either side of a value of such a column. -/
inductive GrowsInto (width height : Nat) (rows : List Row) : Option (Tree × σ) → Prop
  | leaf (s : σ) : GrowsInto width height rows (some (.leaf rows.length, s))
  | refused (feature : Nat) : feature < width →
      (columnOf rows feature).low < (columnOf rows feature).high →
      admits (columnOf rows feature).low (columnOf rows feature).high = false →
      GrowsInto width height rows none
  | split (feature : Nat) (value : Float) (s : σ) : feature < width →
      GrowsInto width height rows
        (growBoth admits choices height (columnOf rows feature) value rows s)

theorem growsInto_growWith {width : Nat} {rows : List Row} (hrows : Rectangular width rows)
    (height : Nat) (s : σ) :
    GrowsInto admits choices width height rows (growWith admits choices (height + 1) rows s) := by
  unfold growWith
  dsimp only
  split
  · exact .leaf s
  · exact .leaf s
  · rename_i first others _
    have hfirst : first.length = width := hrows first (List.mem_cons_self ..)
    rw [hfirst, varying?_eq_some hrows]
    dsimp only
    split
    · exact .leaf _
    · rename_i c hc
      obtain ⟨hmem, hvaries⟩ := List.mem_filter.1 (List.mem_of_getElem? hc)
      obtain ⟨feature, hfeature, rfl⟩ := List.mem_map.1 hmem
      rw [List.mem_range] at hfeature
      split
      · rw [List.partition_eq_filter_filter]
        exact .split feature _ _ hfeature
      · rename_i hrefused
        exact .refused feature hfeature (by simpa using hvaries) (by simpa using hrefused)

/-- A range is refused: that of a column which varies in some of the rows. -/
def Refused (width : Nat) (rows : List Row) : Prop :=
  ∃ part ⊆ rows, ∃ feature < width,
    (columnOf part feature).low < (columnOf part feature).high ∧
      admits (columnOf part feature).low (columnOf part feature).high = false

theorem Refused.mono {admits : Float → Float → Bool} {width : Nat} {rows more : List Row}
    (h : Refused admits width rows) (hmore : rows ⊆ more) : Refused admits width more := by
  obtain ⟨part, hpart, hrefused⟩ := h
  exact ⟨part, List.Subset.trans hpart hmore, hrefused⟩

/-- A tree that accounts for some rows: it is not too high, its leaves have all the rows between them, each
leaf those that are led to it, and no split asks for a column that a row has not. -/
structure Accounts (width height : Nat) (rows : List Row) (tree : Tree) : Prop where
  depth_le : tree.depth ≤ height
  sum_leafSizes : tree.leafSizes.sum = rows.length
  size_eq : ∀ turns size, tree.sizeAt? turns = some size →
    size = rows.countP fun row => tree.route row = turns
  features_lt : ∀ feature ∈ tree.features, feature < width

theorem accounts_leaf (width height : Nat) (rows : List Row) :
    Accounts width height rows (.leaf rows.length) where
  depth_le := Nat.zero_le _
  sum_leafSizes := by simp [leafSizes]
  size_eq turns size hsize := by
    cases turns with
    | nil => simpa [sizeAt?, route] using hsize.symm
    | cons => cases hsize
  features_lt := by simp [features]

/-- Two trees account for the rows on either side of a split. -/
theorem accounts_split {width height feature : Nat} {value : Float} {rows : List Row} {left right : Tree}
    (hfeature : feature < width)
    (hleft : Accounts width height (rows.filter (goesLeft feature value)) left)
    (hright : Accounts width height (rows.filter (!goesLeft feature value ·)) right) :
    Accounts width (height + 1) rows (.split feature value left right) where
  depth_le := by
    have := hleft.depth_le
    have := hright.depth_le
    unfold depth
    omega
  sum_leafSizes := by
    unfold leafSizes
    rw [List.sum_append, hleft.sum_leafSizes, hright.sum_leafSizes]
    exact (List.length_eq_length_filter_add _).symm
  size_eq turns size hsize := by
    cases turns with
    | nil => cases hsize
    | cons turn turns =>
      cases turn with
      | true =>
        rw [hleft.size_eq turns size hsize, List.countP_filter]
        apply List.countP_congr
        intro row _
        by_cases hgoes : goesLeft feature value row = true <;> simp [route, hgoes]
      | false =>
        rw [hright.size_eq turns size hsize, List.countP_filter]
        apply List.countP_congr
        intro row _
        by_cases hgoes : goesLeft feature value row = true <;> simp [route, hgoes]
  features_lt := by
    simp only [features, List.mem_cons, List.mem_append]
    rintro asked (rfl | hasked | hasked)
    · exact hfeature
    · exact hleft.features_lt asked hasked
    · exact hright.features_lt asked hasked

/-- A tree that is grown on rows of one length accounts for them. -/
theorem accounts_of_growWith {width height : Nat} {rows : List Row} {s s' : σ} {tree : Tree}
    (hrows : Rectangular width rows) (h : growWith admits choices height rows s = some (tree, s')) :
    Accounts width height rows tree := by
  induction height generalizing rows s s' tree with
  | zero =>
    cases h
    exact accounts_leaf ..
  | succ height ih =>
    have hgrows := growsInto_growWith admits choices hrows height s
    rw [h] at hgrows
    generalize hresult : some (tree, s') = result at hgrows
    cases hgrows with
    | leaf =>
      cases hresult
      exact accounts_leaf ..
    | refused => cases hresult
    | split feature value s₁ hfeature =>
      unfold growBoth at hresult
      split at hresult
      · cases hresult
      · rename_i l _ hleft
        split at hresult
        · cases hresult
        · rename_i r _ hright
          cases hresult
          exact accounts_split hfeature (ih (hrows.filter _) hleft)
            (ih (hrows.filter _) hright)

/-- Only a refused range keeps a tree from growing on rows of one length. -/
theorem refused_of_growWith {width height : Nat} {rows : List Row} {s : σ}
    (hrows : Rectangular width rows) (h : growWith admits choices height rows s = none) :
    Refused admits width rows := by
  induction height generalizing rows s with
  | zero => cases h
  | succ height ih =>
    have hgrows := growsInto_growWith admits choices hrows height s
    rw [h] at hgrows
    generalize hresult : none = result at hgrows
    cases hgrows with
    | leaf => cases hresult
    | refused feature hfeature hvaries hrefused =>
      exact ⟨rows, List.Subset.refl _, feature, hfeature, hvaries, hrefused⟩
    | split feature value s₁ hfeature =>
      unfold growBoth at hresult
      split at hresult
      · rename_i hleft
        exact (ih (hrows.filter _) hleft).mono (List.filter_subset_self _)
      · split at hresult
        · rename_i hright
          exact (ih (hrows.filter _) hright).mono (List.filter_subset_self _)
        · cases hresult

end Growth

end Tree

/-! ## Samples -/

section Samples

variable {σ : Type} (choices : Choices σ)

theorem takeSample_subset (n : Nat) (rows : List Row) (s : σ) :
    (takeSample choices n rows s).1 ⊆ rows := by
  induction n generalizing rows s with
  | zero => simp [takeSample]
  | succ n ih =>
    unfold takeSample
    dsimp only
    split
    · simp
    · rename_i row hrow
      apply List.cons_subset.2
      constructor
      · exact List.mem_of_getElem? hrow
      · exact List.Subset.trans (ih _ _) (List.eraseIdx_subset ..)

/-- Only a range that is not finite keeps a forest from growing on rows of one length. -/
theorem refused_of_growTrees? {width sampleSize n : Nat} {rows : List Row} {seed : UInt64}
    (hrows : Rectangular width rows)
    (h : Forest.growTrees? choices rows sampleSize seed n = none) :
    Tree.Refused Tree.isFiniteRange width rows := by
  induction n generalizing seed with
  | zero => cases h
  | succ n ih =>
    unfold Forest.growTrees? at h
    dsimp only at h
    have hsample := takeSample_subset choices sampleSize rows (choices.start seed)
    split at h
    · rename_i hgrow
      rw [Tree.grow?_eq_growWith] at hgrow
      exact (Tree.refused_of_growWith _ choices (hrows.mono hsample) hgrow).mono hsample
    · exact ih (Option.map_eq_none_iff.1 h)

theorem refused_of_forestScores? {width trees sampleSize : Nat} {rows : List Row} {seed : UInt64}
    (hrows : Rectangular width rows)
    (h : forestScores? choices trees sampleSize seed rows = none) :
    Tree.Refused Tree.isFiniteRange width rows := by
  unfold forestScores? Forest.fit? at h
  simp only [Option.map_eq_none_iff] at h
  exact refused_of_growTrees? choices hrows h

end Samples

/-! ## The rows of an observation -/

namespace Scorer

variable (s : Scorer) (source : SourceType) (p : HistoryPoint)

/-- How many numbers the rows have that are compared with a new point. -/
def comparedWidth : Nat :=
  (row (s.settings.useTimeData && timeDataSpan ≤ span (s.compared source p)) p).length

theorem rectangular_comparedRows :
    Rectangular (s.comparedWidth source p) (s.comparedRows source p) := by
  intro r hr
  obtain ⟨q, hq, rfl⟩ := List.mem_map.1 hr
  have hlength : q.vector.length = p.vector.length := by
    unfold compared at hq
    simpa using (List.mem_filter.1 hq).2
  unfold comparedWidth row
  split <;> simp [hlength]

/-- The forest is asked for the scores of the compared rows and for nothing else. -/
theorem observeWith_comparedScores? (scores? : UInt64 → List Row → Option (List Float)) (store : Store)
    (time : Time.Instant) (vector : List Float) :
    s.observeWith scores? store source time vector =
      s.observeWith (fun _ _ => comparedScores? scores? s source ⟨time, vector⟩) store source time
        vector :=
  rfl

/-- What is done with rows of different lengths does not matter: an observation has none. -/
theorem observeWith_congr {scores? others? : UInt64 → List Row → Option (List Float)}
    (h : ∀ seed width rows, Rectangular width rows → scores? seed rows = others? seed rows)
    (store : Store) (time : Time.Instant) (vector : List Float) :
    s.observeWith scores? store source time vector = s.observeWith others? store source time vector := by
  have hscores : comparedScores? scores? s source ⟨time, vector⟩ =
      comparedScores? others? s source ⟨time, vector⟩ :=
    h _ _ _ (s.rectangular_comparedRows source ⟨time, vector⟩)
  rw [observeWith_comparedScores?, hscores, ← observeWith_comparedScores?]

/-- Only a range that is not finite keeps an observation from growing its trees. -/
theorem refused_of_unsplittable {σ : Type} (choices : Choices σ) (trees sampleSize : Nat) (store : Store)
    (time : Time.Instant) (vector : List Float)
    (h : (s.observeWith (forestScores? choices trees sampleSize) store source time vector).1 =
      .error .unsplittable) :
    Tree.Refused Tree.isFiniteRange (s.comparedWidth source ⟨time, vector⟩)
      (s.comparedRows source ⟨time, vector⟩) := by
  have hobserves :=
    observes_observeWith (forestScores? choices trees sampleSize) store s source time vector
  generalize s.observeWith _ store source time vector = result at h hobserves
  cases hobserves with
  | insufficient => cases h
  | unsplittable _ hscores =>
    exact refused_of_forestScores? choices (s.rectangular_comparedRows source _) hscores
  | degenerate => cases h
  | unsaved => cases h
  | scored => cases h

end Scorer

/-! ## Leaves and their rows -/

/-- Rows of one length grow a tree whatever the generator chooses, unless it refuses the range of a column that
varies among some of them; one that refuses nothing always lets them.  The tree is no higher than allowed,
its leaves have all the rows between them, the size of a leaf is the number of rows whose path ends there,
and no split asks for a column that a row has not.  The forest grows its trees in this way with a generator
that refuses just the ranges that are not finite, and the rows of an observation are of one length, so that
an observation fails in the forest only at such a range. -/
theorem leaves_count_their_rows {σ : Type} (choices : Choices σ) {width : Nat} {rows : List Row}
    (hrows : Rectangular width rows) (height : Nat) (state : σ) :
    (∀ admits,
      (Tree.growWith admits choices height rows state = none → Tree.Refused admits width rows) ∧
      ∀ tree rest, Tree.growWith admits choices height rows state = some (tree, rest) →
        tree.depth ≤ height ∧ tree.leafSizes.sum = rows.length ∧
        (∀ turns size, tree.sizeAt? turns = some size →
          size = rows.countP fun row => tree.route row = turns) ∧
        (∀ row start, ∃ size, tree.sizeAt? (tree.route row) = some size ∧
          tree.pathLength row start =
            Float.ofNat (start + (tree.route row).length) + averagePathLength size) ∧
        ∀ feature ∈ tree.features, ∀ row ∈ rows, feature < row.length) ∧
    (Tree.growWith (fun _ _ => true) choices height rows state).isSome = true ∧
    Tree.grow? choices height rows state =
      Tree.growWith Tree.isFiniteRange choices height rows state ∧
    ∀ (trees sampleSize : Nat) (store : Store) (s : Scorer) (source : SourceType)
      (time : Time.Instant) (vector : List Float),
      (∀ scores? others? : UInt64 → List Row → Option (List Float),
        (∀ seed width rows, Rectangular width rows → scores? seed rows = others? seed rows) →
        s.observeWith scores? store source time vector =
          s.observeWith others? store source time vector) ∧
      ((s.observeWith (forestScores? choices trees sampleSize) store source time vector).1 =
          .error .unsplittable →
        Tree.Refused Tree.isFiniteRange (s.comparedWidth source ⟨time, vector⟩)
          (s.comparedRows source ⟨time, vector⟩)) := by
  refine ⟨?_, ?_, Tree.grow?_eq_growWith .., ?_⟩
  · intro admits
    constructor
    · exact Tree.refused_of_growWith admits choices hrows
    · intro tree rest h
      have haccounts := Tree.accounts_of_growWith admits choices hrows h
      refine ⟨haccounts.depth_le, haccounts.sum_leafSizes, haccounts.size_eq, ?_, ?_⟩
      · intro row start
        exact Tree.pathLength_eq_of_route row start tree
      · intro feature hfeature row hrow
        rw [hrows row hrow]
        exact haccounts.features_lt feature hfeature
  · by_contra hnone
    rw [Option.not_isSome_iff_eq_none] at hnone
    obtain ⟨_, _, _, _, _, hrefused⟩ := Tree.refused_of_growWith _ choices hrows hnone
    cases hrefused
  · intro trees sampleSize store s source time vector
    constructor
    · intro scores? others? h
      exact s.observeWith_congr source h store time vector
    · exact s.refused_of_unsplittable source choices trees sampleSize store time vector

/-- Four rows of two numbers, two of which are undefined, and the row that is led to the left. -/
theorem leaves_count_their_rows_undefined :
    let rows : List Row := [[0.0 / 0.0, 1.0], [2.0, 0.0 / 0.0], [3.0, 1.0], [3.0, 1.0]]
    Rectangular 2 rows ∧
      ∃ tree rest, Tree.grow? Choices.mixing 2 rows 7 = some (tree, rest) ∧ tree.leafSizes = [1, 3] ∧
        tree.depth ≤ 2 ∧ (rows.countP fun row => tree.route row = [true]) = 1 := by
  intro rows
  have hrows : Rectangular 2 rows := by simp [Rectangular, rows]
  refine ⟨hrows, ?_⟩
  have hsizes : (Tree.grow? Choices.mixing 2 rows 7).map (·.1.leafSizes) = some [1, 3] := by
    decide +kernel
  have hleft : (Tree.grow? Choices.mixing 2 rows 7).map (·.1.sizeAt? [true]) = some (some 1) := by
    decide +kernel
  obtain ⟨hgrown, -, hgrow, -⟩ := leaves_count_their_rows Choices.mixing hrows 2 7
  obtain ⟨⟨tree, rest⟩, htree, hsizes⟩ := Option.map_eq_some_iff.1 hsizes
  rw [htree] at hleft
  obtain ⟨hdepth, -, hcounted, -⟩ := (hgrown Tree.isFiniteRange).2 tree rest (hgrow ▸ htree)
  refine ⟨tree, rest, htree, hsizes, hdepth, ?_⟩
  exact (hcounted [true] 1 (Option.some.inj hleft)).symm

end LogWatch.Anomaly
