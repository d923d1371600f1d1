import LogWatch.Proofs.Rule.Edits
import Mathlib.Data.List.Induction

/-!
# Distances of texts

The least number of edits is a distance: it is the same both ways, it is nothing between equal texts only,
and no way around is shorter.  Two rows that take turns are enough to find it, each of which is overwritten
in place without being cleared.

* `editDistance_append_singleton` — a distance from those of the texts without their last characters;
* `Rows`, `Rows.fillTo`, `Rows.run` — a row is filled from the row above, then the two are swapped;
* `Rows.Filled.fillCell`, `Rows.filled_fillTo` — what one cell more keeps, and the whole row;
* `Rows.holds_run` — every cell of the row above is a distance, whatever was left in the other row;
* `editDistance_comm`, `editDistance_eq_zero_iff`, `editDistance_triangle` — the laws of a distance;
* `distance_counts_least_edits` — all of it about texts.
-/

namespace LogWatch.Rule

/-! ## The cells of the table -/

theorem editDistance_nil_left (b : List Char) : editDistance [] b = b.length := by
  rw [editDistance_eq, List.reverse_nil, backDistance_nil_left, List.length_reverse]

theorem editDistance_nil_right (a : List Char) : editDistance a [] = a.length := by
  rw [editDistance_eq, List.reverse_nil, backDistance_nil_right, List.length_reverse]

/-- The last characters are deleted, inserted or matched. -/
theorem editDistance_append_singleton (a b : List Char) (c d : Char) :
    editDistance (a ++ [c]) (b ++ [d]) =
      min (min (editDistance a (b ++ [d]) + 1) (editDistance (a ++ [c]) b + 1))
        (editDistance a b + if c = d then 0 else 1) := by
  simp only [editDistance_eq, List.reverse_append, List.reverse_singleton, List.singleton_append,
    backDistance_cons_cons]

/-! ## Two rows in turn -/

/-- Two rows of the table of distances to the beginnings of `b`: one that is read, and one below it that is
overwritten. -/
structure Rows (b : List Char) where
  above : Vector Nat (b.length + 1)
  below : Vector Nat (b.length + 1)

namespace Rows

variable {a b : List Char} {c : Char} {rows : Rows b} {j : Nat}

/-- The cell behind a place of the row below, from the three cells next to it. -/
def fillCell (c : Char) (rows : Rows b) (j : Nat) (hj : j < b.length) : Rows b :=
  { rows with
    below := rows.below.set (j + 1)
      (min (min (rows.above[j + 1] + 1) (rows.below[j] + 1))
        (rows.above[j] + if c = b[j] then 0 else 1)) }

/-- The row below, filled from its first cell up to a place.  So many characters as `index` says are in
front of `c`. -/
def fillTo (index : Nat) (c : Char) (rows : Rows b) : (j : Nat) → j ≤ b.length → Rows b
  | 0, _ => { rows with below := rows.below.set 0 (index + 1) }
  | j + 1, hj => (rows.fillTo index c j (Nat.le_of_succ_le hj)).fillCell c j hj

/-- The rows change places. -/
def swap (rows : Rows b) : Rows b where
  above := rows.below
  below := rows.above

/-- For each character of `a` the row below is filled and becomes the row above. -/
def run (a : List Char) (rows : Rows b) : Rows b :=
  a.zipIdx.foldl (fun rows p => (rows.fillTo p.2 p.1 b.length le_rfl).swap) rows

/-- The first row counts characters.  The other one has anything in it. -/
def start (spare : Vector Nat (b.length + 1)) : Rows b where
  above := Vector.range (b.length + 1)
  below := spare

/-- What is in the last cell when all characters of `a` have had their row. -/
def distance (a b : List Char) (spare : Vector Nat (b.length + 1)) : Nat :=
  ((start spare).run a).above[b.length]

theorem run_append_singleton (a : List Char) (c : Char) (rows : Rows b) :
    rows.run (a ++ [c]) = ((rows.run a).fillTo a.length c b.length le_rfl).swap := by
  simp [run, List.zipIdx_append]

/-- The cells of a row up to a place are the distances of `a` to the beginnings of `b`. -/
def Holds (a : List Char) (j : Nat) (row : Vector Nat (b.length + 1)) : Prop :=
  ∀ k (hk : k < b.length + 1), k ≤ j → row[k] = editDistance a (b.take k)

/-- The row below is filled up to a place: its cells up to there, and the whole row above, are distances. -/
structure Filled (a : List Char) (c : Char) (j : Nat) (rows : Rows b) : Prop where
  above : Holds a b.length rows.above
  below : Holds (a ++ [c]) j rows.below

/-- One cell more is filled.  The ones in front of it, and the row above, stay as they are. -/
theorem Filled.fillCell (h : Filled a c j rows) (hj : j < b.length) :
    Filled a c (j + 1) (rows.fillCell c j hj) where
  above := h.above
  below := by
    intro k hk hle
    rcases Nat.lt_or_eq_of_le hle with hfront | rfl
    · rw [Rows.fillCell, Vector.getElem_set_ne _ _ (by omega)]
      exact h.below k hk (Nat.le_of_lt_succ hfront)
    · -- Of the row below, only the cell in front is read, and that one has been filled.
      rw [Rows.fillCell, Vector.getElem_set_self, h.above (j + 1) hk hj,
        h.above j (Nat.lt_of_succ_lt hk) hj.le, h.below j (Nat.lt_of_succ_lt hk) le_rfl,
        List.take_succ_eq_append_getElem hj, editDistance_append_singleton]

/-- The row below is filled up to any place, whatever was in it. -/
theorem filled_fillTo (h : Holds a b.length rows.above) (hj : j ≤ b.length) :
    Filled a c j (rows.fillTo a.length c j hj) := by
  induction j with
  | zero =>
    refine ⟨h, fun k hk hle => ?_⟩
    obtain rfl := Nat.le_zero.1 hle
    rw [fillTo, Vector.getElem_set_self, List.take_zero, editDistance_nil_right, List.length_append,
      List.length_singleton]
  | succ j ih => exact (ih (Nat.le_of_succ_le hj)).fillCell hj

/-- Every cell of the row above is the distance of what has been read to a beginning. -/
theorem holds_run (a : List Char) (spare : Vector Nat (b.length + 1)) :
    Holds a b.length ((start spare).run a).above := by
  induction a using List.reverseRecOn with
  | nil =>
    intro k hk hle
    rw [editDistance_nil_left, List.length_take_of_le hle]
    exact Vector.getElem_range hk
  | append_singleton a c ih =>
    rw [run_append_singleton]
    exact (filled_fillTo ih le_rfl).below

/-- Two rows that are overwritten find what is found from rows that are made anew. -/
theorem distance_eq (a b : List Char) (spare : Vector Nat (b.length + 1)) :
    distance a b spare = editDistance a b := by
  rw [distance, holds_run a spare b.length (Nat.lt_succ_self _) le_rfl, List.take_length]

end Rows

/-! ## The laws of a distance -/

variable {a b c : List Char} {m n : Nat}

theorem Edit.symm (h : Edit a b) : Edit b a := by
  cases h with
  | insert front c back => exact .delete front c back
  | delete front c back => exact .insert front c back
  | replace front c d back => exact .replace front d c back

/-- Edits are undone from the last one to the first. -/
theorem Edits.symm (h : Edits n a b) : Edits n b a := by
  induction h with
  | none a => exact .none a
  | more _ hlast ih =>
    rw [Nat.add_comm]
    exact hlast.symm.edits.trans ih

theorem edits_zero_iff : Edits 0 a b ↔ a = b := by
  constructor
  · rintro ⟨⟩
    rfl
  · rintro rfl
    exact .none a

theorem edits_editDistance (a b : List Char) : Edits (editDistance a b) a b :=
  (isLeast_editDistance a b).1

theorem editDistance_le_of_edits (h : Edits n a b) : editDistance a b ≤ n :=
  (isLeast_editDistance a b).2 h

theorem editDistance_comm (a b : List Char) : editDistance a b = editDistance b a :=
  Nat.le_antisymm (editDistance_le_of_edits (edits_editDistance b a).symm)
    (editDistance_le_of_edits (edits_editDistance a b).symm)

theorem editDistance_eq_zero_iff : editDistance a b = 0 ↔ a = b := by
  rw [← edits_zero_iff]
  constructor
  · intro h
    exact h ▸ edits_editDistance a b
  · intro h
    exact Nat.le_zero.1 (editDistance_le_of_edits h)

theorem editDistance_triangle (a b c : List Char) :
    editDistance a c ≤ editDistance a b + editDistance b c :=
  editDistance_le_of_edits ((edits_editDistance a b).trans (edits_editDistance b c))

/-- The distance of two texts is the least number of characters to insert, delete or replace that turns
one into the other, and two rows that are overwritten in turn find it, whatever is in the second one at
first.  So it is the same both ways, it is nothing only between equal texts, and no way around is shorter. -/
theorem distance_counts_least_edits (a b : String) :
    IsLeast {n | Edits n a.toList b.toList} (editDistance a.toList b.toList) ∧
    (∀ spare, Rows.distance a.toList b.toList spare = editDistance a.toList b.toList) ∧
    editDistance a.toList b.toList = editDistance b.toList a.toList ∧
    (editDistance a.toList b.toList = 0 ↔ a = b) ∧
    ∀ c : String, editDistance a.toList c.toList ≤
      editDistance a.toList b.toList + editDistance b.toList c.toList := by
  refine ⟨isLeast_editDistance _ _, Rows.distance_eq _ _, editDistance_comm _ _, ?_,
    fun c => editDistance_triangle _ _ _⟩
  rw [editDistance_eq_zero_iff, String.toList_inj]

-- Nothing is seen of the nines that the second row starts with.
example : Rows.distance "kitten".toList "sitting".toList (Vector.replicate _ 9) = 3 := by
  decide +kernel

end LogWatch.Rule
