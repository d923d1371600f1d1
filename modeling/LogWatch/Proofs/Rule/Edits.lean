import LogWatch.Rule.Suggestion
import Mathlib.Order.Bounds.Basic

/-!
# Edits

A text is turned into another one by edits, each of which inserts, deletes or replaces one character.
The least number of edits is found row by row, from the distances of the beginnings of both texts.

* `Edit`, `Edits` — one edit anywhere in a text, and a number of them;
* `backDistance` — the distance of two texts by their last characters;
* `editDistance_eq` — the rows hold these distances;
* `backDistance_le_of_edits` — an edit changes a distance by one at most;
* `edits_backDistance` — as many edits as the distance says are enough;
* `isLeast_editDistance` — the distance is the least number of edits.
-/

namespace LogWatch.Rule

/-! ## Edits -/

/-- One character is inserted, deleted or replaced. -/
inductive Edit : List Char → List Char → Prop
  | insert (front : List Char) (c : Char) (back : List Char) :
      Edit (front ++ back) (front ++ c :: back)
  | delete (front : List Char) (c : Char) (back : List Char) :
      Edit (front ++ c :: back) (front ++ back)
  | replace (front : List Char) (c d : Char) (back : List Char) :
      Edit (front ++ c :: back) (front ++ d :: back)

/-- A text is turned into another one by a number of edits, one after the other. -/
inductive Edits : Nat → List Char → List Char → Prop
  | none (a : List Char) : Edits 0 a a
  | more {n : Nat} {a b c : List Char} (before : Edits n a b) (last : Edit b c) : Edits (n + 1) a c

variable {a b c : List Char} {m n : Nat}

theorem Edit.cons (x : Char) (h : Edit a b) : Edit (x :: a) (x :: b) := by
  cases h with
  | insert front c back => exact .insert (x :: front) c back
  | delete front c back => exact .delete (x :: front) c back
  | replace front c d back => exact .replace (x :: front) c d back

theorem Edit.reverse (h : Edit a b) : Edit a.reverse b.reverse := by
  cases h with
  | insert front c back => simpa using Edit.insert back.reverse c front.reverse
  | delete front c back => simpa using Edit.delete back.reverse c front.reverse
  | replace front c d back => simpa using Edit.replace back.reverse c d front.reverse

theorem Edits.cons (x : Char) (h : Edits n a b) : Edits n (x :: a) (x :: b) := by
  induction h with
  | none a => exact .none (x :: a)
  | more _ hlast ih => exact .more ih (hlast.cons x)

theorem Edits.reverse (h : Edits n a b) : Edits n a.reverse b.reverse := by
  induction h with
  | none a => exact .none a.reverse
  | more _ hlast ih => exact .more ih hlast.reverse

theorem Edits.trans (h : Edits m a b) (h' : Edits n b c) : Edits (m + n) a c := by
  induction h' with
  | none => exact h
  | more _ hlast ih => exact .more (ih h) hlast

theorem Edit.edits (h : Edit a b) : Edits 1 a b :=
  .more (.none a) h

/-! ## Distances by the last characters -/

/-- The distance of two texts in reverse: their last characters are matched, or one of them is set
aside. -/
def backDistance : List Char → List Char → Nat
  | [], b => b.length
  | a, [] => a.length
  | x :: a, y :: b =>
    min (min (backDistance a (y :: b) + 1) (backDistance (x :: a) b + 1))
      (backDistance a b + if x = y then 0 else 1)
termination_by a b => a.length + b.length

@[simp] theorem backDistance_nil_left (b : List Char) : backDistance [] b = b.length := by
  rw [backDistance]

@[simp] theorem backDistance_nil_right (a : List Char) : backDistance a [] = a.length := by
  cases a <;> simp [backDistance]

theorem backDistance_cons_cons (x y : Char) (a b : List Char) :
    backDistance (x :: a) (y :: b) =
      min (min (backDistance a (y :: b) + 1) (backDistance (x :: a) b + 1))
        (backDistance a b + if x = y then 0 else 1) := by
  rw [backDistance]

/-! ## The rows of the table -/

/-- The distances of `a` to `b` with one character more of `rest` each time. -/
def backDistances (a : List Char) : List Char → List Char → List Nat
  | _, [] => []
  | b, c :: rest => backDistance a (c :: b) :: backDistances a (c :: b) rest

theorem nextDistances_eq (c : Char) (a b rest : List Char) :
    nextDistances c rest (backDistance (c :: a) b) (backDistance a b) (backDistances a b rest) =
      backDistances (c :: a) b rest := by
  induction rest generalizing b with
  | nil => rfl
  | cons d rest ih =>
    rw [backDistances, nextDistances, backDistances, ← backDistance_cons_cons, ih]

theorem distanceRow_eq (a b cs : List Char) :
    distanceRow b a.length (backDistance a [] :: backDistances a [] b) cs =
      backDistance (cs.reverse ++ a) [] :: backDistances (cs.reverse ++ a) [] b := by
  induction cs generalizing a with
  | nil => rfl
  | cons c cs ih =>
    have hfirst : a.length + 1 = backDistance (c :: a) [] := by simp
    rw [distanceRow, extendDistances, hfirst, nextDistances_eq, List.reverse_cons,
      List.append_assoc, List.singleton_append, ← ih (c :: a), backDistance_nil_right,
      List.length_cons]

/-- The first row counts the characters of the beginnings. -/
theorem backDistances_nil (b rest : List Char) :
    backDistances [] b rest = List.range' (b.length + 1) rest.length := by
  induction rest generalizing b with
  | nil => rfl
  | cons c rest ih => simp [backDistances, ih, List.range'_succ]

/-- A row ends in the distance to the whole text. -/
theorem getLastD_backDistances (a b rest : List Char) (default : Nat) :
    (backDistance a b :: backDistances a b rest).getLastD default =
      backDistance a (rest.reverse ++ b) := by
  induction rest generalizing b with
  | nil => rfl
  | cons c rest ih => simpa [backDistances] using ih (c :: b)

/-- What is found row by row is the distance of the two texts in reverse. -/
theorem editDistance_eq (a b : List Char) :
    editDistance a b = backDistance a.reverse b.reverse := by
  have hrow : List.range (b.length + 1) = backDistance [] [] :: backDistances [] [] b := by
    rw [backDistances_nil, backDistance_nil_left, List.range_eq_range', List.range'_succ]
    rfl
  rw [editDistance, hrow, ← List.length_nil, distanceRow_eq, getLastD_backDistances,
    List.append_nil, List.append_nil]

/-! ## No fewer edits are enough -/

theorem backDistance_cons_left_le (x : Char) (a b : List Char) :
    backDistance (x :: a) b ≤ backDistance a b + 1 := by
  cases b with
  | nil => simp
  | cons y b =>
    rw [backDistance_cons_cons]
    omega

theorem backDistance_cons_right_le (a : List Char) (y : Char) (b : List Char) :
    backDistance a (y :: b) ≤ backDistance a b + 1 := by
  cases a with
  | nil => simp
  | cons x a =>
    rw [backDistance_cons_cons]
    omega

theorem backDistance_le_cons_right (a : List Char) (y : Char) (b : List Char) :
    backDistance a b ≤ backDistance a (y :: b) + 1 := by
  induction a with
  | nil => simp; omega
  | cons x a ih =>
    have hleft := backDistance_cons_left_le x a b
    rw [backDistance_cons_cons]
    omega

theorem backDistance_replace_le (a : List Char) (c d : Char) (b : List Char) :
    backDistance a (d :: b) ≤ backDistance a (c :: b) + 1 := by
  induction a with
  | nil => simp
  | cons x a ih =>
    rw [backDistance_cons_cons, backDistance_cons_cons]
    split <;> split <;> omega

/-- Texts that are near each other stay so behind one more character. -/
theorem backDistance_cons_le_of_le (h : ∀ a, backDistance a c ≤ backDistance a b + 1) (y : Char)
    (a : List Char) : backDistance a (y :: c) ≤ backDistance a (y :: b) + 1 := by
  induction a with
  | nil => simpa using h []
  | cons x a ih =>
    have hboth := h a
    have hright := h (x :: a)
    rw [backDistance_cons_cons, backDistance_cons_cons]
    omega

/-- An edit changes the distance to any text by one at most. -/
theorem backDistance_le_of_edit (h : Edit b c) (a : List Char) :
    backDistance a c ≤ backDistance a b + 1 := by
  have hbehind : ∀ (front b c : List Char), (∀ a, backDistance a c ≤ backDistance a b + 1) →
      ∀ a, backDistance a (front ++ c) ≤ backDistance a (front ++ b) + 1 := by
    intro front b c hnear
    induction front with
    | nil => exact hnear
    | cons y front ih => exact backDistance_cons_le_of_le ih y
  cases h with
  | insert front c back => exact hbehind front _ _ (backDistance_cons_right_le · c back) a
  | delete front c back => exact hbehind front _ _ (backDistance_le_cons_right · c back) a
  | replace front c d back => exact hbehind front _ _ (backDistance_replace_le · c d back) a

theorem backDistance_self (a : List Char) : backDistance a a = 0 := by
  induction a with
  | nil => exact backDistance_nil_left []
  | cons x a ih => simp [backDistance_cons_cons, ih]

theorem backDistance_le_of_edits (h : Edits n a b) : backDistance a b ≤ n := by
  induction h with
  | none a => exact (backDistance_self a).le
  | more _ hlast ih => exact (backDistance_le_of_edit hlast _).trans (Nat.succ_le_succ ih)

/-! ## So many edits are enough -/

theorem edits_nil_left (b : List Char) : Edits b.length [] b := by
  induction b with
  | nil => exact .none []
  | cons y b ih => exact .more ih (.insert [] y b)

theorem edits_nil_right (a : List Char) : Edits a.length a [] := by
  induction a with
  | nil => exact .none []
  | cons x a ih =>
    rw [List.length_cons, Nat.add_comm]
    exact (Edit.delete [] x a).edits.trans ih

/-- The characters in front are matched by an edit, or by none if they are the same. -/
theorem Edits.cons_cons (x y : Char) (h : Edits n a b) :
    Edits (n + if x = y then 0 else 1) (x :: a) (y :: b) := by
  split
  · rename_i heq
    exact heq ▸ h.cons x
  · exact .more (h.cons x) (.replace [] x y b)

theorem edits_backDistance (a b : List Char) : Edits (backDistance a b) a b := by
  fun_induction backDistance a b with
  | case1 b => exact edits_nil_left b
  | case2 a => exact edits_nil_right a
  | case3 x a y b hdelete hinsert hmatch =>
    have hdeleted : Edits (backDistance a (y :: b) + 1) (x :: a) (y :: b) := by
      rw [Nat.add_comm]
      exact (Edit.delete [] x a).edits.trans hdelete
    have hinserted : Edits (backDistance (x :: a) b + 1) (x :: a) (y :: b) :=
      .more hinsert (.insert [] y b)
    have hfewer := min_rec' (fun n => Edits n (x :: a) (y :: b)) hdeleted hinserted
    exact min_rec' (fun n => Edits n (x :: a) (y :: b)) hfewer (hmatch.cons_cons x y)

/-- The distance of two texts is the least number of edits that turn one into the other. -/
theorem isLeast_editDistance (a b : List Char) : IsLeast {n | Edits n a b} (editDistance a b) := by
  -- The edits of two texts in reverse are those of the texts.
  rw [editDistance_eq]
  constructor
  · simpa using (edits_backDistance a.reverse b.reverse).reverse
  · intro n hn
    exact backDistance_le_of_edits (Edits.reverse hn)

end LogWatch.Rule
