import LogWatch.Dictionary
import Mathlib.Algebra.GroupWithZero.Nat
import Mathlib.Data.String.Basic

/-!
# Dictionaries under insertion

Insertions of different names can be made in either order, and of several insertions of one name the last
one counts.  A dictionary that is built from nothing stays in ascending order.

* `insert_insert`, `insert_comm` — insertions one after the other;
* `IsAscending`, `IsAscending.insert` — the order of the names;
* `mem_names_insert` — the names after an insertion;
* `IsAscending.sum_insert` — a sum over the values after an insertion.
-/

namespace LogWatch.Dictionary

variable {α : Type}

/-! ## Insertions one after the other -/

/-- Of two insertions of one name the last one counts. -/
theorem insert_insert (name : String) (a b : α) (d : Dictionary α) :
    insert name a (insert name b d) = insert name a d := by
  induction d with
  | nil => simp [insert]
  | cons p d ih =>
    obtain ⟨n, c⟩ := p
    by_cases heq : name = n
    · simp [insert, heq]
    · by_cases hlt : name < n
      · simp [insert, heq, hlt]
      · simp [insert, heq, hlt, ih]

/-- A lesser name is put before a greater one, whichever comes first. -/
theorem insert_comm_of_lt {x y : String} (h : x < y) (a b : α) (d : Dictionary α) :
    insert x a (insert y b d) = insert y b (insert x a d) := by
  have hne : y ≠ x := ne_of_gt h
  have hnot : ¬ y < x := not_lt_of_gt h
  induction d with
  | nil => simp [insert, hne, hne.symm, h, hnot]
  | cons p d ih =>
    obtain ⟨n, c⟩ := p
    rcases lt_trichotomy y n with hy | rfl | hy
    · have hx : x < n := h.trans hy
      simp [insert, hne, hne.symm, h, hnot, ne_of_lt hy, hy, ne_of_lt hx, hx]
    · simp [insert, hne, hne.symm, h, hnot]
    · have hyn : ¬ y < n := not_lt_of_gt hy
      rcases lt_trichotomy x n with hx | rfl | hx
      · simp [insert, hne, hnot, ne_of_gt hy, hyn, ne_of_lt hx, hx]
      · simp [insert, hne, hnot]
      · have hxn : ¬ x < n := not_lt_of_gt hx
        simp [insert, ne_of_gt hy, hyn, ne_of_gt hx, hxn, ih]

/-- Insertions of different names can be made in either order. -/
theorem insert_comm {x y : String} (h : x ≠ y) (a b : α) (d : Dictionary α) :
    insert x a (insert y b d) = insert y b (insert x a d) := by
  rcases lt_or_gt_of_ne h with hlt | hgt
  · exact insert_comm_of_lt hlt a b d
  · exact (insert_comm_of_lt hgt b a d).symm

/-! ## Order -/

/-- The names ascend. -/
def IsAscending (d : Dictionary α) : Prop :=
  d.Pairwise fun p q => p.1 < q.1

theorem isAscending_nil : IsAscending ([] : Dictionary α) :=
  List.Pairwise.nil

/-- An insertion adds its name. -/
theorem mem_names_insert {x name : String} {a : α} {d : Dictionary α} :
    x ∈ (insert name a d).names ↔ x = name ∨ x ∈ d.names := by
  induction d with
  | nil => simp [insert, names]
  | cons p d ih =>
    obtain ⟨n, b⟩ := p
    rw [insert]
    by_cases heq : name = n
    · simp [names, heq]
    · by_cases hlt : name < n
      · simp [names, heq, hlt]
      · rw [if_neg heq, if_neg hlt]
        simp only [names, List.map_cons, List.mem_cons] at ih ⊢
        rw [ih]
        exact or_left_comm

theorem length_insert_le (name : String) (a : α) (d : Dictionary α) :
    (insert name a d).length ≤ d.length + 1 := by
  induction d with
  | nil => exact Nat.le_refl _
  | cons p d ih =>
    rw [insert]
    split
    · exact Nat.le_succ _
    · split
      · exact Nat.le_refl _
      · exact Nat.succ_le_succ ih

/-- A name that is not there stands for nothing. -/
theorem find?_eq_none {d : Dictionary α} {x : String} (hx : x ∉ d.names) : d.find? x = none := by
  cases hfind : d.find? x with
  | none => rfl
  | some a => exact absurd (List.mem_map_of_mem (mem_of_find? hfind)) hx

namespace IsAscending

variable {d : Dictionary α}

theorem lt_of_mem_names {p : String × α} (h : IsAscending (p :: d)) {x : String} (hx : x ∈ d.names) :
    p.1 < x := by
  obtain ⟨q, hq, rfl⟩ := List.mem_map.1 hx
  exact List.rel_of_pairwise_cons h hq

theorem nodup_names (h : IsAscending d) : d.names.Nodup := by
  rw [names, List.Nodup, List.pairwise_map]
  exact List.Pairwise.imp (fun hlt => ne_of_lt hlt) h

/-- Insertions keep the order. -/
theorem insert (h : IsAscending d) (name : String) (a : α) : IsAscending (d.insert name a) := by
  induction d with
  | nil => exact List.pairwise_singleton _ _
  | cons p d ih =>
    obtain ⟨n, b⟩ := p
    rw [Dictionary.insert]
    split
    · rename_i heq
      subst heq
      exact List.pairwise_cons.2 (List.pairwise_cons.1 h)
    · rename_i hne
      split
      · rename_i hlt
        refine List.pairwise_cons.2 ⟨?_, h⟩
        rintro q (_ | ⟨_, hq⟩)
        · exact hlt
        · exact hlt.trans (List.rel_of_pairwise_cons h hq)
      · rename_i hnot
        have hgt : n < name := lt_of_le_of_ne (not_lt.1 hnot) (Ne.symm hne)
        refine List.pairwise_cons.2 ⟨?_, ih h.of_cons⟩
        intro q hq
        rcases mem_names_insert.1 (List.mem_map_of_mem hq) with hname | hmem
        · exact hname ▸ hgt
        · exact h.lt_of_mem_names hmem

/-- In a sum over the values an insertion puts the new value in the place of the old one. -/
theorem sum_insert (h : IsAscending d) (f : α → Nat) (name : String) (a : α) :
    ((d.insert name a).map fun p => f p.2).sum + ((d.find? name).map f).getD 0 =
      (d.map fun p => f p.2).sum + f a := by
  induction d with
  | nil => simp [Dictionary.insert, find?]
  | cons p d ih =>
    obtain ⟨n, b⟩ := p
    rw [Dictionary.insert, find?]
    by_cases heq : name = n
    · subst heq
      simp only [if_pos, List.map_cons, List.sum_cons, Option.map_some, Option.getD_some]
      omega
    · rw [if_neg heq, if_neg (Ne.symm heq)]
      by_cases hlt : name < n
      · have hnone : find? name d = none :=
          find?_eq_none fun hmem => lt_asymm hlt (h.lt_of_mem_names hmem)
        rw [if_pos hlt, hnone]
        simp only [List.map_cons, List.sum_cons, Option.map_none, Option.getD_none]
        omega
      · have hrest := ih h.of_cons
        rw [if_neg hlt]
        simp only [List.map_cons, List.sum_cons]
        omega

end IsAscending

end LogWatch.Dictionary
