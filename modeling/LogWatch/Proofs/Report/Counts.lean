import LogWatch.Proofs.Dictionary
import LogWatch.Report.Frequency
import Mathlib.Algebra.GroupWithZero.Nat
import Mathlib.Algebra.Order.BigOperators.Group.List

/-!
# Counts

Counts stop at the greatest number of 64 bits, and still it does not matter in which order labels are
counted.

* `addCounts_toNat`, `addCounts_right_comm` — the sum of two counts;
* `FrequencyTable.count_add` — the counts after a label has been counted;
* `FrequencyTable.add_right_comm` — labels are counted in any order;
* `FrequencyTable.labels`, `FrequencyTable.total` — what has been counted, and the sum of all counts;
* `FrequencyTable.IsOrdered` — the order of the labels, under which sums and numbers can be told.
-/

namespace LogWatch.Report

/-! ## Sums that stop -/

/-- The greatest count. -/
def greatestCount : Nat :=
  0xffffffffffffffff

theorem addCounts_toNat (a b : UInt64) : (addCounts a b).toNat = min (a.toNat + b.toNat) greatestCount := by
  have ha := a.toNat_lt
  have hb := b.toNat_lt
  rw [addCounts, greatestCount]
  split
  · rename_i h
    rw [UInt64.toNat_add]
    omega
  · rename_i h
    rw [UInt64.toNat_ofNat_of_lt' (by decide)]
    omega

/-- Counts can be added in either order, also where the sum stops. -/
theorem addCounts_right_comm (a b c : UInt64) :
    addCounts (addCounts a b) c = addCounts (addCounts a c) b := by
  rw [← UInt64.toNat_inj, addCounts_toNat, addCounts_toNat, addCounts_toNat, addCounts_toNat]
  omega

theorem le_addCounts (a b : UInt64) : a ≤ addCounts a b := by
  have ha := a.toNat_lt
  rw [UInt64.le_iff_toNat_le, addCounts_toNat, greatestCount]
  omega

theorem addCounts_mono {a b : UInt64} (h : a ≤ b) (c : UInt64) : addCounts a c ≤ addCounts b c := by
  rw [UInt64.le_iff_toNat_le] at h ⊢
  rw [addCounts_toNat, addCounts_toNat]
  omega

namespace FrequencyTable

/-! ## Counting in any order -/

/-- Counting a label changes its own count. -/
theorem count_add (t : FrequencyTable) (label other : String) (amount : UInt64) :
    (t.add label amount).count other =
      if other = label then addCounts (t.count label) amount else t.count other := by
  rw [add, count]
  split
  · rename_i heq
    rw [heq, Dictionary.find?_insert_self]
    rfl
  · rename_i hne
    rw [Dictionary.find?_insert_of_ne hne, count]

theorem add_right_comm (t : FrequencyTable) (x y : String) (a b : UInt64) :
    (t.add x a).add y b = (t.add y b).add x a := by
  show mk (Dictionary.insert y (addCounts ((t.add x a).count y) b)
      (Dictionary.insert x (addCounts (t.count x) a) t.counts)) =
    mk (Dictionary.insert x (addCounts ((t.add y b).count x) a)
      (Dictionary.insert y (addCounts (t.count y) b) t.counts))
  rw [count_add, count_add]
  by_cases h : x = y
  · subst h
    rw [if_pos rfl, if_pos rfl, Dictionary.insert_insert, Dictionary.insert_insert,
      addCounts_right_comm]
  · rw [if_neg h, if_neg (Ne.symm h), Dictionary.insert_comm h]

theorem increment_right_comm (t : FrequencyTable) (x y : String) :
    (t.increment x).increment y = (t.increment y).increment x :=
  add_right_comm t x y 1 1

/-! ## Labels and sums -/

/-- The labels that have been counted. -/
def labels (t : FrequencyTable) : List String :=
  t.counts.names

/-- The sum of all counts. -/
def total (t : FrequencyTable) : Nat :=
  (t.counts.map fun p => p.2.toNat).sum

theorem mem_labels_add {t : FrequencyTable} {label other : String} {amount : UInt64} :
    other ∈ (t.add label amount).labels ↔ other = label ∨ other ∈ t.labels :=
  Dictionary.mem_names_insert

theorem length_labels (t : FrequencyTable) : t.labels.length = t.counts.length :=
  List.length_map _

theorem length_labels_add_le (t : FrequencyTable) (label : String) (amount : UInt64) :
    (t.add label amount).labels.length ≤ t.labels.length + 1 := by
  rw [length_labels, length_labels]
  exact Dictionary.length_insert_le label _ t.counts

/-- Counting a label takes nothing from another one. -/
theorem count_le_count_add (t : FrequencyTable) (label other : String) (amount : UInt64) :
    t.count other ≤ (t.add label amount).count other := by
  rw [count_add]
  split
  · rename_i heq
    rw [heq]
    exact le_addCounts ..
  · exact UInt64.le_refl _

/-- No count exceeds the sum of all. -/
theorem count_le_total (t : FrequencyTable) (label : String) : (t.count label).toNat ≤ t.total := by
  rw [count]
  cases hfind : t.counts.find? label with
  | none => exact Nat.zero_le _
  | some n => exact List.le_sum_of_mem (List.mem_map_of_mem (Dictionary.mem_of_find? hfind))

theorem count_of_not_mem {t : FrequencyTable} {label : String} (h : label ∉ t.labels) :
    t.count label = 0 := by
  rw [count, Dictionary.find?_eq_none h, Option.getD_none]

theorem distinct_toNat {t : FrequencyTable} (h : t.labels.length ≤ greatestCount) :
    t.distinct.toNat = t.labels.length := by
  have hlt : t.labels.length < UInt64.size := Nat.lt_succ_of_le h
  rw [distinct, ← length_labels, UInt64.toNat_ofNat_of_lt' hlt]

/-- The labels of a table ascend. -/
def IsOrdered (t : FrequencyTable) : Prop :=
  t.counts.IsAscending

theorem isOrdered_empty : IsOrdered {} :=
  Dictionary.isAscending_nil

namespace IsOrdered

variable {t : FrequencyTable} (h : t.IsOrdered)

include h

theorem add (label : String) (amount : UInt64) : (t.add label amount).IsOrdered :=
  h.insert label _

theorem nodup_labels : t.labels.Nodup :=
  h.nodup_names

/-- Counting a label adds to the sum of all counts what it adds to its own count. -/
theorem total_add (label : String) (amount : UInt64) :
    (t.add label amount).total + (t.count label).toNat =
      t.total + (addCounts (t.count label) amount).toNat := by
  have hsum := h.sum_insert UInt64.toNat label (addCounts (t.count label) amount)
  have hcount : ((t.counts.find? label).map UInt64.toNat).getD 0 = (t.count label).toNat := by
    rw [count]
    cases t.counts.find? label <;> rfl
  rw [hcount] at hsum
  exact hsum

/-- As long as the greatest count is not reached, each label that is counted counts. -/
theorem total_increment (label : String) (hroom : t.total < greatestCount) :
    (t.increment label).total = t.total + 1 := by
  have htotal : (t.increment label).total + (t.count label).toNat =
      t.total + (addCounts (t.count label) 1).toNat := h.total_add label 1
  have hcount := t.count_le_total label
  rw [addCounts_toNat, UInt64.toNat_one] at htotal
  omega

end IsOrdered

end FrequencyTable

end LogWatch.Report
