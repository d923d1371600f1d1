import LogWatch.Proofs.Report.Counts
import Mathlib.Algebra.BigOperators.Group.List.Basic
import Mathlib.Data.List.DropRight

/-!
# Tables of charges

A table that has been filled with amounts holds for each label the sum of what was charged to it, cut off
at the greatest count.  As long as all amounts together stay below that, none is cut off, and the table
holds what was charged to it in all.

* `FrequencyTable.ofCharges` — the table of some charges;
* `FrequencyTable.count_ofCharges`, `FrequencyTable.total_ofCharges` — its counts, and their sum;
* `FrequencyTable.ofChanges` — a table that is also cleared from time to time;
* `FrequencyTable.ofChanges_eq_ofCharges` — such a table holds what was charged since it was last cleared.
-/

namespace LogWatch.Report.FrequencyTable

/-! ## Charges -/

/-- An amount that a label is charged with. -/
abbrev Charge := String × UInt64

/-- The table of some charges, made one after the other. -/
def ofCharges (charges : List Charge) : FrequencyTable :=
  charges.foldl (fun t c => t.add c.1 c.2) {}

/-- What a label is charged with. -/
def charged (label : String) (charges : List Charge) : Nat :=
  (charges.map fun c => if c.1 = label then c.2.toNat else 0).sum

/-- What is charged to all labels together. -/
def chargedInAll (charges : List Charge) : Nat :=
  (charges.map fun c => c.2.toNat).sum

@[simp] theorem ofCharges_concat (charges : List Charge) (c : Charge) :
    ofCharges (charges ++ [c]) = (ofCharges charges).add c.1 c.2 := by
  rw [ofCharges, List.foldl_concat, ofCharges]

theorem ofCharges_append (charges more : List Charge) :
    ofCharges (charges ++ more) = more.foldl (fun t c => t.add c.1 c.2) (ofCharges charges) :=
  List.foldl_append

@[simp] theorem charged_append (label : String) (charges more : List Charge) :
    charged label (charges ++ more) = charged label charges + charged label more := by
  rw [charged, List.map_append, List.sum_append, charged, charged]

@[simp] theorem charged_singleton (label : String) (c : Charge) :
    charged label [c] = if c.1 = label then c.2.toNat else 0 :=
  List.sum_singleton

@[simp] theorem chargedInAll_append (charges more : List Charge) :
    chargedInAll (charges ++ more) = chargedInAll charges + chargedInAll more := by
  rw [chargedInAll, List.map_append, List.sum_append, chargedInAll, chargedInAll]

@[simp] theorem chargedInAll_singleton (c : Charge) : chargedInAll [c] = c.2.toNat :=
  List.sum_singleton

/-! ## What a table of charges holds -/

/-- Each count is the sum of what was charged to the label, or the greatest count. -/
theorem count_ofCharges (charges : List Charge) (label : String) :
    ((ofCharges charges).count label).toNat = min (charged label charges) greatestCount := by
  induction charges using List.reverseRecOn with
  | nil => exact (Nat.zero_min greatestCount).symm
  | append_singleton charges c ih =>
    rw [ofCharges_concat, count_add, charged_append, charged_singleton]
    by_cases h : label = c.1
    · rw [if_pos h, if_pos h.symm, ← h, addCounts_toNat, ih]
      omega
    · rw [if_neg h, if_neg (Ne.symm h), ih, Nat.add_zero]

/-- The labels are those that have been charged, also with nothing. -/
theorem mem_labels_ofCharges {charges : List Charge} {label : String} :
    label ∈ (ofCharges charges).labels ↔ label ∈ charges.map Prod.fst := by
  induction charges using List.reverseRecOn with
  | nil => exact Iff.rfl
  | append_singleton charges c ih =>
    rw [ofCharges_concat, mem_labels_add, ih, List.map_append, List.mem_append, List.map_singleton,
      List.mem_singleton, or_comm]

theorem isOrdered_ofCharges (charges : List Charge) : (ofCharges charges).IsOrdered := by
  induction charges using List.reverseRecOn with
  | nil => exact isOrdered_empty
  | append_singleton charges c ih =>
    rw [ofCharges_concat]
    exact ih.add c.1 c.2

/-- While all charges together can be counted, the table holds them all. -/
theorem total_ofCharges {charges : List Charge} (h : chargedInAll charges ≤ greatestCount) :
    (ofCharges charges).total = chargedInAll charges := by
  induction charges using List.reverseRecOn with
  | nil => rfl
  | append_singleton charges c ih =>
    rw [chargedInAll_append, chargedInAll_singleton] at h ⊢
    have hbefore := ih (by omega)
    have hcount := (ofCharges charges).count_le_total c.1
    have htotal := (isOrdered_ofCharges charges).total_add c.1 c.2
    rw [addCounts_toNat] at htotal
    rw [ofCharges_concat]
    omega

/-! ## Tables by their labels and counts -/

theorem IsOrdered.pairwise_labels {t : FrequencyTable} (h : t.IsOrdered) :
    t.labels.Pairwise (· < ·) :=
  List.pairwise_map.2 h

/-- Labels are listed in ascending order, whatever order they were charged in. -/
theorem IsOrdered.labels_eq {t t' : FrequencyTable} (ht : t.IsOrdered) (ht' : t'.IsOrdered)
    (h : ∀ label, label ∈ t.labels ↔ label ∈ t'.labels) : t.labels = t'.labels := by
  have hperm : t.labels.Perm t'.labels :=
    (List.perm_ext_iff_of_nodup ht.nodup_labels ht'.nodup_labels).2 h
  exact hperm.eq_of_pairwise (fun a b _ _ hab hba => absurd hab (lt_asymm hba))
    ht.pairwise_labels ht'.pairwise_labels

/-! ## Changes -/

/-- What can be done to a table. -/
inductive Change where
  | add (label : String) (amount : UInt64)
  | increment (label : String)
  | clear

/-- Does a change take everything out of a table? -/
def Change.isClear : Change → Bool
  | .clear => true
  | _ => false

/-- What a change charges. -/
def Change.charges : Change → List Charge
  | .add label amount => [(label, amount)]
  | .increment label => [(label, 1)]
  | .clear => []

/-- The table after a change. -/
def change (t : FrequencyTable) : Change → FrequencyTable
  | .add label amount => t.add label amount
  | .increment label => t.increment label
  | .clear => t.clear

/-- The table after some changes, made one after the other from nothing. -/
def ofChanges (changes : List Change) : FrequencyTable :=
  changes.foldl change {}

/-- What has been charged since the table was last cleared. -/
def chargesSinceClear (changes : List Change) : List Charge :=
  (changes.rtakeWhile fun c => !c.isClear).flatMap Change.charges

/-- Only what has been charged since the table was last cleared is in it. -/
theorem ofChanges_eq_ofCharges (changes : List Change) :
    ofChanges changes = ofCharges (chargesSinceClear changes) := by
  induction changes using List.reverseRecOn with
  | nil => rfl
  | append_singleton changes c ih =>
    have hlast : ofChanges (changes ++ [c]) = (ofChanges changes).change c := by
      rw [ofChanges, List.foldl_concat, ofChanges]
    rw [hlast, ih, chargesSinceClear, chargesSinceClear]
    cases c with
    | add label amount =>
      rw [List.rtakeWhile_concat_pos _ _ _ rfl, List.flatMap_append, List.flatMap_singleton,
        Change.charges, ofCharges_concat, change]
    | increment label =>
      rw [List.rtakeWhile_concat_pos _ _ _ rfl, List.flatMap_append, List.flatMap_singleton,
        Change.charges, ofCharges_concat, change, increment]
    | clear =>
      rw [List.rtakeWhile_concat_neg _ _ _ (by decide)]
      rfl

end LogWatch.Report.FrequencyTable
