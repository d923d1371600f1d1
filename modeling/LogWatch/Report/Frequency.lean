import LogWatch.Dictionary
import LogWatch.Report.Summary

/-!
# Frequency tables

How often each label has been counted.  Counts stop at the greatest number of 64 bits.

* `FrequencyTable.add`, `FrequencyTable.count` — counting;
* `FrequencyTable.top` — the labels with the greatest counts; of equal counts the lesser label comes
  first.
-/

namespace LogWatch.Report

/-- The sum of two counts, or the greatest count where that is exceeded. -/
def addCounts (a b : UInt64) : UInt64 :=
  if a.toNat + b.toNat < 0x10000000000000000 then a + b else UInt64.ofNat 0xffffffffffffffff

/-- Counts by label. -/
structure FrequencyTable where
  counts : Dictionary UInt64 := []

namespace FrequencyTable

/-- The count of a label, nothing if it has not been counted. -/
def count (t : FrequencyTable) (label : String) : UInt64 :=
  (t.counts.find? label).getD 0

/-- The table with a label counted some times more. -/
def add (t : FrequencyTable) (label : String) (amount : UInt64) : FrequencyTable :=
  ⟨t.counts.insert label (addCounts (t.count label) amount)⟩

/-- The table with a label counted once more. -/
def increment (t : FrequencyTable) (label : String) : FrequencyTable :=
  t.add label 1

/-- The number of labels that have been counted. -/
def distinct (t : FrequencyTable) : UInt64 :=
  UInt64.ofNat t.counts.length

/-- Has nothing been counted? -/
def isEmpty (t : FrequencyTable) : Bool :=
  t.counts.isEmpty

/-- The table in which nothing has been counted any more. -/
def clear (_t : FrequencyTable) : FrequencyTable :=
  {}

/-- Does an entry come before or with another one? -/
def precedes (a b : TopEntry) : Bool :=
  b.metric < a.metric || (a.metric == b.metric && !decide (b.label < a.label))

/-- All entries, greatest count first. -/
def ranked (t : FrequencyTable) : List TopEntry :=
  (t.counts.map fun (label, n) => ⟨label, n⟩).mergeSort precedes

/-- The entries with the greatest counts. -/
def top (t : FrequencyTable) (n : Nat) : List TopEntry :=
  t.ranked.take n

end FrequencyTable

end LogWatch.Report
