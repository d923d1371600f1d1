import LogWatch.Proofs.Report.Charges
import LogWatch.Proofs.Report.Tallies
import LogWatch.Proofs.Text.Pieces
import Mathlib.Data.Finset.Card

/-!
# Labels of pairs

Traps and messages of brokers are typed by two texts each: by sender and kind, and by client and topic.
The label of a type has a blank between the two.  Either text may hold blanks of its own, and so several
types may share a label, under which they are counted together.

* `PairedSource`, `TypePair.label` — what records are typed by, and how types are labelled;
* `TypePair.label_eq_iff` — two types share a label when words of one text move to the other;
* `FrequencyTable.length_labels_ofCharges` — a table has as many entries as there are labels;
* `PairedSource.types_ofDetails` — the types of some details are counted by their labels;
* `PairedSource.types_told_apart_iff` — the counts are those of types just when no two of them share a
  label;
* `PairedSource.sharedLabel_counts_once` — two types that are counted as one.
-/

namespace LogWatch.Report

open Time

/-! ## Types and their labels -/

/-- Two texts that type a record. -/
abbrev TypePair := String × String

namespace TypePair

/-- The label of a type. -/
def label (p : TypePair) : String :=
  p.1 ++ " " ++ p.2

/-- The first text of `q` is that of `p` with some words more, which the second one lacks. -/
def Shifts (p q : TypePair) : Prop :=
  ∃ words : String, q.1 = p.1 ++ " " ++ words ∧ p.2 = words ++ " " ++ q.2

/-- No two of these types share a label. -/
def ToldApart (pairs : List TypePair) : Prop :=
  Set.InjOn label {p | p ∈ pairs}

variable {p q : TypePair}

theorem toList_label (p : TypePair) : p.label.toList = p.1.toList ++ ' ' :: p.2.toList := by
  rw [label, String.toList_append, String.toList_append, List.append_assoc]
  rfl

/-- A type whose words are shifted keeps its label. -/
theorem Shifts.label_eq (h : p.Shifts q) : p.label = q.label := by
  obtain ⟨words, hfirst, hsecond⟩ := h
  rw [label, label, hfirst, hsecond]
  simp only [String.append_assoc]

/-- A label that begins with the whole of another first text is that of the same type, or of one with
shifted words. -/
theorem eq_or_shifts {more : List Char} (hfirst : q.1.toList = p.1.toList ++ more)
    (hrest : ' ' :: p.2.toList = more ++ ' ' :: q.2.toList) : p = q ∨ p.Shifts q := by
  cases more with
  | nil =>
    rw [List.append_nil] at hfirst
    obtain ⟨-, hsecond⟩ := List.cons.inj hrest
    exact Or.inl (Prod.ext (String.toList_inj.1 hfirst.symm) (String.toList_inj.1 hsecond))
  | cons c words =>
    obtain ⟨rfl, hsecond⟩ := List.cons.inj hrest
    refine Or.inr ⟨String.ofList words, String.toList_inj.1 ?_, String.toList_inj.1 ?_⟩
    · simpa using hfirst
    · simpa using hsecond

/-- Two types share a label when words of one text of the one are in the other text of the other. -/
theorem label_eq_iff : p.label = q.label ↔ p = q ∨ p.Shifts q ∨ q.Shifts p := by
  constructor
  · intro h
    have htext := congrArg String.toList h
    rw [toList_label, toList_label] at htext
    rcases List.append_eq_append_iff.1 htext with ⟨more, hfirst, hrest⟩ | ⟨more, hfirst, hrest⟩
    · exact (eq_or_shifts hfirst hrest).imp_right Or.inl
    · exact (eq_or_shifts hfirst hrest).imp Eq.symm Or.inr
  · rintro (rfl | h | h)
    · rfl
    · exact h.label_eq
    · exact h.label_eq.symm

/-- A type with shifted words is another one: its first text is longer. -/
theorem Shifts.ne (h : p.Shifts q) : p ≠ q := by
  rintro rfl
  obtain ⟨words, hfirst, -⟩ := h
  have hlength := congrArg String.length hfirst
  rw [String.length_append, String.length_append] at hlength
  have hblank : " ".length = 1 := rfl
  omega

/-- Both texts that have the shifted words have a blank too. -/
theorem Shifts.blank_mem (h : p.Shifts q) : ' ' ∈ q.1.toList ∧ ' ' ∈ p.2.toList := by
  obtain ⟨words, hfirst, hsecond⟩ := h
  rw [hfirst, hsecond]
  simp

/-- Types are told apart when none of them is another one with shifted words. -/
theorem toldApart_iff {pairs : List TypePair} :
    ToldApart pairs ↔ ∀ p ∈ pairs, ∀ q ∈ pairs, ¬ p.Shifts q := by
  constructor
  · intro h p hp q hq hshifts
    exact hshifts.ne (h hp hq hshifts.label_eq)
  · intro h p hp q hq hlabel
    rcases label_eq_iff.1 hlabel with heq | hshifts | hshifts
    · exact heq
    · exact absurd hshifts (h p hp q hq)
    · exact absurd hshifts (h q hq p hp)

/-- Types are told apart where no first text has a blank, and where no second text has one. -/
theorem toldApart_of_not_mem {pairs : List TypePair}
    (h : (∀ p ∈ pairs, ' ' ∉ p.1.toList) ∨ ∀ p ∈ pairs, ' ' ∉ p.2.toList) : ToldApart pairs := by
  refine toldApart_iff.2 fun p hp q hq hshifts => ?_
  rcases h with h | h
  · exact h q hq hshifts.blank_mem.1
  · exact h p hp hshifts.blank_mem.2

/-! ## Numbers of labels -/

theorem toFinset_map_label (pairs : List TypePair) :
    (pairs.map label).toFinset = pairs.toFinset.image label := by
  ext name
  simp

/-- There are no more labels than types. -/
theorem card_labels_le (pairs : List TypePair) :
    (pairs.map label).toFinset.card ≤ pairs.toFinset.card := by
  rw [toFinset_map_label]
  exact Finset.card_image_le

/-- There are as many labels as types just when types are told apart. -/
theorem card_labels_eq_iff (pairs : List TypePair) :
    (pairs.map label).toFinset.card = pairs.toFinset.card ↔ ToldApart pairs := by
  rw [toFinset_map_label, Finset.card_image_iff, ToldApart, List.coe_toFinset]

/-- The records with the label of a type are its own just when no other type shares the label. -/
theorem countP_label_eq_iff (pairs : List TypePair) :
    (∀ p ∈ pairs, (pairs.countP fun q => q.label = p.label) = pairs.count p) ↔ ToldApart pairs := by
  constructor
  · intro h p hp q hq hlabel
    -- The records of `p` are some of those with its label, and not fewer, so they are the same.
    have hsublist : (pairs.filter fun r => r == p).Sublist
        (pairs.filter fun r => decide (r.label = p.label)) :=
      List.monotone_filter_right pairs fun r hr => decide_eq_true (beq_iff_eq.1 hr ▸ rfl)
    have hsame := hsublist.eq_of_length (by
      rw [← List.countP_eq_length_filter, ← List.countP_eq_length_filter, h p hp, List.count])
    have hmem : q ∈ pairs.filter fun r => r == p := by
      rw [hsame]
      exact List.mem_filter.2 ⟨hq, decide_eq_true hlabel.symm⟩
    exact (beq_iff_eq.1 (List.mem_filter.1 hmem).2).symm
  · intro h p hp
    rw [List.count]
    refine List.countP_congr fun q hq => ?_
    rw [decide_eq_true_eq, beq_iff_eq]
    exact ⟨fun hlabel => h hq hp hlabel, fun heq => heq ▸ rfl⟩

end TypePair

/-! ## Tables of labels -/

namespace FrequencyTable

/-- A table has as many entries as there are labels that have been charged. -/
theorem length_labels_ofCharges (charges : List Charge) :
    (ofCharges charges).labels.length = (charges.map Prod.fst).toFinset.card := by
  have hlabels : (ofCharges charges).labels.toFinset = (charges.map Prod.fst).toFinset := by
    ext label
    rw [List.mem_toFinset, List.mem_toFinset, mem_labels_ofCharges]
  rw [← List.toFinset_card_of_nodup (isOrdered_ofCharges charges).nodup_labels, hlabels]

/-- The charges of some types, each counted once by its label. -/
def typeCharges (pairs : List TypePair) : List Charge :=
  pairs.map fun p => (p.label, 1)

theorem charged_typeCharges (label : String) (pairs : List TypePair) :
    charged label (typeCharges pairs) = pairs.countP fun p => p.label = label := by
  induction pairs with
  | nil => rfl
  | cons p pairs ih =>
    rw [typeCharges, List.map_cons, charged, List.map_cons, List.sum_cons, ← typeCharges, ← charged, ih,
      List.countP_cons]
    by_cases h : p.label = label
    · simp [h, Nat.add_comm]
    · simp [h]

end FrequencyTable

/-! ## Sources -/

/-- The sources whose records are typed by two texts. -/
inductive PairedSource where
  | trap
  | mqtt

/-- The table of types of a tally. -/
def Tally.types : Tally → FrequencyTable
  | .trap _ types => types
  | .mqtt _ types _ _ => types
  | _ => {}

/-- The number of types in a summary that has one. -/
def typeCount? : Summary → Option UInt64
  | .trap s => some s.types
  | .mqtt s => some s.types
  | _ => none

namespace PairedSource

/-- The source as one of all. -/
def source : PairedSource → SourceType
  | .trap => .trap
  | .mqtt => .mqtt

/-- The type of a detail of the source: sender and kind of a trap, client and topic of a message. -/
def type? : PairedSource → RecordDetail → Option TypePair
  | .trap, .trap sender trapType => some (sender, trapType)
  | .mqtt, .mqtt client topic => some (client, topic)
  | _, _ => none

/-- The types of the details that are of the source. -/
def types (k : PairedSource) (details : List RecordDetail) : List TypePair :=
  details.filterMap k.type?

/-- A detail of the source is counted by the label of its type. -/
theorem types_add (k : PairedSource) {t : Tally} (ht : t.source = k.source) (d : RecordDetail) :
    (t.add d).types = ((k.type? d).map fun p => t.types.increment p.label).getD t.types := by
  cases k <;> cases t <;> cases ht <;> cases d <;> rfl

/-- The types of some details are counted by their labels, one after the other. -/
theorem types_ofDetails (k : PairedSource) (details : List RecordDetail) :
    (Tally.ofDetails k.source details).types =
      FrequencyTable.ofCharges (FrequencyTable.typeCharges (k.types details)) := by
  induction details using List.reverseRecOn with
  | nil => cases k <;> rfl
  | append_singleton details d ih =>
    rw [Tally.ofDetails_concat, k.types_add (Tally.source_ofDetails ..), ih, types, types,
      List.filterMap_append]
    cases htype : k.type? d with
    | none => simp [htype]
    | some p =>
      rw [List.filterMap_cons_some htype, List.filterMap_nil, FrequencyTable.typeCharges,
        FrequencyTable.typeCharges, List.map_append, List.map_singleton,
        FrequencyTable.ofCharges_concat]
      rfl

/-- A summary tells how many entries the table of types has. -/
theorem typeCount?_summary (k : PairedSource) {t : Tally} (ht : t.source = k.source) (time : Instant)
    (n : Nat) : typeCount? (t.summary time n) = some t.types.distinct := by
  cases k <;> cases t <;> cases ht <;> rfl

section Counts

variable (k : PairedSource) (details : List RecordDetail)

/-- The table of types has as many entries as there are labels. -/
theorem length_labels_types :
    (Tally.ofDetails k.source details).types.labels.length =
      ((k.types details).map TypePair.label).toFinset.card := by
  rw [types_ofDetails, FrequencyTable.length_labels_ofCharges, FrequencyTable.typeCharges,
    List.map_map]
  rfl

/-- The entry of a label counts the records whose types have it. -/
theorem count_types (label : String) :
    ((Tally.ofDetails k.source details).types.count label).toNat =
      min ((k.types details).countP fun p => p.label = label) greatestCount := by
  rw [types_ofDetails, FrequencyTable.count_ofCharges, FrequencyTable.charged_typeCharges]

end Counts

/-- Each record is counted under the label of its type.  So there are as many entries as labels, which are
no more than there are types, and an entry has the records of all types with its label.  There are as many
entries as types, and each entry has the records of one type, just when no type is another one with
shifted words; this is so where no first text has a blank, and where no second text has one. -/
theorem types_told_apart_iff (k : PairedSource) (details : List RecordDetail) :
    let pairs := k.types details
    let table := (Tally.ofDetails k.source details).types
    (∀ time n, typeCount? ((Tally.ofDetails k.source details).summary time n) = some table.distinct) ∧
    (table.labels.length = (pairs.map TypePair.label).toFinset.card ∧
      table.labels.length ≤ pairs.toFinset.card) ∧
    (∀ label, label ∈ table.labels ↔ ∃ p ∈ pairs, p.label = label) ∧
    (∀ label, (table.count label).toNat =
      min (pairs.countP fun p => p.label = label) greatestCount) ∧
    (table.labels.length = pairs.toFinset.card ↔ TypePair.ToldApart pairs) ∧
    (TypePair.ToldApart pairs → ∀ p ∈ pairs,
      (table.count p.label).toNat = min (pairs.count p) greatestCount) ∧
    (details.length ≤ greatestCount →
      table.distinct.toNat = table.labels.length ∧
      ((∀ p ∈ pairs, (table.count p.label).toNat = pairs.count p) ↔ TypePair.ToldApart pairs)) ∧
    (TypePair.ToldApart pairs ↔ ∀ p ∈ pairs, ∀ q ∈ pairs, ¬ p.Shifts q) ∧
    ((∀ p ∈ pairs, ' ' ∉ p.1.toList) ∨ (∀ p ∈ pairs, ' ' ∉ p.2.toList) →
      TypePair.ToldApart pairs) := by
  intro pairs table
  have hlabels := TypePair.card_labels_le pairs
  have hentries : table.labels.length = (pairs.map TypePair.label).toFinset.card :=
    k.length_labels_types details
  have hcounts : ∀ label, (table.count label).toNat =
      min (pairs.countP fun p => p.label = label) greatestCount := k.count_types details
  refine ⟨fun time n => k.typeCount?_summary (Tally.source_ofDetails ..) time n,
    ⟨hentries, hentries.trans_le hlabels⟩, fun label => ?_, hcounts, ?_, fun hapart p hp => ?_,
    fun hroom => ?_, TypePair.toldApart_iff, TypePair.toldApart_of_not_mem⟩
  · change label ∈ (Tally.ofDetails k.source details).types.labels ↔ _
    rw [types_ofDetails, FrequencyTable.mem_labels_ofCharges, FrequencyTable.typeCharges, List.map_map,
      List.mem_map]
    rfl
  · rw [hentries, TypePair.card_labels_eq_iff]
  · rw [hcounts, (TypePair.countP_label_eq_iff pairs).2 hapart p hp]
  · -- So few details fill no count.
    have hle : pairs.length ≤ greatestCount := (List.length_filterMap_le _ _).trans hroom
    have htypes := List.toFinset_card_le pairs
    refine ⟨FrequencyTable.distinct_toNat (by omega), ?_⟩
    rw [← TypePair.countP_label_eq_iff]
    refine forall₂_congr fun p _ => ?_
    rw [hcounts, Nat.min_eq_left (List.countP_le_length.trans hle)]

/-- The topic `1 humidity` of the client `sensor` and the topic `humidity` of the client `sensor 1` are
counted as one type. -/
theorem sharedLabel_counts_once :
    let details : List RecordDetail := [.mqtt "sensor" "1 humidity", .mqtt "sensor 1" "humidity"]
    details.length ≤ greatestCount ∧ (mqtt.types details).toFinset.card = 2 ∧
      TypePair.Shifts ("sensor", "1 humidity") ("sensor 1", "humidity") ∧
      ¬ TypePair.ToldApart (mqtt.types details) ∧
      ∃ count : UInt64,
        (∀ time n, typeCount? ((Tally.ofDetails .mqtt details).summary time n) = some count) ∧
        count.toNat = 1 ∧
        ((Tally.ofDetails .mqtt details).types.count "sensor 1 humidity").toNat = 2 := by
  intro details
  have hroom : details.length ≤ greatestCount := by decide
  have hshifts : TypePair.Shifts ("sensor", "1 humidity") ("sensor 1", "humidity") :=
    ⟨"1", by decide, by decide⟩
  obtain ⟨hsummary, ⟨hentries, -⟩, -, hcounts, -, -, hnumbers, hapart, -⟩ :=
    types_told_apart_iff .mqtt details
  refine ⟨hroom, by decide, hshifts, fun h => ?_, _, hsummary, ?_, ?_⟩
  · exact hapart.1 h _ List.mem_cons_self _ (List.mem_cons_of_mem _ List.mem_cons_self) hshifts
  · refine ((hnumbers hroom).1.trans hentries).trans ?_
    decide
  · exact (hcounts "sensor 1 humidity").trans (by decide)

end PairedSource

end LogWatch.Report
