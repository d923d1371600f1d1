import LogWatch.Proofs.Report.Charges
import Mathlib.Data.List.Nodup

/-!
# Rankings

The labels with the greatest counts are the same whatever the order in which labels were charged or are
listed: of all entries that a table has, no two rank alike.

* `TopEntry.RanksBefore` — greater counts first, of equal counts the lesser label first;
* `FrequencyTable.IsTop` — what the first entries of a table are, without sorting it;
* `FrequencyTable.isTop_iff` — they are one list, and `FrequencyTable.top` is that list;
* `FrequencyTable.take_mergeSort_of_perm` — the entries may be sorted from any order;
* `FrequencyTable.changes_counted_and_ranked` — counts and first entries after any changes of a table.
-/

namespace LogWatch

/-! ## Ranks -/

/-- An entry ranks before another one: it has the greater count, or the same one and the lesser label. -/
def TopEntry.RanksBefore (a b : TopEntry) : Prop :=
  b.metric < a.metric ∨ a.metric = b.metric ∧ a.label < b.label

instance (a b : TopEntry) : Decidable (a.RanksBefore b) :=
  inferInstanceAs (Decidable (_ ∨ _))

theorem TopEntry.RanksBefore.antisymm {a b : TopEntry} (hab : a.RanksBefore b)
    (hba : b.RanksBefore a) : a = b := by
  rcases hab with hab | ⟨hmetric, hab⟩
  · rcases hba with hba | ⟨hmetric, -⟩
    · exact absurd (UInt64.lt_trans hab hba) (UInt64.lt_irrefl _)
    · exact absurd (hmetric ▸ hab) (UInt64.lt_irrefl _)
  · rcases hba with hba | ⟨-, hba⟩
    · exact absurd (hmetric ▸ hba) (UInt64.lt_irrefl _)
    · exact absurd hab (lt_asymm hba)

namespace Report.FrequencyTable

theorem precedes_iff {a b : TopEntry} :
    precedes a b = true ↔ b.metric < a.metric ∨ a.metric = b.metric ∧ a.label ≤ b.label := by
  rw [precedes, Bool.or_eq_true, Bool.and_eq_true, decide_eq_true_eq, beq_iff_eq, Bool.not_eq_true',
    decide_eq_false_iff_not, not_lt]

theorem precedes_trans (a b c : TopEntry) (hab : precedes a b = true) (hbc : precedes b c = true) :
    precedes a c = true := by
  rw [precedes_iff] at *
  rcases hab with hab | ⟨hmetric, hab⟩
  · rcases hbc with hbc | ⟨hmetric, -⟩
    · exact Or.inl (UInt64.lt_trans hbc hab)
    · exact Or.inl (hmetric ▸ hab)
  · rcases hbc with hbc | ⟨hmetric', hbc⟩
    · exact Or.inl (hmetric ▸ hbc)
    · exact Or.inr ⟨hmetric.trans hmetric', hab.trans hbc⟩

theorem precedes_total (a b : TopEntry) : (precedes a b || precedes b a) = true := by
  rw [Bool.or_eq_true, precedes_iff, precedes_iff]
  by_cases hmetric : a.metric = b.metric
  · rcases le_total a.label b.label with h | h
    · exact Or.inl (Or.inr ⟨hmetric, h⟩)
    · exact Or.inr (Or.inr ⟨hmetric.symm, h⟩)
  · rcases UInt64.lt_or_lt_of_ne hmetric with h | h
    · exact Or.inr (Or.inl h)
    · exact Or.inl (Or.inl h)

/-- Entries with different labels never rank alike. -/
theorem ranksBefore_of_precedes {a b : TopEntry} (h : precedes a b = true) (hne : a.label ≠ b.label) :
    a.RanksBefore b := by
  rcases precedes_iff.1 h with h | ⟨hmetric, h⟩
  · exact Or.inl h
  · exact Or.inr ⟨hmetric, lt_of_le_of_ne h hne⟩

/-! ## Entries -/

/-- All entries of a table, in the order of their labels. -/
def entries (t : FrequencyTable) : List TopEntry :=
  t.labels.map fun label => ⟨label, t.count label⟩

variable {t : FrequencyTable}

theorem map_label_entries (t : FrequencyTable) : t.entries.map TopEntry.label = t.labels := by
  rw [entries, List.map_map]
  exact List.map_id _

theorem mem_entries {e : TopEntry} : e ∈ t.entries ↔ e.label ∈ t.labels ∧ e.metric = t.count e.label := by
  rw [entries, List.mem_map]
  constructor
  · rintro ⟨label, hlabel, rfl⟩
    exact ⟨hlabel, rfl⟩
  · rintro ⟨hlabel, hmetric⟩
    exact ⟨e.label, hlabel, by rw [← hmetric]⟩

/-- The entries are the pairs of labels and counts that the table is made of. -/
theorem IsOrdered.map_counts (h : t.IsOrdered) :
    (t.counts.map fun p => (⟨p.1, p.2⟩ : TopEntry)) = t.entries := by
  rw [entries, labels, Dictionary.names, List.map_map]
  refine List.map_congr_left fun p hp => ?_
  have hfind := Dictionary.find?_of_mem h.nodup_labels hp
  rw [Function.comp_apply, count, hfind, Option.getD_some]

/-- Sorting leaves one order to entries with different labels. -/
theorem pairwise_ranksBefore_mergeSort {l : List TopEntry} (h : (l.map TopEntry.label).Nodup) :
    (l.mergeSort precedes).Pairwise TopEntry.RanksBefore := by
  have hsorted : (l.mergeSort precedes).Pairwise fun a b => precedes a b = true :=
    List.pairwise_mergeSort precedes_trans precedes_total l
  have hlabels : ((l.mergeSort precedes).map TopEntry.label).Nodup :=
    ((List.mergeSort_perm l precedes).map _).nodup_iff.2 h
  exact hsorted.imp₂ (fun _ _ => ranksBefore_of_precedes) (List.pairwise_map.1 hlabels)

theorem IsOrdered.ranked_eq (h : t.IsOrdered) : t.ranked = t.entries.mergeSort precedes := by
  rw [← h.map_counts]
  rfl

theorem IsOrdered.ranked_perm (h : t.IsOrdered) : t.ranked.Perm t.entries := by
  rw [h.ranked_eq]
  exact List.mergeSort_perm ..

theorem IsOrdered.pairwise_ranked (h : t.IsOrdered) : t.ranked.Pairwise TopEntry.RanksBefore := by
  rw [h.ranked_eq]
  exact pairwise_ranksBefore_mergeSort (t.map_label_entries ▸ h.nodup_labels)

/-- All entries in the order of their ranks are the ranking. -/
theorem IsOrdered.eq_ranked (h : t.IsOrdered) {l : List TopEntry} (hperm : l.Perm t.entries)
    (hranks : l.Pairwise TopEntry.RanksBefore) : l = t.ranked :=
  (hperm.trans h.ranked_perm.symm).eq_of_pairwise (fun _ _ _ _ => TopEntry.RanksBefore.antisymm) hranks
    h.pairwise_ranked

/-- The first entries are the same whatever order the entries are sorted from. -/
theorem take_mergeSort_of_perm (h : t.IsOrdered) {l : List TopEntry} (hperm : l.Perm t.entries)
    (n : Nat) : (l.mergeSort precedes).take n = t.top n := by
  have hlabels : (l.map TopEntry.label).Nodup := by
    rw [(hperm.map TopEntry.label).nodup_iff, map_label_entries]
    exact h.nodup_labels
  rw [top, h.eq_ranked ((List.mergeSort_perm l precedes).trans hperm)
    (pairwise_ranksBefore_mergeSort hlabels)]

/-! ## The first entries -/

/-- The first `n` entries of a table: as many as there are up to `n`, each with a label of its own and
with the count of that label, in the order of their ranks, and before all that are left out. -/
structure IsTop (t : FrequencyTable) (n : Nat) (l : List TopEntry) : Prop where
  length : l.length = min n t.labels.length
  nodup : (l.map TopEntry.label).Nodup
  counted : ∀ e ∈ l, e.label ∈ t.labels ∧ e.metric = t.count e.label
  ranks : l.Pairwise TopEntry.RanksBefore
  leftOut : ∀ label ∈ t.labels, label ∉ l.map TopEntry.label →
    ∀ e ∈ l, e.RanksBefore ⟨label, t.count label⟩

theorem IsOrdered.length_ranked (h : t.IsOrdered) : t.ranked.length = t.labels.length := by
  rw [h.ranked_perm.length_eq, entries, List.length_map]

theorem IsOrdered.mem_ranked (h : t.IsOrdered) {e : TopEntry} :
    e ∈ t.ranked ↔ e.label ∈ t.labels ∧ e.metric = t.count e.label := by
  rw [h.ranked_perm.mem_iff, mem_entries]

theorem IsOrdered.nodup_map_label_ranked (h : t.IsOrdered) : (t.ranked.map TopEntry.label).Nodup := by
  rw [(h.ranked_perm.map TopEntry.label).nodup_iff, map_label_entries]
  exact h.nodup_labels

theorem IsOrdered.isTop_top (h : t.IsOrdered) (n : Nat) : t.IsTop n (t.top n) where
  length := by rw [top, List.length_take, h.length_ranked]
  nodup := h.nodup_map_label_ranked.sublist ((List.take_sublist n _).map _)
  counted e he := h.mem_ranked.1 (List.mem_of_mem_take he)
  ranks := h.pairwise_ranked.sublist (List.take_sublist n _)
  leftOut label hlabel hout e he := by
    -- What is left out stands behind the first entries.
    have hmem : (⟨label, t.count label⟩ : TopEntry) ∈ t.ranked := h.mem_ranked.2 ⟨hlabel, rfl⟩
    rw [← List.take_append_drop n t.ranked] at hmem
    have hdrop : (⟨label, t.count label⟩ : TopEntry) ∈ t.ranked.drop n :=
      (List.mem_append.1 hmem).resolve_left fun htake => hout (List.mem_map_of_mem htake)
    have hranks := h.pairwise_ranked
    rw [← List.take_append_drop n t.ranked] at hranks
    exact (List.pairwise_append.1 hranks).2.2 e he _ hdrop

/-- A list of all entries carries the sum of all counts. -/
theorem IsOrdered.sum_top (h : t.IsOrdered) {n : Nat} (hn : t.labels.length ≤ n) :
    ((t.top n).map fun e => e.metric.toNat).sum = t.total := by
  rw [top, List.take_of_length_le (h.length_ranked.trans_le hn),
    (h.ranked_perm.map fun e : TopEntry => e.metric.toNat).sum_eq, ← h.map_counts, List.map_map, total]
  rfl

/-- The first entries and those that are left out make up all entries. -/
theorem IsTop.append_perm (h : t.IsOrdered) {n : Nat} {l : List TopEntry} (hl : t.IsTop n l) :
    (l ++ t.ranked.filter fun e => e ∉ l).Perm t.entries := by
  have hnodup : t.ranked.Nodup := List.Nodup.of_map _ h.nodup_map_label_ranked
  have hkept : l.Perm (t.ranked.filter fun e => e ∈ l) := by
    refine (List.perm_ext_iff_of_nodup (List.Nodup.of_map _ hl.nodup) (hnodup.filter _)).2 fun e => ?_
    rw [List.mem_filter, decide_eq_true_eq]
    exact ⟨fun he => ⟨h.mem_ranked.2 (hl.counted e he), he⟩, And.right⟩
  have hsplit : ((t.ranked.filter fun e => e ∈ l) ++ t.ranked.filter fun e => e ∉ l).Perm t.ranked := by
    simpa using List.filter_append_perm (fun e => decide (e ∈ l)) t.ranked
  exact ((hkept.append_right _).trans hsplit).trans h.ranked_perm

/-- An entry with the count of its label is known from the label. -/
theorem entry_eq_of_label_eq {a b : TopEntry} (ha : a.metric = t.count a.label)
    (hb : b.metric = t.count b.label) (h : a.label = b.label) : a = b := by
  obtain ⟨label, metric⟩ := a
  obtain ⟨label', metric'⟩ := b
  obtain rfl : label = label' := h
  obtain rfl : metric = metric' := ha.trans hb.symm
  rfl

/-- Those that are left out rank behind the first entries. -/
theorem IsTop.pairwise_append (h : t.IsOrdered) {n : Nat} {l : List TopEntry} (hl : t.IsTop n l) :
    (l ++ t.ranked.filter fun e => e ∉ l).Pairwise TopEntry.RanksBefore := by
  refine List.pairwise_append.2 ⟨hl.ranks, h.pairwise_ranked.filter _, fun e he f hf => ?_⟩
  rw [List.mem_filter, decide_eq_true_eq] at hf
  obtain ⟨hlabel, hmetric⟩ := h.mem_ranked.1 hf.1
  have hout : f.label ∉ l.map TopEntry.label := by
    intro hin
    obtain ⟨g, hg, hgf⟩ := List.mem_map.1 hin
    exact hf.2 (entry_eq_of_label_eq (hl.counted g hg).2 hmetric hgf ▸ hg)
  have hbefore := hl.leftOut f.label hlabel hout e he
  rwa [← hmetric] at hbefore

/-- There is one list of first entries. -/
theorem isTop_iff (h : t.IsOrdered) {n : Nat} {l : List TopEntry} : t.IsTop n l ↔ l = t.top n := by
  constructor
  · intro hl
    have hall := h.eq_ranked (hl.append_perm h) (hl.pairwise_append h)
    have htake : t.ranked.take l.length = l := by rw [← hall, List.take_left]
    rw [top, ← htake, hl.length, ← h.length_ranked, List.take_eq_take_iff]
    omega
  · rintro rfl
    exact h.isTop_top n

/-! ## Tables that are changed -/

theorem isOrdered_ofChanges (changes : List Change) : (ofChanges changes).IsOrdered := by
  rw [ofChanges_eq_ofCharges]
  exact isOrdered_ofCharges _

/-- After any changes of a table each count is what its label has been charged with since the table was
last cleared, or the greatest count, and the labels are those that have been charged since then.  The
first `n` entries are the one list that has them in the order of their ranks, they are the beginning of
every longer list of first entries, and they depend neither on the order in which the entries are sorted
nor on the changes by which labels have come to their counts. -/
theorem changes_counted_and_ranked (changes : List Change) :
    (∀ label, ((ofChanges changes).count label).toNat =
      min (charged label (chargesSinceClear changes)) greatestCount) ∧
    (∀ label, label ∈ (ofChanges changes).labels ↔
      label ∈ (chargesSinceClear changes).map Prod.fst) ∧
    ((ofChanges changes).labels.length ≤ greatestCount →
      (ofChanges changes).distinct.toNat = (ofChanges changes).labels.length) ∧
    ∀ n,
      (∀ l, (ofChanges changes).IsTop n l ↔ l = (ofChanges changes).top n) ∧
      (∀ m, n ≤ m → (ofChanges changes).top n <+: (ofChanges changes).top m) ∧
      (∀ l : List TopEntry, l.Perm (ofChanges changes).entries →
        (l.mergeSort precedes).take n = (ofChanges changes).top n) ∧
      ∀ changes' : List Change,
        (∀ label, label ∈ (ofChanges changes').labels ↔ label ∈ (ofChanges changes).labels) →
        (∀ label, (ofChanges changes').count label = (ofChanges changes).count label) →
        (ofChanges changes').top n = (ofChanges changes).top n := by
  have hordered := isOrdered_ofChanges changes
  refine ⟨fun label => ?_, fun label => ?_, distinct_toNat, fun n => ⟨fun l => isTop_iff hordered,
    fun m hm => List.take_prefix_take_left hm, fun l hl => take_mergeSort_of_perm hordered hl n, ?_⟩⟩
  · rw [ofChanges_eq_ofCharges, count_ofCharges]
  · rw [ofChanges_eq_ofCharges, mem_labels_ofCharges]
  · intro changes' hlabels hcounts
    have hentries : (ofChanges changes').entries = (ofChanges changes).entries := by
      rw [entries, entries, (isOrdered_ofChanges changes').labels_eq hordered hlabels]
      exact List.map_congr_left fun label _ => by rw [hcounts]
    rw [top, top, (isOrdered_ofChanges changes').ranked_eq, hordered.ranked_eq, hentries]

/-- A label beyond the greatest count, two labels with one count, and one that is charged with nothing; what
came before the table was cleared is gone. -/
theorem changes_counted_and_ranked_tied :
    let changes : List Change := [.add "b" 7, .clear, .increment "b", .increment "a", .add "c" 0,
      .add "d" 0xffffffffffffffff, .increment "d"]
    let others : List Change := [.add "d" 0xffffffffffffffff, .increment "a", .increment "b", .add "c" 0]
    let first : List TopEntry := [⟨"d", 0xffffffffffffffff⟩, ⟨"a", 1⟩]
    (ofChanges changes).labels.length ≤ greatestCount ∧
      ((ofChanges changes).count "d").toNat = greatestCount ∧
      ((ofChanges changes).count "b").toNat = 1 ∧ (ofChanges changes).distinct.toNat = 4 ∧
      (ofChanges changes).IsTop 2 first ∧ (2 ≤ 3 ∧ first <+: (ofChanges changes).top 3) ∧
      ((ofChanges changes).entries.reverse.Perm (ofChanges changes).entries ∧
        ((ofChanges changes).entries.reverse.mergeSort precedes).take 2 = first) ∧
      (ofChanges others).top 2 = first := by
  intro changes others first
  obtain ⟨hcount, -, hdistinct, htop⟩ := changes_counted_and_ranked changes
  obtain ⟨hone, hbegins, hsorted, hothers⟩ := htop 2
  have hroom : (ofChanges changes).labels.length ≤ greatestCount := by decide
  have htwo : (ofChanges changes).IsTop 2 first :=
    ⟨by decide, by decide, by decide +kernel, by decide +kernel, by decide +kernel⟩
  have hfirst := (hone first).1 htwo
  have hperm := List.reverse_perm (ofChanges changes).entries
  have hsame : ofChanges others = ofChanges changes := by rfl
  refine ⟨hroom, ?_, ?_, ?_, htwo, ⟨by decide, ?_⟩, ⟨hperm, ?_⟩, ?_⟩
  · rw [hcount]
    decide
  · rw [hcount]
    decide
  · rw [hdistinct hroom]
    decide
  · rw [hfirst]
    exact hbegins 3 (by decide)
  · rw [hfirst]
    exact hsorted _ hperm
  · rw [hfirst]
    exact hothers others (fun label => by rw [hsame]) fun label => by rw [hsame]

end Report.FrequencyTable

end LogWatch
