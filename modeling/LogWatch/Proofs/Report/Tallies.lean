import LogWatch.Proofs.Report.Batches
import LogWatch.Proofs.Report.Counts

/-!
# What a tally holds

Apart from the sums of measurements, a tally does not depend on the order of what has been counted.  The
counts of messages by severity, by pattern and by pattern of an error agree with each other.

* `Tally.add_right_comm`, `Tally.ofDetails_perm` — details are counted in any order;
* `MessageTally.Balanced` — the counts of messages agree;
* `MessageTally.Balanced.add` — one message more;
* `summaries_order_free_and_balanced` — summaries of details in any order, and the balance of messages.
-/

namespace LogWatch.Report

open Time

/-! ## In any order -/

theorem countSeverity_right_comm (c : SeverityCounts) (a b : Severity) :
    countSeverity (countSeverity c a) b = countSeverity (countSeverity c b) a := by
  cases a <;> cases b <;> rfl

theorem NameSet.insert_right_comm (s : NameSet) (x y : String) :
    (s.insert x ()).insert y () = (s.insert y ()).insert x () := by
  by_cases h : y = x
  · rw [h]
  · exact Dictionary.insert_comm h () () s

theorem MessageTally.add_right_comm (t : MessageTally) (a b : Severity) (x y : String) :
    (t.add a x).add b y = (t.add b y).add a x := by
  simp only [add, countSeverity_right_comm t.counts a b,
    FrequencyTable.increment_right_comm t.patterns (Pattern.normalize x) (Pattern.normalize y)]
  congr 1
  split <;> split <;>
    simp only [FrequencyTable.increment_right_comm t.errorPatterns (Pattern.normalize x)]

theorem TrafficTally.add_right_comm (t : TrafficTally) (x y : String) (a b c d : UInt64) :
    (t.add x a b).add y c d = (t.add y c d).add x a b := by
  simp only [add, FrequencyTable.add_right_comm _ x y]

namespace FlowTally

theorem addMac_add_right_comm (t : TrafficTally) (x : Option String) (y : String)
    (a b c d : UInt64) : (addMac t x a b).add y c d = addMac (t.add y c d) x a b := by
  cases x with
  | none => rfl
  | some x =>
    by_cases hx : x = ""
    · simp only [addMac, if_pos hx]
    · simp only [addMac, if_neg hx, TrafficTally.add_right_comm _ x y]

theorem addMac_right_comm (t : TrafficTally) (x y : Option String) (a b c d : UInt64) :
    addMac (addMac t x a b) y c d = addMac (addMac t y c d) x a b := by
  cases y with
  | none => rfl
  | some y =>
    by_cases hy : y = ""
    · simp only [addMac, if_pos hy]
    · simpa only [addMac, if_neg hy] using addMac_add_right_comm t x y a b c d

theorem add_right_comm (t : FlowTally) (f g : FlowRecord) : (t.add f).add g = (t.add g).add f := by
  simp only [add]
  congr 1
  · exact addCounts_right_comm ..
  · exact addCounts_right_comm ..
  · rw [addMac_right_comm _ f.dstMac g.srcMac, addMac_right_comm _ f.srcMac g.srcMac,
      addMac_right_comm _ f.dstMac g.dstMac, addMac_right_comm _ f.srcMac g.dstMac]
  · rw [TrafficTally.add_right_comm _ f.dst.toText g.src.toText,
      TrafficTally.add_right_comm _ f.src.toText g.src.toText,
      TrafficTally.add_right_comm _ f.dst.toText g.dst.toText,
      TrafficTally.add_right_comm _ f.src.toText g.dst.toText]
  · exact TrafficTally.add_right_comm ..
  · exact TrafficTally.add_right_comm ..
  · split <;> split <;> first | rfl | exact FrequencyTable.increment_right_comm ..

end FlowTally

namespace Tally

theorem addTrace_right_comm (s : NameSet) (x y : Option String) :
    addTrace (addTrace s x) y = addTrace (addTrace s y) x := by
  cases x with
  | none => rfl
  | some x =>
    cases y with
    | none => rfl
    | some y =>
      by_cases hx : x = "" <;> by_cases hy : y = "" <;>
        simp only [addTrace, hx, hy, if_true, if_false, NameSet.insert_right_comm s x y]

/-- Details of another source do not count. -/
theorem add_of_source_ne {t : Tally} {d : RecordDetail} (h : d.source ≠ t.source) : t.add d = t := by
  cases t <;> cases d <;> first | rfl | exact absurd rfl h

/-- Two details are counted in either order, unless they are measurements. -/
theorem add_right_comm (t : Tally) {d e : RecordDetail} (hd : d.source ≠ .monitor) :
    (t.add d).add e = (t.add e).add d := by
  by_cases hdt : d.source = t.source
  · by_cases het : e.source = t.source
    · cases t with
      | syslog m =>
        cases d <;> cases hdt
        cases e <;> cases het
        exact congrArg Tally.syslog (m.add_right_comm ..)
      | trap count types =>
        cases d <;> cases hdt
        cases e <;> cases het
        exact congrArg (Tally.trap _) (types.increment_right_comm ..)
      | netflow flows =>
        cases d <;> cases hdt
        cases e <;> cases het
        exact congrArg Tally.netflow (flows.add_right_comm ..)
      | windowsEvent m =>
        cases d <;> cases hdt
        cases e <;> cases het
        exact congrArg Tally.windowsEvent (m.add_right_comm ..)
      | otelLog m hosts traceIds =>
        cases d <;> cases hdt
        cases e <;> cases het
        simp only [add, m.add_right_comm, hosts.insert_right_comm, addTrace_right_comm traceIds]
      | mqtt count types clients topics =>
        cases d <;> cases hdt
        cases e <;> cases het
        simp only [add, types.increment_right_comm, clients.insert_right_comm,
          topics.insert_right_comm]
      | monitor sums => exact absurd hdt hd
    · have het' : e.source ≠ (t.add d).source := by rwa [source_add]
      rw [add_of_source_ne het, add_of_source_ne het']
  · have hdt' : d.source ≠ (t.add e).source := by rwa [source_add]
    rw [add_of_source_ne hdt, add_of_source_ne hdt']

/-- Only the details of the source count. -/
theorem ofDetails_filter (source : SourceType) (details : List RecordDetail) :
    ofDetails source (details.filter fun d => d.source = source) = ofDetails source details := by
  induction details using List.reverseRecOn with
  | nil => rfl
  | append_singleton details d ih =>
    rw [List.filter_append, ofDetails_concat]
    by_cases h : d.source = source
    · rw [List.filter_cons_of_pos (by simpa using h), List.filter_nil, ofDetails_concat, ih]
    · have hne : d.source ≠ (ofDetails source details).source := by rwa [source_ofDetails]
      rw [List.filter_cons_of_neg (by simpa using h), List.filter_nil, List.append_nil, ih,
        add_of_source_ne hne]

/-- Details are counted in any order, unless they are measurements. -/
theorem ofDetails_perm {source : SourceType} (hsource : source ≠ .monitor)
    {details details' : List RecordDetail} (h : details.Perm details') :
    ofDetails source details = ofDetails source details' := by
  rw [← ofDetails_filter source details, ← ofDetails_filter source details']
  refine (h.filter _).foldl_eq' (fun d hd e _ t => t.add_right_comm ?_) _
  have hd : d.source = source := by simpa using (List.mem_filter.1 hd).2
  rwa [hd]

end Tally

/-! ## The balance of messages -/

theorem increment_toNat {n : UInt64} (h : n.toNat < greatestCount) : (n + 1).toNat = n.toNat + 1 := by
  rw [greatestCount] at h
  rw [UInt64.toNat_add, UInt64.toNat_one]
  omega

namespace MessageTally

/-- A tally of some messages whose counts agree: by severity and by pattern they are all there, the errors
have patterns of their own, and each pattern of an error counts among all patterns. -/
structure Balanced (t : MessageTally) (messages : Nat) : Prop where
  severities : t.counts.normal.toNat + t.counts.warn.toNat + t.counts.error.toNat = messages
  patterns : t.patterns.total = messages
  errors : t.errorPatterns.total = t.counts.error.toNat
  covers : ∀ label ∈ t.errorPatterns.labels, label ∈ t.patterns.labels ∧
    t.errorPatterns.count label ≤ t.patterns.count label
  labels_le : t.patterns.labels.length ≤ messages
  patternsOrdered : t.patterns.IsOrdered
  errorsOrdered : t.errorPatterns.IsOrdered

theorem balanced_empty : Balanced {} 0 where
  severities := rfl
  patterns := rfl
  errors := rfl
  covers _ h := absurd h List.not_mem_nil
  labels_le := Nat.le_refl _
  patternsOrdered := FrequencyTable.isOrdered_empty
  errorsOrdered := FrequencyTable.isOrdered_empty

section Balance

variable {t : MessageTally} {messages : Nat}

/-- A pattern of an error that is covered stays so when it is counted in both tables. -/
theorem Balanced.covers_increment (h : t.Balanced messages) (pattern : String) :
    ∀ label ∈ (t.errorPatterns.increment pattern).labels,
      label ∈ (t.patterns.increment pattern).labels ∧
        (t.errorPatterns.increment pattern).count label ≤ (t.patterns.increment pattern).count label := by
  intro label hlabel
  have hcount : t.errorPatterns.count label ≤ t.patterns.count label := by
    by_cases hmem : label ∈ t.errorPatterns.labels
    · exact (h.covers label hmem).2
    · rw [FrequencyTable.count_of_not_mem hmem]
      exact UInt64.zero_le
  refine ⟨?_, ?_⟩
  · rcases FrequencyTable.mem_labels_add.1 hlabel with rfl | hmem
    · exact FrequencyTable.mem_labels_add.2 (Or.inl rfl)
    · exact FrequencyTable.mem_labels_add.2 (Or.inr (h.covers label hmem).1)
  · rw [FrequencyTable.increment, FrequencyTable.increment, FrequencyTable.count_add,
      FrequencyTable.count_add]
    split
    · rename_i heq
      subst heq
      exact addCounts_mono hcount 1
    · exact hcount

/-- A pattern of an error stays covered when others are counted too. -/
theorem Balanced.covers_increment_patterns (h : t.Balanced messages) (pattern : String) :
    ∀ label ∈ t.errorPatterns.labels, label ∈ (t.patterns.increment pattern).labels ∧
      t.errorPatterns.count label ≤ (t.patterns.increment pattern).count label := by
  intro label hlabel
  obtain ⟨hmem, hcount⟩ := h.covers label hlabel
  exact ⟨FrequencyTable.mem_labels_add.2 (Or.inr hmem),
    UInt64.le_trans hcount (FrequencyTable.count_le_count_add ..)⟩

/-- One message more keeps the balance, as long as the counts have room. -/
theorem Balanced.add (h : t.Balanced messages) (hroom : messages < greatestCount)
    (severity : Severity) (message : String) : (t.add severity message).Balanced (messages + 1) := by
  have hsum := h.severities
  have hpatterns : (t.patterns.increment (Pattern.normalize message)).total = messages + 1 := by
    rw [h.patternsOrdered.total_increment _ (by rwa [h.patterns]), h.patterns]
  have hlabels : (t.patterns.increment (Pattern.normalize message)).labels.length ≤ messages + 1 :=
    Nat.le_trans (FrequencyTable.length_labels_add_le ..) (Nat.succ_le_succ h.labels_le)
  have hordered := h.patternsOrdered.add (Pattern.normalize message) 1
  cases severity with
  | normal =>
    have hcount : (t.counts.normal + 1).toNat = t.counts.normal.toNat + 1 :=
      increment_toNat (by omega)
    refine ⟨?_, hpatterns, h.errors, h.covers_increment_patterns _, hlabels, hordered,
      h.errorsOrdered⟩
    show (t.counts.normal + 1).toNat + t.counts.warn.toNat + t.counts.error.toNat = messages + 1
    omega
  | warn =>
    have hcount : (t.counts.warn + 1).toNat = t.counts.warn.toNat + 1 := increment_toNat (by omega)
    refine ⟨?_, hpatterns, h.errors, h.covers_increment_patterns _, hlabels, hordered,
      h.errorsOrdered⟩
    show t.counts.normal.toNat + (t.counts.warn + 1).toNat + t.counts.error.toNat = messages + 1
    omega
  | error =>
    have hcount : (t.counts.error + 1).toNat = t.counts.error.toNat + 1 :=
      increment_toNat (by omega)
    have herrors : t.errorPatterns.total < greatestCount := by
      rw [h.errors]
      omega
    refine ⟨?_, hpatterns, ?_, h.covers_increment _, hlabels, hordered, h.errorsOrdered.add _ 1⟩
    · show t.counts.normal.toNat + t.counts.warn.toNat + (t.counts.error + 1).toNat = messages + 1
      omega
    · show (t.errorPatterns.increment (Pattern.normalize message)).total = (t.counts.error + 1).toNat
      rw [h.errorsOrdered.total_increment _ herrors, h.errors, hcount]

/-- There are no more patterns of errors than patterns, and no more patterns than messages. -/
theorem Balanced.distinct_le (h : t.Balanced messages) (hroom : messages ≤ greatestCount) :
    t.errorPatterns.distinct ≤ t.patterns.distinct ∧ t.patterns.distinct.toNat ≤ messages := by
  have hpatterns := FrequencyTable.distinct_toNat (Nat.le_trans h.labels_le hroom)
  have hle : t.errorPatterns.labels.length ≤ t.patterns.labels.length :=
    (List.subperm_of_subset h.errorsOrdered.nodup_labels fun label hlabel =>
      (h.covers label hlabel).1).length_le
  have herrors := FrequencyTable.distinct_toNat (Nat.le_trans hle (Nat.le_trans h.labels_le hroom))
  rw [UInt64.le_iff_toNat_le, hpatterns, herrors]
  exact ⟨hle, h.labels_le⟩

end Balance

end MessageTally

namespace Tally

/-- The messages of a tally that counts messages. -/
def messages? : Tally → Option MessageTally
  | .syslog m | .windowsEvent m | .otelLog m _ _ => some m
  | _ => none

/-- A detail brings one message to a tally of messages. -/
theorem messages?_add {t : Tally} {m : MessageTally} (h : t.messages? = some m) {d : RecordDetail}
    (hd : d.source = t.source) :
    ∃ severity message, (t.add d).messages? = some (m.add severity message) := by
  cases t with
  | syslog m' =>
    cases h
    cases d <;> cases hd
    exact ⟨_, _, rfl⟩
  | windowsEvent m' =>
    cases h
    cases d <;> cases hd
    exact ⟨_, _, rfl⟩
  | otelLog m' hosts traceIds =>
    cases h
    cases d <;> cases hd
    exact ⟨_, _, rfl⟩
  | trap => cases h
  | netflow => cases h
  | mqtt => cases h
  | monitor => cases h

theorem exists_messages?_empty {source : SourceType}
    (h : source = .syslog ∨ source = .windowsEvent ∨ source = .otelLog) :
    (empty source).messages? = some {} := by
  rcases h with rfl | rfl | rfl <;> rfl

/-- The counts of messages agree. -/
theorem balanced_ofDetails {source : SourceType}
    (hsource : source = .syslog ∨ source = .windowsEvent ∨ source = .otelLog)
    {details : List RecordDetail} (hdetails : ∀ d ∈ details, d.source = source)
    (hroom : details.length ≤ greatestCount) :
    ∃ m, (ofDetails source details).messages? = some m ∧ m.Balanced details.length := by
  induction details using List.reverseRecOn with
  | nil => exact ⟨{}, exists_messages?_empty hsource, MessageTally.balanced_empty⟩
  | append_singleton details d ih =>
    rw [List.length_append, List.length_singleton] at hroom ⊢
    obtain ⟨m, hm, hbalanced⟩ :=
      ih (fun e he => hdetails e (List.mem_append_left _ he)) (Nat.le_of_succ_le hroom)
    have hd : d.source = (ofDetails source details).source := by
      rw [source_ofDetails]
      exact hdetails d (List.mem_append_right _ (List.mem_singleton_self d))
    obtain ⟨severity, message, hadd⟩ := messages?_add hm hd
    rw [ofDetails_concat]
    exact ⟨_, hadd, hbalanced.add hroom severity message⟩

end Tally

/-! ## Summaries -/

/-- The counts by severity, and the numbers of patterns and of patterns of errors, in a summary of
messages. -/
def messageCounts? : Summary → Option (SeverityCounts × UInt64 × UInt64)
  | .syslog s => some (s.counts, s.patterns, s.errorPatterns)
  | .windowsEvent s => some (s.counts, s.types, s.errorTypes)
  | .otelLog s => some (s.counts, s.types, s.errorTypes)
  | _ => none

theorem messageCounts?_summary {t : Tally} {m : MessageTally} (h : t.messages? = some m)
    (time : Instant) (n : Nat) :
    messageCounts? (t.summary time n) =
      some (m.counts, m.patterns.distinct, m.errorPatterns.distinct) := by
  cases t with
  | syslog => cases h; rfl
  | windowsEvent => cases h; rfl
  | otelLog => cases h; rfl
  | trap => cases h
  | netflow => cases h
  | mqtt => cases h
  | monitor => cases h

/-- Except for measurements the summary of some details does not depend on their order.  In a summary of
messages the counts by severity and the counts of all patterns each make up the number of messages, the
counts of the patterns of errors make up the number of errors, each of them counts at least as often among
all patterns, and so there are no more patterns of errors than patterns, and no more patterns than
messages. -/
theorem summaries_order_free_and_balanced (source : SourceType) :
    (source ≠ .monitor → ∀ details details' : List RecordDetail, details.Perm details' →
      ∀ time n, (Tally.ofDetails source details).summary time n =
        (Tally.ofDetails source details').summary time n) ∧
    (source = .syslog ∨ source = .windowsEvent ∨ source = .otelLog →
      ∀ details : List RecordDetail, (∀ d ∈ details, d.source = source) →
        details.length ≤ greatestCount →
        ∃ m counts types errorTypes, (Tally.ofDetails source details).messages? = some m ∧
          (∀ time n, messageCounts? ((Tally.ofDetails source details).summary time n) =
            some (counts, types, errorTypes)) ∧
          counts.normal.toNat + counts.warn.toNat + counts.error.toNat = details.length ∧
          m.patterns.total = details.length ∧
          m.errorPatterns.total = counts.error.toNat ∧
          (∀ label ∈ m.errorPatterns.labels, label ∈ m.patterns.labels ∧
            m.errorPatterns.count label ≤ m.patterns.count label) ∧
          errorTypes ≤ types ∧ types.toNat ≤ details.length) := by
  constructor
  · intro hsource details details' hperm time n
    rw [Tally.ofDetails_perm hsource hperm]
  · intro hsource details hdetails hroom
    obtain ⟨m, hm, hbalanced⟩ := Tally.balanced_ofDetails hsource hdetails hroom
    obtain ⟨herrors, hpatterns⟩ := hbalanced.distinct_le hroom
    exact ⟨m, m.counts, m.patterns.distinct, m.errorPatterns.distinct, hm,
      messageCounts?_summary hm, hbalanced.severities, hbalanced.patterns, hbalanced.errors,
      hbalanced.covers, herrors, hpatterns⟩

/-- An error and two other messages, one of the pattern of the error, in two orders. -/
theorem summaries_order_free_and_balanced_threeMessages :
    let failed := RecordDetail.syslog 3 "db-01" "postgres" "failed after 17 tries"
    let noted := RecordDetail.syslog 6 "db-01" "postgres" "failed after 4 tries"
    let warned := RecordDetail.syslog 4 "db-01" "kernel" "low memory"
    [failed, noted, warned].Perm [warned, failed, noted] ∧
      (∀ d ∈ [failed, noted, warned], d.source = .syslog) ∧
      (∀ time n, (Tally.ofDetails .syslog [failed, noted, warned]).summary time n =
        (Tally.ofDetails .syslog [warned, failed, noted]).summary time n) ∧
      ∃ m, (Tally.ofDetails .syslog [failed, noted, warned]).messages? = some m ∧
        m.patterns.total = 3 ∧ m.errorPatterns.total = 1 := by
  intro failed noted warned
  have hperm : [failed, noted, warned].Perm [warned, failed, noted] :=
    (List.perm_append_comm : ([failed, noted] ++ [warned]).Perm ([warned] ++ [failed, noted]))
  have hdetails : ∀ d ∈ [failed, noted, warned], d.source = SourceType.syslog := by
    rintro d (_ | ⟨_, _ | ⟨_, _ | ⟨_, ⟨⟩⟩⟩⟩) <;> rfl
  obtain ⟨hfree, hbalanced⟩ := summaries_order_free_and_balanced .syslog
  obtain ⟨m, counts, types, errorTypes, hm, hcounts, -, hpatterns, herrors, -⟩ :=
    hbalanced (Or.inl rfl) _ hdetails (by decide)
  refine ⟨hperm, hdetails, hfree (by decide) _ _ hperm, m, hm, hpatterns, ?_⟩
  have hsummary := hcounts ⟨0, 0⟩ 0
  cases hsummary
  exact herrors

end LogWatch.Report
