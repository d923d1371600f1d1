import LogWatch.Proofs.Report.Conversations
import LogWatch.Proofs.Report.Rankings
import Mathlib.Algebra.BigOperators.Ring.List
import Mathlib.Algebra.Ring.Nat

/-!
# Traffic is conserved

Every flow counts its packets and its bytes once in all, once for its conversation and once for its
service, once for either address, and once for each hardware address that it names.  So the tables add up
to what the flows carried, as long as none of the counts is cut off.

* `TrafficKind.labels`, `Measure.ofFlow` — what a flow is charged to in each table, and how much;
* `FlowTally.table_traffic`, `FlowTally.total_table` — the tables of some flows, and what they hold in all;
* `FlowTally.traffic_conserved` — counts and sums of a report of flows.
-/

namespace LogWatch.Report

open Time

/-! ## Kinds and measures of traffic -/

/-- What traffic is told apart by. -/
inductive TrafficKind where
  | mac
  | ip
  | conversation
  | protocol

/-- What traffic is measured in. -/
inductive Measure where
  | packets
  | bytes

/-- The hardware addresses that a flow names. -/
def hardwareAddresses (f : FlowRecord) : List String :=
  (f.srcMac.toList ++ f.dstMac.toList).filter fun mac => mac ≠ ""

/-- The labels that a flow is counted for, a label twice where both ends have it. -/
def TrafficKind.labels : TrafficKind → FlowRecord → List String
  | .mac, f => hardwareAddresses f
  | .ip, f => [f.src.toText, f.dst.toText]
  | .conversation, f => [Flow.label f.src f.dst]
  | .protocol, f => [flowService f.protocol f.srcPort f.dstPort]

/-- The label that a flow is counted for among the fumbles, if it is one. -/
def fumbleLabels (f : FlowRecord) : List String :=
  (Flow.fumbler? f).toList.map Net.IpAddress.toText

namespace Measure

/-- What a flow carries. -/
def ofFlow : Measure → FlowRecord → UInt64
  | .packets, f => f.packets
  | .bytes, f => f.bytes

/-- What some flows carry together. -/
def sum (m : Measure) (flows : List FlowRecord) : Nat :=
  (flows.map fun f => (m.ofFlow f).toNat).sum

theorem two_mul_sum (m : Measure) (flows : List FlowRecord) :
    2 * m.sum flows = (flows.map fun f => (m.ofFlow f).toNat * 2).sum := by
  rw [Nat.mul_comm, sum]
  exact (List.sum_map_mul_right flows (fun f => (m.ofFlow f).toNat) 2).symm

/-- The count of a measure. -/
def count : Measure → FlowTally → UInt64
  | .packets, t => t.packets
  | .bytes, t => t.bytes

/-- The table of a measure. -/
def table : Measure → TrafficTally → FrequencyTable
  | .packets, t => t.packets
  | .bytes, t => t.bytes

/-- The count of a measure in a summary. -/
def total : Measure → NetflowSummary → UInt64
  | .packets, s => s.packets
  | .bytes, s => s.bytes

/-- The list of a measure. -/
def list : Measure → TrafficTops → List TopEntry
  | .packets, l => l.packets
  | .bytes, l => l.bytes

end Measure

/-- The tables of a kind. -/
def FlowTally.traffic (t : FlowTally) : TrafficKind → TrafficTally
  | .mac => t.macs
  | .ip => t.ips
  | .conversation => t.flows
  | .protocol => t.protocols

/-- The lists of a kind. -/
def TrafficKind.tops : TrafficKind → NetflowSummary → TrafficTops
  | .mac, s => s.topMacs
  | .ip, s => s.topIps
  | .conversation, s => s.topFlows
  | .protocol, s => s.topProtocols

/-! ## Charges of flows -/

section FlowCharges

open FrequencyTable

variable (labels : FlowRecord → List String) (amount : FlowRecord → UInt64)

/-- The charges of some flows, each of which charges its labels with its amount. -/
def flowCharges (flows : List FlowRecord) : List Charge :=
  flows.flatMap fun f => (labels f).map fun label => (label, amount f)

theorem charged_map (label : String) (names : List String) (a : UInt64) :
    charged label (names.map fun name => (name, a)) = names.count label * a.toNat := by
  induction names with
  | nil => exact (Nat.zero_mul _).symm
  | cons name names ih =>
    rw [charged, List.map_cons, List.map_cons, List.sum_cons, ← charged, ih, List.count_cons]
    by_cases h : name = label
    · simp only [h, if_pos, beq_self_eq_true]
      rw [Nat.add_mul, Nat.one_mul, Nat.add_comm]
    · simp [h]

theorem charged_flowCharges (label : String) (flows : List FlowRecord) :
    charged label (flowCharges labels amount flows) =
      (flows.map fun f => (labels f).count label * (amount f).toNat).sum := by
  induction flows with
  | nil => rfl
  | cons f flows ih =>
    rw [flowCharges, List.flatMap_cons, charged_append, charged_map, ← flowCharges, ih, List.map_cons,
      List.sum_cons]

theorem chargedInAll_flowCharges (flows : List FlowRecord) :
    chargedInAll (flowCharges labels amount flows) =
      (flows.map fun f => (amount f).toNat * (labels f).length).sum := by
  induction flows with
  | nil => rfl
  | cons f flows ih =>
    rw [flowCharges, List.flatMap_cons, chargedInAll_append, ← flowCharges, ih, List.map_cons,
      List.sum_cons, chargedInAll, List.map_map]
    simp [Function.comp_def, Nat.mul_comm]

/-- The labels do not depend on the amounts. -/
theorem map_fst_flowCharges (flows : List FlowRecord) :
    (flowCharges labels amount flows).map Prod.fst = flows.flatMap labels := by
  rw [flowCharges, List.map_flatMap]
  simp [Function.comp_def]

theorem flowCharges_concat (flows : List FlowRecord) (f : FlowRecord) :
    flowCharges labels amount (flows ++ [f]) =
      flowCharges labels amount flows ++ (labels f).map fun label => (label, amount f) := by
  rw [flowCharges, List.flatMap_append, List.flatMap_singleton, flowCharges]

end FlowCharges

/-! ## Tallies of flows -/

namespace FlowTally

open FrequencyTable

/-- A flow is added to the tables of a kind once for each of its labels. -/
theorem traffic_add (t : FlowTally) (f : FlowRecord) (k : TrafficKind) :
    (t.add f).traffic k =
      (k.labels f).foldl (fun u label => u.add label f.packets f.bytes) (t.traffic k) := by
  cases k with
  | mac =>
    show addMac (addMac t.macs f.srcMac f.packets f.bytes) f.dstMac f.packets f.bytes = _
    rw [TrafficKind.labels, hardwareAddresses, List.filter_append, List.foldl_append]
    have hmac : ∀ (u : TrafficTally) (mac : Option String), addMac u mac f.packets f.bytes =
        (mac.toList.filter fun m => m ≠ "").foldl (fun u m => u.add m f.packets f.bytes) u := by
      intro u mac
      cases mac with
      | none => rfl
      | some m => by_cases h : m = "" <;> simp [addMac, h]
    rw [hmac, hmac]
    rfl
  | ip => rfl
  | conversation => rfl
  | protocol => rfl

/-- Both tables of a kind are charged for the same labels, each with its own measure. -/
theorem table_foldl_add (m : Measure) (f : FlowRecord) (labels : List String) (u : TrafficTally) :
    m.table (labels.foldl (fun u label => u.add label f.packets f.bytes) u) =
      (labels.map fun label => (label, m.ofFlow f)).foldl (fun t c => t.add c.1 c.2) (m.table u) := by
  induction labels generalizing u with
  | nil => rfl
  | cons label labels ih =>
    rw [List.foldl_cons, ih, List.map_cons, List.foldl_cons]
    cases m <;> rfl

/-- The tables of some flows are those of their charges. -/
theorem table_traffic (k : TrafficKind) (m : Measure) (flows : List FlowRecord) :
    m.table ((flows.foldl FlowTally.add {}).traffic k) =
      ofCharges (flowCharges k.labels m.ofFlow flows) := by
  induction flows using List.reverseRecOn with
  | nil => cases k <;> cases m <;> rfl
  | append_singleton flows f ih =>
    rw [List.foldl_concat, traffic_add, table_foldl_add, ih,
      flowCharges_concat, ofCharges_append]

theorem isOrdered_table (k : TrafficKind) (m : Measure) (flows : List FlowRecord) :
    (m.table ((flows.foldl FlowTally.add {}).traffic k)).IsOrdered := by
  rw [table_traffic]
  exact isOrdered_ofCharges _

/-- What a table is measured in does not matter for its labels. -/
theorem mem_labels_table (k : TrafficKind) (m : Measure) (flows : List FlowRecord) {label : String} :
    label ∈ (m.table ((flows.foldl FlowTally.add {}).traffic k)).labels ↔
      label ∈ flows.flatMap k.labels := by
  rw [table_traffic, mem_labels_ofCharges, map_fst_flowCharges]

/-- The table of fumbles is charged once for each flow that is one. -/
theorem fumbles_foldl (flows : List FlowRecord) :
    (flows.foldl FlowTally.add {}).fumbles =
      ofCharges (flowCharges fumbleLabels (fun _ => 1) flows) := by
  induction flows using List.reverseRecOn with
  | nil => rfl
  | append_singleton flows f ih =>
    rw [List.foldl_concat, flowCharges_concat, ofCharges_append, ← ih,
      fumbleLabels, add]
    cases Flow.fumbler? f <;> rfl

/-- The count of a measure is what all flows carry, or the greatest count. -/
theorem count_foldl (m : Measure) (flows : List FlowRecord) :
    (m.count (flows.foldl FlowTally.add {})).toNat = min (m.sum flows) greatestCount := by
  induction flows using List.reverseRecOn with
  | nil => cases m <;> rfl
  | append_singleton flows f ih =>
    have hadd : ∀ t : FlowTally, m.count (t.add f) = addCounts (m.count t) (m.ofFlow f) := by
      intro t
      cases m <;> rfl
    rw [List.foldl_concat, hadd, addCounts_toNat, ih, Measure.sum,
      Measure.sum, List.map_append, List.sum_append, List.map_singleton, List.sum_singleton]
    omega

/-- A flow has at most two labels of a kind. -/
theorem length_labels_le (k : TrafficKind) (f : FlowRecord) : (k.labels f).length ≤ 2 := by
  cases k with
  | mac =>
    refine (List.length_filter_le _ _).trans ?_
    rw [List.length_append]
    cases f.srcMac <;> cases f.dstMac <;> simp
  | ip => exact Nat.le_refl 2
  | conversation => exact Nat.le_succ 1
  | protocol => exact Nat.le_succ 1

/-- While twice what all flows carry can be counted, a table holds what its flows are charged with. -/
theorem total_table (k : TrafficKind) (m : Measure) (flows : List FlowRecord)
    (h : 2 * m.sum flows ≤ greatestCount) :
    (m.table ((flows.foldl FlowTally.add {}).traffic k)).total =
      (flows.map fun f => (m.ofFlow f).toNat * (k.labels f).length).sum := by
  have hle : (flows.map fun f => (m.ofFlow f).toNat * (k.labels f).length).sum ≤ 2 * m.sum flows := by
    rw [Measure.two_mul_sum]
    refine List.sum_le_sum fun f _ => ?_
    exact Nat.mul_le_mul_left _ (length_labels_le k f)
  rw [table_traffic, total_ofCharges, chargedInAll_flowCharges]
  rw [chargedInAll_flowCharges]
  exact hle.trans h

/-- A summary takes over what the tally has counted. -/
theorem total_summary {t : FlowTally} {time : Instant} {n : Nat} {s : NetflowSummary}
    (h : (Tally.netflow t).summary time n = .netflow s) (m : Measure) : m.total s = m.count t := by
  cases h
  cases m <;> rfl

theorem list_summary {t : FlowTally} {time : Instant} {n : Nat} {s : NetflowSummary}
    (h : (Tally.netflow t).summary time n = .netflow s) (k : TrafficKind) (m : Measure) :
    m.list (k.tops s) = (m.table (t.traffic k)).top n := by
  cases h
  cases k <;> cases m <;> rfl

/-- A report of flows counts what they carry, and each label with what the flows of that label carry, up
to the greatest count.  Packets and bytes are counted under the same labels.  Lists that leave nothing out
carry what their tables do.  While twice what all flows carry stays below the end of 64 bits, the
conversations and the services carry what is counted in all, the addresses twice as much, and the hardware
addresses as much as the flows that name them, for each that they name. -/
theorem traffic_conserved (flows : List FlowRecord) (time : Instant) (n : Nat) :
    ∃ t s, Tally.ofDetails .netflow (flows.map .netflow) = .netflow t ∧
      (Tally.netflow t).summary time n = .netflow s ∧
      (∀ label, (t.fumbles.count label).toNat =
        min (flows.map fun f => (fumbleLabels f).count label).sum greatestCount) ∧
      (∀ k : TrafficKind, (t.traffic k).packets.labels = (t.traffic k).bytes.labels) ∧
      ∀ m : Measure,
        m.total s = m.count t ∧ (m.count t).toNat = min (m.sum flows) greatestCount ∧
        (∀ k label, ((m.table (t.traffic k)).count label).toNat =
          min (flows.map fun f => (k.labels f).count label * (m.ofFlow f).toNat).sum greatestCount) ∧
        (∀ k, (m.table (t.traffic k)).labels.length ≤ n →
          ((m.list (k.tops s)).map fun e => e.metric.toNat).sum = (m.table (t.traffic k)).total) ∧
        (2 * m.sum flows < 0x10000000000000000 →
          (m.table (t.traffic .conversation)).total = (m.total s).toNat ∧
          (m.table (t.traffic .protocol)).total = (m.total s).toNat ∧
          (m.table (t.traffic .ip)).total = 2 * (m.total s).toNat ∧
          (m.table (t.traffic .mac)).total =
            (flows.map fun f => (m.ofFlow f).toNat * (hardwareAddresses f).length).sum) := by
  obtain ⟨s, hs⟩ : ∃ s, (Tally.netflow (flows.foldl FlowTally.add {})).summary time n = .netflow s :=
    ⟨_, rfl⟩
  refine ⟨_, s, Tally.ofDetails_netflow flows, hs, fun label => ?_, fun k => ?_, fun m => ?_⟩
  · rw [fumbles_foldl, count_ofCharges, charged_flowCharges]
    simp only [UInt64.toNat_one, Nat.mul_one]
  · exact (isOrdered_table k .packets flows).labels_eq (isOrdered_table k .bytes flows) fun label =>
      (mem_labels_table k .packets flows).trans (mem_labels_table k .bytes flows).symm
  · have htotal := total_summary hs m
    have hcount := count_foldl m flows
    refine ⟨htotal, hcount, fun k label => ?_, fun k hk => ?_, fun hroom => ?_⟩
    · rw [table_traffic, count_ofCharges, charged_flowCharges]
    · rw [list_summary hs, (isOrdered_table k m flows).sum_top hk]
    · have hle : 2 * m.sum flows ≤ greatestCount := Nat.le_of_lt_succ hroom
      have hsum : (m.total s).toNat = m.sum flows := by
        rw [htotal, hcount]
        omega
      rw [hsum, total_table _ m flows hle, total_table _ m flows hle, total_table _ m flows hle,
        total_table _ m flows hle, Measure.two_mul_sum]
      refine ⟨?_, ?_, rfl, rfl⟩
      · simp only [TrafficKind.labels, List.length_singleton, Nat.mul_one, Measure.sum]
      · simp only [TrafficKind.labels, List.length_singleton, Nat.mul_one, Measure.sum]

/-- A flow from a host to itself and one that names a single hardware address. -/
theorem traffic_conserved_toItself :
    let host := Net.IpAddress.v4 0xC0A80001#32
    let server := Net.IpAddress.v4 0xC0A80002#32
    let mac := some "02:00:00:00:00:01"
    let inner : FlowRecord :=
      { src := host, dst := host, srcPort := 40000, dstPort := 53, protocol := Protocol.udp
        tcpFlags := 0, packets := 7, bytes := 900, srcMac := mac, dstMac := mac }
    let outer : FlowRecord :=
      { src := host, dst := server, srcPort := 50000, dstPort := 443, protocol := Protocol.tcp
        tcpFlags := 0x12, packets := 3, bytes := 200, srcMac := mac, dstMac := some "" }
    2 * Measure.packets.sum [inner, outer] < 0x10000000000000000 ∧
      ∃ t s, (Tally.netflow t).summary ⟨0, 0⟩ 2 = .netflow s ∧ s.packets.toNat = 10 ∧
        t.flows.packets.total = 10 ∧ t.protocols.packets.total = 10 ∧ t.ips.packets.total = 20 ∧
        t.macs.packets.total = 17 ∧ (t.ips.packets.count host.toText).toNat = 17 ∧
        t.ips.packets.labels.length ≤ 2 ∧ (s.topIps.packets.map fun e => e.metric.toNat).sum = 20 := by
  intro host server mac inner outer
  have hroom : 2 * Measure.packets.sum [inner, outer] < 0x10000000000000000 := by decide
  obtain ⟨t, s, ht, hs, -, -, hmeasure⟩ := traffic_conserved [inner, outer] ⟨0, 0⟩ 2
  obtain ⟨htotal, hcount, hcounts, hlists, hsums⟩ := hmeasure .packets
  obtain ⟨hflows, hprotocols, hips, hmacs⟩ := hsums hroom
  have hpackets : (Measure.packets.total s).toNat = 10 := by
    rw [htotal, hcount]
    decide
  have hlabels : t.ips.packets.labels.length ≤ 2 := by
    cases ht
    decide
  refine ⟨hroom, t, s, hs, hpackets, hflows.trans hpackets, hprotocols.trans hpackets, ?_, hmacs, ?_,
    hlabels, ?_⟩
  · rw [hpackets] at hips
    exact hips
  · refine (hcounts .ip host.toText).trans ?_
    decide
  · refine (hlists .ip hlabels).trans ?_
    rw [hips, hpackets]

end FlowTally

end LogWatch.Report
