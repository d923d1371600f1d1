import LogWatch.Proofs.Net.Addresses
import LogWatch.Proofs.Report.Tallies
import Mathlib.Data.Finset.Card
import Mathlib.Data.Sym.Sym2

/-!
# Conversations

A flow and its reversal belong to one conversation: apart from fumbles they count the same, and the label
of a conversation says between which two addresses it is and nothing else.

* `Flow.label_eq_iff` — two labels are equal when the addresses are the same two;
* `flowService_comm` — the service of a flow does not depend on its direction;
* `FlowTally.SameTraffic.add` — a flow and its reversal count the same;
* `FlowTally.labels_foldl` — the labels that flows have been counted under;
* `summaries_direction_free` — summaries of flows that are reversed in part.
-/

namespace LogWatch

open Net

/-- The flow in the other direction. -/
def FlowRecord.reverse (f : FlowRecord) : FlowRecord :=
  { f with
    src := f.dst
    dst := f.src
    srcPort := f.dstPort
    dstPort := f.srcPort
    srcMac := f.dstMac
    dstMac := f.srcMac }

namespace Report

/-! ## Labels -/

namespace Flow

theorem rank_injective : Function.Injective rank := by
  intro a b h
  cases a with
  | v4 a =>
    cases b with
    | v4 b =>
      simp only [rank, Prod.mk.injEq] at h
      rw [BitVec.eq_of_toNat_eq h.2.2]
    | v6 b => simp [rank] at h
  | v6 a =>
    cases b with
    | v4 b => simp [rank] at h
    | v6 b =>
      simp only [rank, Prod.mk.injEq] at h
      rw [BitVec.eq_of_toNat_eq h.2.2]

theorem rankLe_iff {a b : Nat × Nat × Nat} :
    rankLe a b = true ↔ a.1 < b.1 ∨ a.1 = b.1 ∧ (a.2.1 < b.2.1 ∨ a.2.1 = b.2.1 ∧ a.2.2 ≤ b.2.2) := by
  simp [rankLe]

theorem rankLe_total (a b : Nat × Nat × Nat) : rankLe a b = true ∨ rankLe b a = true := by
  rw [rankLe_iff, rankLe_iff]
  omega

theorem rankLe_antisymm {a b : Nat × Nat × Nat} (hab : rankLe a b = true) (hba : rankLe b a = true) :
    a = b := by
  rw [rankLe_iff] at hab hba
  refine Prod.ext ?_ (Prod.ext ?_ ?_) <;> omega

/-- Two addresses in the order of their label. -/
def ordered (a b : IpAddress) : IpAddress × IpAddress :=
  if rankLe (rank a) (rank b) then (a, b) else (b, a)

theorem ordered_comm (a b : IpAddress) : ordered a b = ordered b a := by
  rw [ordered, ordered]
  by_cases hab : rankLe (rank a) (rank b) = true
  · by_cases hba : rankLe (rank b) (rank a) = true
    · have heq : a = b := rank_injective (rankLe_antisymm hab hba)
      rw [heq]
    · rw [if_pos hab, if_neg hba]
  · rw [if_neg hab, if_pos ((rankLe_total _ _).resolve_left hab)]

theorem pair_ordered (a b : IpAddress) : s((ordered a b).1, (ordered a b).2) = s(a, b) := by
  rw [ordered]
  split
  · rfl
  · exact Sym2.eq_swap

theorem toList_label (a b : IpAddress) :
    (label a b).toList =
      (ordered a b).1.toText.toList ++ ' ' :: ("<-> ".toList ++ (ordered a b).2.toText.toList) := by
  have hlabel : label a b = (ordered a b).1.toText ++ " <-> " ++ (ordered a b).2.toText := rfl
  rw [hlabel, String.toList_append, String.toList_append, List.append_assoc]
  rfl

/-- A label has both directions. -/
theorem label_comm (a b : IpAddress) : label a b = label b a := by
  rw [← String.toList_inj, toList_label, toList_label, ordered_comm]

/-- A label tells the two addresses that it is for. -/
theorem label_eq_iff {a b c d : IpAddress} : label a b = label c d ↔ s(a, b) = s(c, d) := by
  constructor
  · intro h
    have htext := congrArg String.toList h
    rw [toList_label, toList_label] at htext
    obtain ⟨hfirst, hrest⟩ := Text.eq_of_append_cons_eq (IpAddress.not_mem_toText _)
      (IpAddress.not_mem_toText _) htext
    have hsecond := List.append_cancel_left hrest
    have hfst := IpAddress.toText_injective (String.toList_inj.1 hfirst)
    have hsnd := IpAddress.toText_injective (String.toList_inj.1 hsecond)
    rw [← pair_ordered a b, ← pair_ordered c d, hfst, hsnd]
  · intro h
    rcases Sym2.eq_iff.1 h with ⟨rfl, rfl⟩ | ⟨rfl, rfl⟩
    · rfl
    · exact label_comm a b

/-- The label of two addresses in no order. -/
def pairLabel : Sym2 IpAddress → String :=
  Sym2.lift ⟨label, label_comm⟩

theorem pairLabel_injective : Function.Injective pairLabel := by
  intro p q h
  induction p with
  | _ a b =>
    induction q with
    | _ c d => exact label_eq_iff.1 h

/-- The two addresses of a flow, in no order. -/
def addresses (f : FlowRecord) : Sym2 IpAddress :=
  s(f.src, f.dst)

end Flow

theorem max_port_comm (a b : UInt16) : max a b = max b a := by
  show (if a ≤ b then b else a) = if b ≤ a then a else b
  by_cases hab : a ≤ b
  · by_cases hba : b ≤ a
    · rw [if_pos hab, if_pos hba, UInt16.le_antisymm hab hba]
    · rw [if_pos hab, if_neg hba]
  · rw [if_neg hab, if_pos ((UInt16.le_total a b).resolve_left hab)]

/-- The service of a flow does not depend on its direction. -/
theorem flowService_comm (protocol : UInt8) (a b : UInt16) :
    flowService protocol a b = flowService protocol b a := by
  have hlow : min a b = min b a := Std.Commutative.comm a b
  rw [flowService, flowService, hlow, max_port_comm]

/-! ## Flows and their reversals -/

namespace FlowTally

/-- Tallies of the same traffic, whatever their fumbles. -/
structure SameTraffic (t t' : FlowTally) : Prop where
  packets : t'.packets = t.packets
  bytes : t'.bytes = t.bytes
  macs : t'.macs = t.macs
  ips : t'.ips = t.ips
  flows : t'.flows = t.flows
  protocols : t'.protocols = t.protocols

theorem SameTraffic.rfl {t : FlowTally} : t.SameTraffic t :=
  ⟨Eq.refl _, Eq.refl _, Eq.refl _, Eq.refl _, Eq.refl _, Eq.refl _⟩

/-- One flow more on both sides, on one of them reversed or not. -/
theorem SameTraffic.add {t t' : FlowTally} (h : t.SameTraffic t') {f g : FlowRecord}
    (hg : g = f ∨ g = f.reverse) : (t.add f).SameTraffic (t'.add g) := by
  rcases hg with rfl | rfl
  · constructor <;> simp only [FlowTally.add, h.packets, h.bytes, h.macs, h.ips, h.flows, h.protocols]
  · refine ⟨?_, ?_, ?_, ?_, ?_, ?_⟩ <;> simp only [FlowTally.add, FlowRecord.reverse]
    · rw [h.packets]
    · rw [h.bytes]
    · rw [h.macs, addMac_right_comm]
    · rw [h.ips, TrafficTally.add_right_comm]
    · rw [h.flows, Flow.label_comm]
    · rw [h.protocols, flowService_comm]

/-- Flows of which some are reversed bring the same traffic. -/
theorem SameTraffic.foldl {redirect : Nat → FlowRecord → FlowRecord}
    (hredirect : ∀ i f, redirect i f = f ∨ redirect i f = f.reverse) {flows : List FlowRecord}
    {t t' : FlowTally} (h : t.SameTraffic t') :
    (flows.foldl FlowTally.add t).SameTraffic ((flows.mapIdx redirect).foldl FlowTally.add t') := by
  induction flows generalizing redirect t t' with
  | nil => exact h
  | cons f flows ih =>
    rw [List.mapIdx_cons, List.foldl_cons, List.foldl_cons]
    exact ih (fun i => hredirect (i + 1)) (h.add (hredirect 0 f))

/-! ## The number of conversations -/

/-- The labels of conversations are those of the flows that have been counted, each once. -/
theorem labels_foldl (flows : List FlowRecord) :
    (flows.foldl FlowTally.add {}).flows.packets.IsOrdered ∧
      ∀ label, label ∈ (flows.foldl FlowTally.add {}).flows.packets.labels ↔
        ∃ f ∈ flows, Flow.pairLabel (Flow.addresses f) = label := by
  induction flows using List.reverseRecOn with
  | nil =>
    refine ⟨FrequencyTable.isOrdered_empty, fun label => ?_⟩
    simp [FrequencyTable.labels, Dictionary.names]
  | append_singleton flows f ih =>
    obtain ⟨hordered, hlabels⟩ := ih
    rw [List.foldl_append, List.foldl_cons, List.foldl_nil]
    refine ⟨hordered.add _ _, fun label => ?_⟩
    refine FrequencyTable.mem_labels_add.trans ?_
    rw [hlabels]
    constructor
    · rintro (rfl | ⟨g, hg, rfl⟩)
      · exact ⟨f, List.mem_append_right _ (List.mem_singleton_self f), rfl⟩
      · exact ⟨g, List.mem_append_left _ hg, rfl⟩
    · rintro ⟨g, hg, rfl⟩
      rcases List.mem_append.1 hg with hg | hg
      · exact Or.inr ⟨g, hg, rfl⟩
      · rw [List.mem_singleton.1 hg]
        exact Or.inl rfl

/-- There are as many conversations as pairs of addresses. -/
theorem length_labels_foldl (flows : List FlowRecord) :
    (flows.foldl FlowTally.add {}).flows.packets.labels.length =
      (flows.map Flow.addresses).toFinset.card := by
  obtain ⟨hordered, hlabels⟩ := labels_foldl flows
  have himage : (flows.foldl FlowTally.add {}).flows.packets.labels.toFinset =
      (flows.map Flow.addresses).toFinset.image Flow.pairLabel := by
    ext label
    simp [hlabels]
  rw [← List.toFinset_card_of_nodup hordered.nodup_labels, himage,
    Finset.card_image_of_injective _ Flow.pairLabel_injective]

end FlowTally

/-! ## Summaries of flows -/

theorem Tally.ofDetails_netflow (flows : List FlowRecord) :
    Tally.ofDetails .netflow (flows.map .netflow) = .netflow (flows.foldl FlowTally.add {}) := by
  induction flows using List.reverseRecOn with
  | nil => rfl
  | append_singleton flows f ih =>
    rw [List.map_append, List.map_singleton, ofDetails_concat, ih, List.foldl_append]
    rfl

/-- Some flows turned round: those whose places have been chosen. -/
def reverseAt (chosen : Finset Nat) (flows : List FlowRecord) : List FlowRecord :=
  flows.mapIdx fun i f => if i ∈ chosen then f.reverse else f

/-- The summary of flows that are reversed at any places is that of the flows themselves, except for what
it says of fumbles.  Labels of conversations are equal when they are for the same two addresses, and so the
number of conversations is that of the pairs of addresses. -/
theorem summaries_direction_free :
    (∀ (flows : List FlowRecord) (chosen : Finset Nat) (time : Time.Instant) (n : Nat),
      ∃ s fumbles topFumbles,
        (Tally.ofDetails .netflow (flows.map .netflow)).summary time n = .netflow s ∧
        (Tally.ofDetails .netflow ((reverseAt chosen flows).map .netflow)).summary time n =
          .netflow { s with fumbles := fumbles, topFumbles := topFumbles } ∧
        s.flows = UInt64.ofNat (flows.map Flow.addresses).toFinset.card ∧
        (flows.length ≤ greatestCount →
          s.flows.toNat = (flows.map Flow.addresses).toFinset.card)) ∧
      ∀ a b c d : IpAddress, Flow.label a b = Flow.label c d ↔ s(a, b) = s(c, d) := by
  constructor
  · intro flows chosen time n
    have hsame : (flows.foldl FlowTally.add {}).SameTraffic
        ((reverseAt chosen flows).foldl FlowTally.add {}) := by
      refine FlowTally.SameTraffic.foldl (fun i f => ?_) FlowTally.SameTraffic.rfl
      by_cases h : i ∈ chosen
      · exact Or.inr (if_pos h)
      · exact Or.inl (if_neg h)
    have hpairs := FlowTally.length_labels_foldl flows
    have hle : (flows.map Flow.addresses).toFinset.card ≤ flows.length := by
      rw [← List.length_map (f := Flow.addresses)]
      exact List.toFinset_card_le _
    rw [Tally.ofDetails_netflow, Tally.ofDetails_netflow]
    generalize (reverseAt chosen flows).foldl FlowTally.add {} = t' at hsame ⊢
    refine ⟨_, t'.fumbles.distinct, t'.fumbles.top n, rfl, ?_, ?_, fun hroom => ?_⟩
    · simp only [Tally.summary, hsame.packets, hsame.bytes, hsame.macs, hsame.ips, hsame.flows,
        hsame.protocols]
    · rw [← hpairs, FrequencyTable.length_labels]
      rfl
    · rw [← hpairs] at hle ⊢
      exact FrequencyTable.distinct_toNat (Nat.le_trans hle hroom)
  · exact fun a b c d => Flow.label_eq_iff

/-- A request and its answer are one conversation, also when the answer is taken for a request. -/
theorem summaries_direction_free_answered :
    let host := IpAddress.v4 0xC0A80001#32
    let server := IpAddress.v6 0x20010DB8000000000000000000000001#128
    let request : FlowRecord :=
      { src := host, dst := server, srcPort := 50000, dstPort := 443, protocol := Protocol.tcp
        tcpFlags := 0x12, packets := 9, bytes := 1200, srcMac := some "02:00:00:00:00:01"
        dstMac := none }
    let answer : FlowRecord := { request.reverse with packets := 14, bytes := 9000 }
    [request, answer].length ≤ greatestCount ∧ Flow.label host server = Flow.label server host ∧
      ∃ s fumbles topFumbles,
        (Tally.ofDetails .netflow ([request, answer].map .netflow)).summary ⟨0, 0⟩ 10 = .netflow s ∧
        (Tally.ofDetails .netflow ((reverseAt {1} [request, answer]).map .netflow)).summary ⟨0, 0⟩ 10 =
          .netflow { s with fumbles := fumbles, topFumbles := topFumbles } ∧
        s.flows.toNat = 1 := by
  intro host server request answer
  have hroom : [request, answer].length ≤ greatestCount := by decide
  obtain ⟨hfree, hlabel⟩ := summaries_direction_free
  obtain ⟨s, fumbles, topFumbles, hs, hs', -, hcount⟩ :=
    hfree [request, answer] {1} ⟨0, 0⟩ 10
  refine ⟨hroom, (hlabel ..).2 Sym2.eq_swap, s, fumbles, topFumbles, hs, hs', ?_⟩
  rw [hcount hroom]
  decide

end Report

end LogWatch
