import LogWatch.Event.Codec
import LogWatch.Proofs.Json.Fields
import LogWatch.Record.Codec
import LogWatch.Report.Summary
import Mathlib.Tactic.MkIffOfInductiveProp

/-!
# Stored values read back

Records, summaries and events are stored as objects whose variant is named by a tag.  What is written is
read as the same value, if its doubles are finite and the texts of its times, addresses and identifiers
are read as what they stand for; and nothing is ever read as another variant than it was written from.

* `Leaves` — the parts of a value on which reading it back depends;
* `RecordDetail.ofJson?_toJson_iff`, `LogRecord.ofJson?_toJson_iff`, `Summary.ofJson?_toJson_iff`,
  `NotifyEvent.ofJson?_toJson_iff` — a value is read back just when its leaves are;
* `stored_values_read_back` — all of them, and that variants are kept.
-/

namespace LogWatch

open Json

/-! ## Leaves -/

/-- The parts of a value that are written in texts of their own, and its doubles. -/
structure Leaves where
  times : List Time.Instant := []
  addresses : List Net.IpAddress := []
  ids : List EventId := []
  floats : List Float := []

/-- Each text is read as what it was written from, and each double is finite. -/
@[mk_iff]
structure Leaves.ReadBack (l : Leaves) : Prop where
  times : ∀ t ∈ l.times, Time.Instant.ofText? t.toText = some t
  addresses : ∀ a ∈ l.addresses, Net.IpAddress.ofText? a.toText = some a
  ids : ∀ id ∈ l.ids, EventId.ofText? id.toText = some id
  floats : ∀ x ∈ l.floats, Number.isFinite x = true

/-- The leaves of a detail: those of flows are addresses, those of samples are doubles. -/
def RecordDetail.leaves : RecordDetail → Leaves
  | .netflow flow => { addresses := [flow.src, flow.dst] }
  | .monitor cpu memory load disk netBytes => { floats := [cpu, memory, load, disk, netBytes] }
  | _ => {}

def LogRecord.leaves (r : LogRecord) : Leaves :=
  match r.detail with
  | some d => { d.leaves with times := r.time :: d.leaves.times }
  | none => { times := [r.time] }

/-- The leaves of a summary: its time, and the doubles of a summary of samples. -/
def Summary.leaves (s : Summary) : Leaves where
  times := [s.time]
  floats :=
    match s with
    | .monitor _ => s.vector
    | _ => []

def NotifyEvent.leaves (e : NotifyEvent) : Leaves where
  times := [e.time]
  ids := [e.id]
  floats := e.score.toList

/-- What holds of all that the rest of a computation gives holds of all that the computation gives. -/
theorem forall_mem_bind {α β : Type} {P : β → Prop} {x : Option α} {f : α → Option β}
    (h : ∀ a, ∀ b ∈ f a, P b) : ∀ b ∈ x >>= f, P b := by
  intro b hb
  obtain ⟨a, -, hab⟩ := Option.bind_eq_some_iff.1 hb
  exact h a b hab

/-! ## Names -/

@[simp] theorem SourceType.ofCode?_code (s : SourceType) : ofCode? s.code = some s := by
  cases s <;> decide

@[simp] theorem SourceType.ofJson?_toJson (s : SourceType) : ofJson? s.toJson = some s :=
  SourceType.ofCode?_code s

@[simp] theorem Level.ofJson?_toJson (l : Level) : ofJson? l.toJson = some l := by
  cases l <;> decide

@[simp] theorem DetectionKind.ofJson?_name (k : DetectionKind) : ofJson? (.str k.name) = some k := by
  cases k <;> rfl

/-! ## Details -/

theorem FlowRecord.ofJson?_toJson_iff (f : FlowRecord) :
    ofJson? f.toJson = some f ↔
      Net.IpAddress.ofText? f.src.toText = some f.src ∧
        Net.IpAddress.ofText? f.dst.toText = some f.dst := by
  unfold ofJson? toJson
  rw [fields?_obj []]
  · cases f
    simp [members, Option.bind_eq_some_iff]
  · rfl
  · decide

namespace RecordDetail

theorem isReadable_members (d : RecordDetail) : isReadableMembers d.members = true := by
  cases d <;> simp [members, FlowRecord.members, isReadableMembers, isReadable]

theorem kind_not_mem_names (d : RecordDetail) : "kind" ∉ d.members.map (·.1) := by
  cases d <;> simp [members, FlowRecord.members]

/-- The kind in front says how the members are read. -/
theorem ofJson?_toJson (d : RecordDetail) :
    ofJson? d.toJson = ofFields? d.source (.obj d.members) := by
  have htag := tagged?_obj (v := d.source.code) d.isReadable_members d.kind_not_mem_names
  unfold ofJson? toJson SourceType.toJson
  rw [htag]
  simp

/-- The members of a detail are read as the detail. -/
theorem ofFields?_members_iff (d : RecordDetail) :
    ofFields? d.source (.obj d.members) = some d ↔ d.leaves.ReadBack := by
  cases d with
  | netflow flow =>
    show (FlowRecord.ofJson? flow.toJson).map netflow = some (netflow flow) ↔ _
    simp [leaves, Leaves.readBack_iff, FlowRecord.ofJson?_toJson_iff]
  | _ =>
    rw [source, ofFields?, fields?_obj []]
    · simp [members, leaves, Leaves.readBack_iff, Option.bind_eq_some_iff]
    · rfl
    · decide

theorem ofJson?_toJson_iff (d : RecordDetail) :
    ofJson? d.toJson = some d ↔ d.leaves.ReadBack := by
  rw [ofJson?_toJson, ofFields?_members_iff]

/-- Members are read as a detail of the source that they are read for. -/
theorem source_of_ofFields? (source : SourceType) (j : Json) :
    ∀ d ∈ ofFields? source j, d.source = source := by
  cases source with
  | netflow =>
    intro d hd
    obtain ⟨flow, -, rfl⟩ := Option.map_eq_some_iff.1 hd
    rfl
  | _ =>
    simp only [ofFields?]
    apply forall_mem_bind
    intro fields
    split
    · repeat
        apply forall_mem_bind
        intro _
      rintro d ⟨⟩
      rfl
    · rintro d ⟨⟩

end RecordDetail

/-! ## Records -/

namespace LogRecord

theorem optional?_toJson (d : RecordDetail) :
    optional? RecordDetail.ofJson? (some d.toJson) = (RecordDetail.ofJson? d.toJson).map some :=
  rfl

/-- An absent detail is left out, and read as absent. -/
theorem ofJson?_toJson_iff (r : LogRecord) : ofJson? r.toJson = some r ↔ r.leaves.ReadBack := by
  obtain ⟨time, sourceType, source, body, detail⟩ := r
  unfold ofJson? toJson
  cases detail with
  | none =>
    rw [fields?_obj ["detail"]]
    · simp [leaves, Leaves.readBack_iff, Option.bind_eq_some_iff]
    · rfl
    · decide
  | some d =>
    rw [fields?_obj []]
    · simp [leaves, Leaves.readBack_iff, Option.bind_eq_some_iff, optional?_toJson,
        RecordDetail.ofJson?_toJson_iff, and_assoc]
    · rfl
    · decide

end LogRecord

/-! ## Summaries -/

@[simp] theorem TopEntry.ofJson?_toJson (e : TopEntry) : ofJson? e.toJson = some e := by
  unfold ofJson? toJson
  rw [fields?_obj []]
  · simp
  · rfl
  · decide

@[simp] theorem topOfJson?_topToJson (top : List TopEntry) : topOfJson? (topToJson top) = some top :=
  list?_map TopEntry.ofJson?_toJson top

@[simp] theorem u64?_countToJson (n : UInt64) : u64? (countToJson n) = some n :=
  u64?_ofNat n

@[simp] theorem isReadable_topToJson (top : List TopEntry) : (topToJson top).isReadable = true :=
  isReadableList_map (fun _ => rfl) top

@[simp] theorem isReadable_countToJson (n : UInt64) : (countToJson n).isReadable = true :=
  rfl

namespace Summary

theorem isReadable_members (s : Summary) : isReadableMembers s.members = true := by
  cases s <;> simp [members, isReadableMembers]

theorem type_not_mem_names (s : Summary) : "type" ∉ s.members.map (·.1) := by
  cases s <;> simp [members]

/-- The type in front says how the members are read. -/
theorem ofJson?_toJson (s : Summary) : ofJson? s.toJson = ofFields? s.source (.obj s.members) := by
  have htag := tagged?_obj (v := s.source.code) s.isReadable_members s.type_not_mem_names
  unfold ofJson? toJson
  rw [htag]
  simp

theorem counts?_bind {α : Type} (c : SeverityCounts) (f : SeverityCounts → Option α) :
    (counts? (some (countToJson c.normal)) (some (countToJson c.warn))
      (some (countToJson c.error)) >>= f) = f c := by
  simp [counts?]

/-- The members of a summary are read as the summary. -/
theorem ofFields?_members_iff (s : Summary) :
    ofFields? s.source (.obj s.members) = some s ↔ s.leaves.ReadBack := by
  cases s with
  | monitor s =>
    rw [source, ofFields?, fields?_obj []]
    · cases s
      simp [members, leaves, time, vector, Leaves.readBack_iff, Option.bind_eq_some_iff]
    · rfl
    · decide
  | _ s =>
    rw [source, ofFields?, fields?_obj []]
    · rw [Option.bind_eq_bind, Option.bind_some]
      simp only [members, List.map_cons, List.map_nil, List.append_nil]
      -- counts and lists are read one by one, so that only the time is left
      simp only [↓counts?_bind, ↓required?_bind (u64?_countToJson _),
        ↓required?_bind (topOfJson?_topToJson _)]
      cases s
      simp [leaves, time, Leaves.readBack_iff, Option.bind_eq_some_iff]
    · rfl
    · decide

theorem ofJson?_toJson_iff (s : Summary) : ofJson? s.toJson = some s ↔ s.leaves.ReadBack := by
  rw [ofJson?_toJson, ofFields?_members_iff]

/-- Members are read as a summary of the source that they are read for. -/
theorem source_of_ofFields? (source : SourceType) (j : Json) :
    ∀ s ∈ ofFields? source j, s.source = source := by
  cases source
  all_goals
    simp only [ofFields?]
    apply forall_mem_bind
    intro fields
    split
    · repeat
        apply forall_mem_bind
        intro _
      rintro s ⟨⟩
      rfl
    · rintro s ⟨⟩

end Summary

/-! ## Events -/

@[simp] theorem EventId.ofJson?_toText (id : EventId) : ofJson? (.str id.toText) = ofText? id.toText := by
  rw [ofJson?, str?_str, Option.bind_some]

namespace NotifyEvent

@[simp] theorem list?_tags (tags : List String) : list? str? (.arr (tags.map .str)) = some tags := by
  have hitem : ∀ tag, str? (.str tag) = some tag := str?_str
  apply list?_map hitem

/-- An absent score is left out, and read as absent. -/
theorem ofJson?_toJson_iff (e : NotifyEvent) : ofJson? e.toJson = some e ↔ e.leaves.ReadBack := by
  obtain ⟨id, time, kind, source, ruleId, level, title, tags, body, score⟩ := e
  unfold ofJson? toJson
  cases score with
  | none =>
    rw [fields?_obj ["score"]]
    · simp [members, leaves, Leaves.readBack_iff, Option.bind_eq_some_iff, and_comm]
    · rfl
    · decide
  | some x =>
    rw [fields?_obj []]
    · simp [members, leaves, Leaves.readBack_iff, Option.bind_eq_some_iff, and_left_comm]
    · rfl
    · decide

end NotifyEvent

/-! ## Variants -/

/-- Nothing is read as a detail of another source than it was written from. -/
theorem RecordDetail.source_of_ofJson? {d e : RecordDetail} (h : ofJson? d.toJson = some e) :
    e.source = d.source := by
  rw [ofJson?_toJson] at h
  exact source_of_ofFields? d.source _ e h

theorem Summary.source_of_ofJson? {s t : Summary} (h : ofJson? s.toJson = some t) :
    t.source = s.source := by
  rw [ofJson?_toJson] at h
  exact source_of_ofFields? s.source _ t h

/-- A record, a summary or an event that has been stored is read as the same value just when its leaves
are, and neither a detail nor a summary is ever read as one of another source. -/
theorem stored_values_read_back :
    (∀ r : LogRecord, LogRecord.ofJson? r.toJson = some r ↔ r.leaves.ReadBack) ∧
    (∀ s : Summary, Summary.ofJson? s.toJson = some s ↔ s.leaves.ReadBack) ∧
    (∀ e : NotifyEvent, NotifyEvent.ofJson? e.toJson = some e ↔ e.leaves.ReadBack) ∧
    (∀ d e : RecordDetail, RecordDetail.ofJson? d.toJson = some e → e.source = d.source) ∧
    (∀ s t : Summary, Summary.ofJson? s.toJson = some t → t.source = s.source) := by
  refine ⟨LogRecord.ofJson?_toJson_iff, Summary.ofJson?_toJson_iff, NotifyEvent.ofJson?_toJson_iff,
    ?_, ?_⟩
  · intro d e h
    exact RecordDetail.source_of_ofJson? h
  · intro s t h
    exact Summary.source_of_ofJson? h

/-- A flow between addresses of both families, with one hardware address. -/
def flowRecord : LogRecord where
  time := ⟨1709510400, 5000000⟩
  sourceType := .netflow
  source := "10.0.0.1"
  body := "\x7b\x7d"
  detail := some (.netflow
    { src := .v4 0x0A000001#32
      dst := .v6 0x20010DB8000000000000000000000001#128
      srcPort := 65535
      dstPort := 443
      protocol := 6
      tcpFlags := 63
      packets := 0xFFFFFFFFFFFFFFFF
      bytes := 0
      srcMac := some "00:00:5e:00:53:01"
      dstMac := none })

/-- A window of samples, one of which is no whole number. -/
def sampleSummary : Summary :=
  .monitor ⟨⟨-1, 999999999⟩, 0.5, 0, 1, 2, 3, 60⟩

/-- Both are read back, the flow as a flow and the samples as samples. -/
theorem stored_values_read_back_flowAndSamples :
    LogRecord.ofJson? flowRecord.toJson = some flowRecord ∧
      Summary.ofJson? sampleSummary.toJson = some sampleSummary ∧
      ∀ s, Summary.ofJson? sampleSummary.toJson = some s → s.source = .monitor := by
  have hflow : flowRecord.leaves.ReadBack :=
    ⟨by decide +kernel, by decide +kernel, by decide +kernel, by decide +kernel⟩
  have hsamples : sampleSummary.leaves.ReadBack :=
    ⟨by decide +kernel, by decide +kernel, by decide +kernel, by decide +kernel⟩
  obtain ⟨records, summaries, -, -, variants⟩ := stored_values_read_back
  exact ⟨(records flowRecord).2 hflow, (summaries sampleSummary).2 hsamples,
    variants sampleSummary⟩

end LogWatch
