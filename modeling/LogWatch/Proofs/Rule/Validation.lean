import LogWatch.Proofs.Outcome
import LogWatch.Proofs.Rule.Evaluation
import LogWatch.Rule.Basic

/-!
# What validation guarantees

A rule is compiled in steps that were written apart: its selections, its condition, the walks of the
validation over the condition, and the evaluation.  Here is what they promise together.

* `Coherent` — a condition and the selections that it combines fit together;
* `isValid_iff` — the validation accepts them just when they do;
* `SelectionsAsk` — every test has been compiled with something to ask for;
* `ofDocument_coherent` — the rules that are compiled fit together, so they are never evaluated to a
  missing selection or to a selection that holds without a match.
-/

namespace LogWatch.Rule

/-! ## Names -/

/-- A name stands for something just when it is listed. -/
theorem mem_names_iff_find? {α : Type} {d : Dictionary α} {name : String} :
    name ∈ d.names ↔ ∃ a, d.find? name = some a := by
  induction d with
  | nil => simp [Dictionary.names, Dictionary.find?]
  | cons p d ih =>
    rw [Dictionary.names, List.map_cons, List.mem_cons, ← Dictionary.names, ih, Dictionary.find?]
    by_cases h : p.1 = name
    · simp [h]
    · simp [h, Ne.symm h]

theorem mem_names_iff_mem {α : Type} {d : Dictionary α} {name : String} :
    name ∈ d.names ↔ ∃ p ∈ d, p.1 = name := by
  rw [Dictionary.names, List.mem_map]

/-- An insertion adds nothing but the value that is inserted. -/
theorem mem_insert {α : Type} {d : Dictionary α} {name : String} {a : α} {p : String × α}
    (h : p ∈ d.insert name a) : p = (name, a) ∨ p ∈ d := by
  induction d with
  | nil => exact Or.inl (List.mem_singleton.1 h)
  | cons q d ih =>
    rw [Dictionary.insert] at h
    split at h
    · rcases List.mem_cons.1 h with rfl | h
      · exact Or.inl rfl
      · exact Or.inr (List.mem_cons_of_mem _ h)
    · split at h
      · exact List.mem_cons.1 h
      · rcases List.mem_cons.1 h with rfl | h
        · exact Or.inr List.mem_cons_self
        · exact (ih h).imp_right (List.mem_cons_of_mem _)

/-! ## Conditions and selections -/

/-- A condition and the selections that it combines fit together: the selections that it mentions are
there, some selection begins as it asks, and no selection has empty parts. -/
structure Coherent (selections : Dictionary Selection) (condition : Condition) : Prop where
  names : ∀ name, condition.Mentions name → ∃ s, selections.find? name = some s
  starts : ∀ start, condition.Quantifies (.startingWith start) →
    ∃ p ∈ selections, start.toList <+: p.1.toList
  full : ∀ p ∈ selections, p.2.IsFull

section Coherent

variable {selections : Dictionary Selection} {condition : Condition}

theorem startsWith_iff {start cs : List Char} : Text.startsWith start cs = true ↔ start <+: cs := by
  rw [Text.startsWith]
  induction start generalizing cs with
  | nil => simp [Text.dropStart?]
  | cons c start ih =>
    cases cs with
    | nil => simp [Text.dropStart?]
    | cons d cs =>
      rw [Text.dropStart?, List.cons_prefix_cons]
      split
      · rename_i heq
        rw [ih]
        exact ⟨fun h => ⟨heq, h⟩, fun h => h.2⟩
      · rename_i hne
        simp [hne]

theorem contains_startingWith {start name : String} :
    (SelectionSet.startingWith start).contains name = true ↔ start.toList <+: name.toList := by
  rw [SelectionSet.contains, startsWith_iff]

/-- Every set that a condition quantifies over has a selection in it. -/
theorem Coherent.exists_mem_set (h : Coherent selections condition) (hne : selections ≠ [])
    {set : SelectionSet} (hset : condition.Quantifies set) :
    ∃ p ∈ selections, set.contains p.1 = true := by
  cases set with
  | them =>
    obtain ⟨p, hp⟩ := List.exists_mem_of_ne_nil _ hne
    exact ⟨p, hp, rfl⟩
  | startingWith start =>
    obtain ⟨p, hp, hstart⟩ := h.starts start hset
    exact ⟨p, hp, contains_startingWith.2 hstart⟩
  | named name =>
    obtain ⟨p, hp, hname⟩ := mem_names_iff_mem.1 (mem_names_iff_find?.2 (h.names name (.inr hset)))
    exact ⟨p, hp, by simp [SelectionSet.contains, hname]⟩

theorem hollowSelections_eq_nil_iff :
    Report.hollowSelections selections = [] ↔ ∀ p ∈ selections, p.2.IsFull := by
  rw [Report.hollowSelections, List.map_eq_nil_iff, List.filter_eq_nil_iff]
  simp only [Selection.isFull_iff, Bool.not_eq_true]

theorem unknownNames_eq_nil_iff :
    Report.unknownNames selections condition = [] ↔
      ∀ name, condition.Mentions name → ∃ s, selections.find? name = some s := by
  rw [Report.unknownNames, List.map_eq_nil_iff, List.filter_eq_nil_iff]
  simp only [Condition.mem_names_iff, ← mem_names_iff_find?, Bool.not_eq_true, Bool.not_eq_false',
    List.contains_iff_mem]

theorem emptySet?_eq_none_iff {set : SelectionSet} :
    Report.emptySet? selections.names set = none ↔
      ∀ start, set = .startingWith start → ∃ p ∈ selections, start.toList <+: p.1.toList := by
  cases set with
  | them => simp [Report.emptySet?]
  | named name => simp [Report.emptySet?]
  | startingWith start =>
    have hany : selections.names.any (SelectionSet.startingWith start).contains = true ↔
        ∃ p ∈ selections, start.toList <+: p.1.toList := by
      simp [Dictionary.names, contains_startingWith]
    rw [Report.emptySet?]
    split
    · rename_i h
      simpa using hany.1 h
    · rename_i h
      simpa using mt hany.2 h

/-- The validation accepts selections and a condition just when they fit together. -/
theorem isValid_iff (hne : selections ≠ []) :
    (Report.ofDetection selections condition).isValid = true ↔ Coherent selections condition := by
  rw [Report.ofDetection, if_neg (by simpa using hne), Report.isValid]
  simp only [List.isEmpty_iff, List.append_eq_nil_iff, List.filterMap_eq_nil_iff,
    hollowSelections_eq_nil_iff, unknownNames_eq_nil_iff, emptySet?_eq_none_iff,
    Condition.mem_sets_iff]
  constructor
  · rintro ⟨⟨hfull, hnames⟩, hstarts⟩
    exact ⟨hnames, fun start h => hstarts _ h start rfl, hfull⟩
  · rintro ⟨hnames, hstarts, hfull⟩
    exact ⟨⟨hfull, hnames⟩, fun set h start heq => hstarts start (heq ▸ h)⟩

theorem ne_nil_of_isValid (h : (Report.ofDetection selections condition).isValid = true) :
    selections ≠ [] := by
  rintro rfl
  cases h

end Coherent

/-! ## Compilation -/

/-- Every test of every selection asks for something. -/
def SelectionsAsk (selections : Dictionary Selection) : Prop :=
  ∀ p ∈ selections, p.2.Asks

theorem FieldTest.asks_of_ofEntry {key : String} {value : Yaml} {t : FieldTest}
    (h : FieldTest.ofEntry key value = .ok t) : t.Asks := by
  rw [FieldTest.ofEntry] at h
  split at h
  · cases h
  · obtain ⟨m, -, h⟩ := bind_eq_ok h
    by_cases hpresence : m.presence = true
    · simp only [hpresence, if_true] at h
      split at h
      · cases h
        exact Or.inl ⟨_, rfl⟩
      · cases h
    · simp only [hpresence] at h
      by_cases hempty : (valuesOf value).isEmpty = true
      · simp only [hempty] at h
        cases h
      · simp only [hempty] at h
        obtain ⟨expected, hexpected, h⟩ := bind_eq_ok h
        cases h
        have hne : expected ≠ [] := by
          rw [← List.length_pos_iff, length_of_mapM_eq_ok hexpected, List.length_pos_iff]
          simpa using hempty
        refine Or.inr ?_
        cases m.all <;> exact hne

theorem Selection.asks_of_testsOf {name : String} {entries : List (Yaml × Yaml)}
    {tests : List FieldTest} (h : Selection.testsOf name entries = .ok tests) :
    ∀ t ∈ tests, t.Asks := by
  induction entries generalizing tests with
  | nil =>
    cases h
    exact List.forall_mem_nil _
  | cons entry entries ih =>
    rw [Selection.testsOf] at h
    split at h
    · cases h
    · obtain ⟨t, ht, h⟩ := bind_eq_ok h
      obtain ⟨rest, hrest, h⟩ := bind_eq_ok h
      cases h
      exact List.forall_mem_cons.2 ⟨FieldTest.asks_of_ofEntry ht, ih hrest⟩

theorem Selection.asks_of_groupsOf {name : String} {items : List Yaml}
    {groups : List (List FieldTest)} (h : Selection.groupsOf name items = .ok groups) :
    ∀ group ∈ groups, ∀ t ∈ group, t.Asks := by
  induction items generalizing groups with
  | nil =>
    cases h
    exact List.forall_mem_nil _
  | cons item items ih =>
    unfold Selection.groupsOf at h
    split at h
    · rename_i heq
      cases heq
    · rename_i heq
      cases heq
      obtain ⟨group, hgroup, h⟩ := bind_eq_ok h
      obtain ⟨rest, hrest, h⟩ := bind_eq_ok h
      cases h
      exact List.forall_mem_cons.2 ⟨asks_of_testsOf hgroup, ih hrest⟩
    · rename_i heq
      cases heq
      exact ih h

theorem Selection.asks_of_ofYaml {name : String} {body : Yaml} {s : Selection}
    (h : Selection.ofYaml name body = .ok s) : s.Asks := by
  unfold Selection.ofYaml at h
  split at h
  · obtain ⟨tests, htests, h⟩ := bind_eq_ok h
    cases h
    rw [Asks, List.forall_mem_singleton]
    exact asks_of_testsOf htests
  · split at h
    · obtain ⟨groups, hgroups, h⟩ := bind_eq_ok h
      cases h
      exact asks_of_groupsOf hgroups
    · obtain ⟨words, -, h⟩ := bind_eq_ok h
      cases h
      trivial
  · obtain ⟨word, -, h⟩ := bind_eq_ok h
    cases h
    trivial
  · obtain ⟨word, -, h⟩ := bind_eq_ok h
    cases h
    trivial
  · cases h

/-- Each entry of a detection block adds tests that ask for something. -/
theorem DetectionParts.selectionsAsk_of_ofEntries {parts parts' : DetectionParts}
    {entries : List (Yaml × Yaml)} (h : parts.ofEntries entries = .ok parts')
    (hparts : SelectionsAsk parts.selections) : SelectionsAsk parts'.selections := by
  induction entries generalizing parts with
  | nil =>
    cases h
    exact hparts
  | cons entry entries ih =>
    rw [DetectionParts.ofEntries] at h
    split at h
    · cases h
    · obtain ⟨text, -, h⟩ := bind_eq_ok h
      exact ih h hparts
    · cases h
    · split at h
      · cases h
      · rename_i s hs
        refine ih h fun p hp => ?_
        rcases mem_insert hp with rfl | hp
        · exact Selection.asks_of_ofYaml hs
        · exact hparts p hp

/-- What a detection block that has been compiled has gone through. -/
theorem Detection.isValid_of_ofEntries {entries : List (Yaml × Yaml)} {d : Detection}
    (h : Detection.ofEntries entries = .ok d) :
    SelectionsAsk d.selections ∧ (Report.ofDetection d.selections d.condition).isValid = true := by
  rw [Detection.ofEntries] at h
  obtain ⟨parts, hparts, h⟩ := bind_eq_ok h
  have hasks : SelectionsAsk parts.selections :=
    DetectionParts.selectionsAsk_of_ofEntries hparts (List.forall_mem_nil _)
  split at h
  · cases h
  · split at h
    · cases h
    · rename_i condition _
      by_cases hvalid : (Report.ofDetection parts.selections condition).isValid = true
      · simp only [hvalid, if_true] at h
        cases h
        exact ⟨hasks, hvalid⟩
      · simp only [hvalid] at h
        cases h

theorem DetectionRule.ofEntries_of_ofDocument {doc : RuleDocument} {fallback : String}
    {rule : DetectionRule} (h : DetectionRule.ofDocument doc fallback = .ok rule) :
    Detection.ofEntries doc.detection = .ok rule.detection := by
  rw [DetectionRule.ofDocument] at h
  split at h
  · cases h
  · obtain ⟨level, -, h⟩ := bind_eq_ok h
    obtain ⟨detection, hdetection, h⟩ := bind_eq_ok h
    cases h
    exact hdetection

/-! ## What a rule promises -/

/-- The condition and the selections of a rule fit together, every set that it quantifies over has a
selection in it, and every test asks for something.  So an evaluation never misses a selection, and a
selection holds only of a match.  On the other hand, the validation has nothing to say against
selections and a condition that fit together. -/
theorem ofDocument_coherent :
    (∀ (doc : RuleDocument) (fallback : String) (rule : DetectionRule),
      DetectionRule.ofDocument doc fallback = .ok rule →
      Coherent rule.detection.selections rule.detection.condition ∧
      (∀ set, rule.detection.condition.Quantifies set →
        ∃ p ∈ rule.detection.selections, set.contains p.1 = true) ∧
      SelectionsAsk rule.detection.selections ∧
      (∀ names fields name, rule.holds names fields ≠ .error (.unknownSelection name)) ∧
      (∀ names fields, ∀ p ∈ rule.detection.selections,
        p.2.holds names fields = .ok true → p.2.HasMatch names fields)) ∧
    ∀ (selections : Dictionary Selection) (condition : Condition), selections ≠ [] →
      Coherent selections condition → (Report.ofDetection selections condition).isValid = true := by
  refine ⟨?_, fun selections condition hne h => (isValid_iff hne).2 h⟩
  intro doc fallback rule h
  obtain ⟨hasks, hvalid⟩ := Detection.isValid_of_ofEntries (DetectionRule.ofEntries_of_ofDocument h)
  have hne := ne_nil_of_isValid hvalid
  have hcoherent := (isValid_iff hne).1 hvalid
  refine ⟨hcoherent, fun set hset => hcoherent.exists_mem_set hne hset, hasks, ?_, ?_⟩
  · intro names fields name hmissing
    obtain ⟨hpart, hnone⟩ := Condition.part_of_holds_eq_unknownSelection _ hmissing
    obtain ⟨s, hs⟩ := hcoherent.names name (.inl hpart)
    rw [hnone] at hs
    cases hs
  · intro names fields p hp hholds
    exact Selection.hasMatch_of_holds (hcoherent.full p hp) (hasks p hp) hholds

/-- A rule that asks for no login, by the beginning of the name of its only selection. -/
def noLogin : RuleDocument :=
  { title := "No login"
    id := some "no-login"
    status := none
    description := none
    level := none
    tags := []
    logSource := {}
    detection :=
      [(.str "login", .map [(.str "event", .str "logon")]),
        (.str "condition", .str "not all of log*")]
    falsePositives := [] }

theorem ofDocument_coherent_noLogin :
    ∃ rule, DetectionRule.ofDocument noLogin "" = .ok rule ∧
      Coherent rule.detection.selections rule.detection.condition ∧
      (∀ names fields name, rule.holds names fields ≠ .error (.unknownSelection name)) ∧
      (Report.ofDetection rule.detection.selections rule.detection.condition).isValid = true := by
  obtain ⟨rule, hrule⟩ : ∃ rule, DetectionRule.ofDocument noLogin "" = .ok rule :=
    exists_of_isOk (by decide +kernel)
  obtain ⟨hcoherent, hsets, -, hnames, -⟩ := ofDocument_coherent.1 noLogin "" rule hrule
  refine ⟨rule, hrule, hcoherent, hnames, ?_⟩
  have hne : rule.detection.selections ≠ [] :=
    ne_nil_of_isValid (Detection.isValid_of_ofEntries (DetectionRule.ofEntries_of_ofDocument hrule)).2
  exact ofDocument_coherent.2 _ _ hne hcoherent

end LogWatch.Rule
