import LogWatch.Rule.Condition

/-!
# The parts of a condition

What a condition is made of, at any depth, and that the walks over conditions reach all of it.

* `Part` — a condition occurs in another one;
* `mem_names_iff` — the names that a walk collects are those that some part mentions;
* `mem_sets_iff` — and so are the sets.
-/

namespace LogWatch.Rule.Condition

/-- An expression occurs in another one, however deep. -/
inductive Part : Condition → Condition → Prop
  | self (c : Condition) : Part c c
  | not {d c : Condition} : Part d c → Part d (.not c)
  | and {d c : Condition} {cs : List Condition} : c ∈ cs → Part d c → Part d (.and cs)
  | or {d c : Condition} {cs : List Condition} : c ∈ cs → Part d c → Part d (.or cs)

/-- An expression quantifies over a set. -/
def Quantifies (c : Condition) (set : SelectionSet) : Prop :=
  Part (.oneOf set) c ∨ Part (.allOf set) c

/-- An expression mentions a name, on its own or after a quantifier. -/
def Mentions (c : Condition) (name : String) : Prop :=
  Part (.selection name) c ∨ c.Quantifies (.named name)

/-! ## Leaves -/

/-- The expressions that have no parts but themselves. -/
inductive Leaf : Condition → Prop
  | selection (name : String) : Leaf (.selection name)
  | oneOf (set : SelectionSet) : Leaf (.oneOf set)
  | allOf (set : SelectionSet) : Leaf (.allOf set)

theorem Leaf.part_iff {d c : Condition} (hc : Leaf c) : Part d c ↔ d = c := by
  constructor
  · intro h
    cases h with
    | self => rfl
    | not => cases hc
    | and => cases hc
    | or => cases hc
  · rintro rfl
    exact .self _

theorem Leaf.part_not_iff {d c : Condition} (hd : Leaf d) : Part d (.not c) ↔ Part d c := by
  constructor
  · intro h
    cases h with
    | self => cases hd
    | not h => exact h
  · exact .not

theorem Leaf.part_and_iff {d : Condition} (hd : Leaf d) {cs : List Condition} :
    Part d (.and cs) ↔ ∃ c ∈ cs, Part d c := by
  constructor
  · intro h
    cases h with
    | self => cases hd
    | and hmem h => exact ⟨_, hmem, h⟩
  · rintro ⟨c, hmem, h⟩
    exact .and hmem h

theorem Leaf.part_or_iff {d : Condition} (hd : Leaf d) {cs : List Condition} :
    Part d (.or cs) ↔ ∃ c ∈ cs, Part d c := by
  constructor
  · intro h
    cases h with
    | self => cases hd
    | or hmem h => exact ⟨_, hmem, h⟩
  · rintro ⟨c, hmem, h⟩
    exact .or hmem h

/-! ## Sets -/

theorem quantifies_not_iff {c : Condition} {set : SelectionSet} :
    (not c).Quantifies set ↔ c.Quantifies set := by
  rw [Quantifies, (Leaf.oneOf set).part_not_iff, (Leaf.allOf set).part_not_iff, Quantifies]

theorem quantifies_and_iff {cs : List Condition} {set : SelectionSet} :
    (and cs).Quantifies set ↔ ∃ c ∈ cs, c.Quantifies set := by
  rw [Quantifies, (Leaf.oneOf set).part_and_iff, (Leaf.allOf set).part_and_iff, ← exists_or]
  simp only [← and_or_left, Quantifies]

theorem quantifies_or_iff {cs : List Condition} {set : SelectionSet} :
    (or cs).Quantifies set ↔ ∃ c ∈ cs, c.Quantifies set := by
  rw [Quantifies, (Leaf.oneOf set).part_or_iff, (Leaf.allOf set).part_or_iff, ← exists_or]
  simp only [← and_or_left, Quantifies]

theorem not_quantifies_selection {name : String} {set : SelectionSet} :
    ¬ (selection name).Quantifies set := by
  rw [Quantifies, (Leaf.selection name).part_iff, (Leaf.selection name).part_iff]
  rintro (h | h) <;> cases h

theorem quantifies_oneOf_iff {set other : SelectionSet} :
    (oneOf set).Quantifies other ↔ other = set := by
  rw [Quantifies, (Leaf.oneOf set).part_iff, (Leaf.oneOf set).part_iff]
  simp

theorem quantifies_allOf_iff {set other : SelectionSet} :
    (allOf set).Quantifies other ↔ other = set := by
  rw [Quantifies, (Leaf.allOf set).part_iff, (Leaf.allOf set).part_iff]
  simp

mutual

/-- The walk collects the sets that a part quantifies over, and no others. -/
theorem mem_sets_iff {set : SelectionSet} : (c : Condition) → (set ∈ c.sets ↔ c.Quantifies set)
  | .selection name => by
    rw [sets]
    simp [not_quantifies_selection]
  | .not c => by rw [sets, mem_sets_iff c, quantifies_not_iff]
  | .and cs => by rw [sets, mem_setsOfAll_iff cs, quantifies_and_iff]
  | .or cs => by rw [sets, mem_setsOfAll_iff cs, quantifies_or_iff]
  | .oneOf set => by rw [sets, List.mem_singleton, quantifies_oneOf_iff]
  | .allOf set => by rw [sets, List.mem_singleton, quantifies_allOf_iff]

theorem mem_setsOfAll_iff {set : SelectionSet} :
    (cs : List Condition) → (set ∈ setsOfAll cs ↔ ∃ c ∈ cs, c.Quantifies set)
  | [] => by simp [setsOfAll]
  | c :: cs => by
    rw [setsOfAll, List.mem_append, mem_sets_iff c, mem_setsOfAll_iff cs]
    simp

end

/-! ## Names -/

theorem mentions_not_iff {c : Condition} {name : String} :
    (not c).Mentions name ↔ c.Mentions name := by
  rw [Mentions, (Leaf.selection name).part_not_iff, quantifies_not_iff, Mentions]

theorem mentions_and_iff {cs : List Condition} {name : String} :
    (and cs).Mentions name ↔ ∃ c ∈ cs, c.Mentions name := by
  rw [Mentions, (Leaf.selection name).part_and_iff, quantifies_and_iff, ← exists_or]
  simp only [← and_or_left, Mentions]

theorem mentions_or_iff {cs : List Condition} {name : String} :
    (or cs).Mentions name ↔ ∃ c ∈ cs, c.Mentions name := by
  rw [Mentions, (Leaf.selection name).part_or_iff, quantifies_or_iff, ← exists_or]
  simp only [← and_or_left, Mentions]

theorem mentions_selection_iff {name other : String} :
    (selection name).Mentions other ↔ other = name := by
  rw [Mentions, (Leaf.selection name).part_iff]
  simp [not_quantifies_selection]

theorem mem_setName_iff {set : SelectionSet} {name : String} :
    name ∈ setName set ↔ .named name = set := by
  cases set <;> simp [setName]

theorem mentions_oneOf_iff {set : SelectionSet} {name : String} :
    (oneOf set).Mentions name ↔ name ∈ setName set := by
  rw [Mentions, (Leaf.oneOf set).part_iff, quantifies_oneOf_iff, mem_setName_iff]
  simp

theorem mentions_allOf_iff {set : SelectionSet} {name : String} :
    (allOf set).Mentions name ↔ name ∈ setName set := by
  rw [Mentions, (Leaf.allOf set).part_iff, quantifies_allOf_iff, mem_setName_iff]
  simp

mutual

/-- The walk collects the names that a part mentions, and no others. -/
theorem mem_names_iff {name : String} : (c : Condition) → (name ∈ c.names ↔ c.Mentions name)
  | .selection other => by rw [names, List.mem_singleton, mentions_selection_iff]
  | .not c => by rw [names, mem_names_iff c, mentions_not_iff]
  | .and cs => by rw [names, mem_namesOfAll_iff cs, mentions_and_iff]
  | .or cs => by rw [names, mem_namesOfAll_iff cs, mentions_or_iff]
  | .oneOf set => by rw [names, mentions_oneOf_iff]
  | .allOf set => by rw [names, mentions_allOf_iff]

theorem mem_namesOfAll_iff {name : String} :
    (cs : List Condition) → (name ∈ namesOfAll cs ↔ ∃ c ∈ cs, c.Mentions name)
  | [] => by simp [namesOfAll]
  | c :: cs => by
    rw [namesOfAll, List.mem_append, mem_names_iff c, mem_namesOfAll_iff cs]
    simp

end

end LogWatch.Rule.Condition
