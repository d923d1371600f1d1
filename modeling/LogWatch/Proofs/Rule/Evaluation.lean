import LogWatch.Proofs.Condition.Parts
import LogWatch.Rule.Selection

/-!
# The evaluation of conditions

What an evaluation can fail with, and what makes a selection hold.

* `Condition.part_of_holds_eq_unknownSelection` — an evaluation misses only a selection that the
  condition uses and that is not there;
* `Selection.hasMatch_of_holds` — a selection without empty parts holds only of a match.
-/

namespace LogWatch.Rule

/-! ## Tests one after the other -/

section Chains

variable {α : Type} {test : α → Except EvalError Bool} {as : List α}

theorem exists_of_allHold_eq_error {e : EvalError} (h : allHold test as = .error e) :
    ∃ a ∈ as, test a = .error e := by
  induction as with
  | nil => cases h
  | cons a as ih =>
    rw [allHold] at h
    split at h
    · rename_i fault hfault
      cases h
      exact ⟨a, List.mem_cons_self, hfault⟩
    · cases h
    · obtain ⟨b, hb, hfault⟩ := ih h
      exact ⟨b, List.mem_cons_of_mem _ hb, hfault⟩

theorem exists_of_anyHolds_eq_error {e : EvalError} (h : anyHolds test as = .error e) :
    ∃ a ∈ as, test a = .error e := by
  induction as with
  | nil => cases h
  | cons a as ih =>
    rw [anyHolds] at h
    split at h
    · rename_i fault hfault
      cases h
      exact ⟨a, List.mem_cons_self, hfault⟩
    · cases h
    · obtain ⟨b, hb, hfault⟩ := ih h
      exact ⟨b, List.mem_cons_of_mem _ hb, hfault⟩

theorem forall_of_allHold (h : allHold test as = .ok true) : ∀ a ∈ as, test a = .ok true := by
  induction as with
  | nil => simp
  | cons a as ih =>
    rw [allHold] at h
    split at h
    · cases h
    · cases h
    · rename_i ha
      exact List.forall_mem_cons.2 ⟨ha, ih h⟩

theorem exists_of_anyHolds (h : anyHolds test as = .ok true) : ∃ a ∈ as, test a = .ok true := by
  induction as with
  | nil => cases h
  | cons a as ih =>
    rw [anyHolds] at h
    split at h
    · cases h
    · rename_i ha
      exact ⟨a, List.mem_cons_self, ha⟩
    · obtain ⟨b, hb, hholds⟩ := ih h
      exact ⟨b, List.mem_cons_of_mem _ hb, hholds⟩

end Chains

/-! ## Missing selections -/

section Missing

variable {names : FieldNames} {fields : FieldMap} {name : String}

theorem meets_ne_unknownSelection (field : String) (v : FieldValue) (e : Expected) :
    FieldTest.meets field v e ≠ .error (.unknownSelection name) := by
  cases v <;> exact nofun

theorem FieldTest.holds_ne_unknownSelection (t : FieldTest) :
    t.holds names fields ≠ .error (.unknownSelection name) := by
  intro h
  simp only [holds] at h
  split at h
  · cases h
  · split at h
    · cases h
    · obtain ⟨e, -, he⟩ := exists_of_anyHolds_eq_error h
      exact meets_ne_unknownSelection _ _ _ he
  · split at h
    · cases h
    · obtain ⟨e, -, he⟩ := exists_of_allHold_eq_error h
      exact meets_ne_unknownSelection _ _ _ he

/-- No selection speaks of selections. -/
theorem Selection.holds_ne_unknownSelection (s : Selection) :
    s.holds names fields ≠ .error (.unknownSelection name) := by
  intro h
  cases s with
  | keywords words => cases h
  | groups tests =>
    obtain ⟨group, -, hgroup⟩ := exists_of_anyHolds_eq_error h
    obtain ⟨t, -, ht⟩ := exists_of_allHold_eq_error hgroup
    exact t.holds_ne_unknownSelection ht

end Missing

namespace Condition

mutual

/-- An evaluation misses a selection only if the expression uses it and it is not there. -/
theorem part_of_holds_eq_unknownSelection {selections : Dictionary Selection} {names : FieldNames}
    {fields : FieldMap} {name : String} : (c : Condition) →
    holds selections names fields c = .error (.unknownSelection name) →
    Part (.selection name) c ∧ selections.find? name = none
  | .selection other, h => by
    rw [holds] at h
    split at h
    · exact absurd h (Selection.holds_ne_unknownSelection _)
    · rename_i hnone
      cases h
      exact ⟨.self _, hnone⟩
  | .not c, h => by
    rw [holds] at h
    split at h
    · rename_i fault hfault
      cases h
      obtain ⟨hpart, hnone⟩ := part_of_holds_eq_unknownSelection c hfault
      exact ⟨.not hpart, hnone⟩
    · cases h
  | .and cs, h => by
    rw [holds] at h
    obtain ⟨c, hc, hpart, hnone⟩ := part_of_holdAll_eq_unknownSelection cs h
    exact ⟨.and hc hpart, hnone⟩
  | .or cs, h => by
    rw [holds] at h
    obtain ⟨c, hc, hpart, hnone⟩ := part_of_holdsAny_eq_unknownSelection cs h
    exact ⟨.or hc hpart, hnone⟩
  | .oneOf set, h => by
    rw [holds] at h
    obtain ⟨s, -, hs⟩ := exists_of_anyHolds_eq_error h
    exact absurd hs s.holds_ne_unknownSelection
  | .allOf set, h => by
    rw [holds] at h
    split at h
    · cases h
    · obtain ⟨s, -, hs⟩ := exists_of_allHold_eq_error h
      exact absurd hs s.holds_ne_unknownSelection

theorem part_of_holdAll_eq_unknownSelection {selections : Dictionary Selection}
    {names : FieldNames} {fields : FieldMap} {name : String} : (cs : List Condition) →
    holdAll selections names fields cs = .error (.unknownSelection name) →
    ∃ c ∈ cs, Part (.selection name) c ∧ selections.find? name = none
  | [], h => by rw [holdAll] at h; cases h
  | c :: cs, h => by
    rw [holdAll] at h
    split at h
    · rename_i fault hfault
      cases h
      exact ⟨c, List.mem_cons_self, part_of_holds_eq_unknownSelection c hfault⟩
    · cases h
    · obtain ⟨d, hd, hmissing⟩ := part_of_holdAll_eq_unknownSelection cs h
      exact ⟨d, List.mem_cons_of_mem _ hd, hmissing⟩

theorem part_of_holdsAny_eq_unknownSelection {selections : Dictionary Selection}
    {names : FieldNames} {fields : FieldMap} {name : String} : (cs : List Condition) →
    holdsAny selections names fields cs = .error (.unknownSelection name) →
    ∃ c ∈ cs, Part (.selection name) c ∧ selections.find? name = none
  | [], h => by rw [holdsAny] at h; cases h
  | c :: cs, h => by
    rw [holdsAny] at h
    split at h
    · rename_i fault hfault
      cases h
      exact ⟨c, List.mem_cons_self, part_of_holds_eq_unknownSelection c hfault⟩
    · cases h
    · obtain ⟨d, hd, hmissing⟩ := part_of_holdsAny_eq_unknownSelection cs h
      exact ⟨d, List.mem_cons_of_mem _ hd, hmissing⟩

end

end Condition

/-! ## Matches -/

/-- The values that a test expects, of which a test for presence has none. -/
def FieldTest.expected (t : FieldTest) : List Expected :=
  match t.demand with
  | .presence _ => []
  | .anyOf values | .allOf values => values

/-- A test asks for something: whether the field is there, or for a value. -/
def FieldTest.Asks (t : FieldTest) : Prop :=
  (∃ b, t.demand = .presence b) ∨ t.expected ≠ []

/-- The field is there, or is not, as a test asks, or a value that the test expects has been met. -/
def FieldTest.IsMet (t : FieldTest) (names : FieldNames) (fields : FieldMap) : Prop :=
  (∃ b, t.demand = .presence b ∧ (names.resolve? fields t.field).isSome = b) ∨
  ∃ e ∈ t.expected, match names.resolve? fields t.field with
    | none => e.isNull = true
    | some v => meets t.field v e = .ok true

/-- A test that asks for something passes only if it has been met. -/
theorem FieldTest.isMet_of_holds {t : FieldTest} {names : FieldNames} {fields : FieldMap}
    (ht : t.Asks) (h : t.holds names fields = .ok true) : t.IsMet names fields := by
  obtain ⟨field, demand⟩ := t
  simp only [holds] at h
  cases demand with
  | presence b =>
    have hfound : (names.resolve? fields field).isSome = b := by simpa using h
    exact Or.inl ⟨b, rfl, hfound⟩
  | anyOf values =>
    refine Or.inr ?_
    cases hfound : names.resolve? fields field with
    | none =>
      rw [hfound] at h
      obtain ⟨e, he, hnull⟩ := List.any_eq_true.1 (Except.ok.inj h)
      exact ⟨e, he, hnull⟩
    | some v =>
      rw [hfound] at h
      exact exists_of_anyHolds h
  | allOf values =>
    refine Or.inr ?_
    cases hfound : names.resolve? fields field with
    | none =>
      rw [hfound] at h
      obtain ⟨e, he, hnull⟩ := List.any_eq_true.1 (Except.ok.inj h)
      exact ⟨e, he, hnull⟩
    | some v =>
      rw [hfound] at h
      -- Without values the demand would be met by anything.
      rcases ht with ⟨b, hb⟩ | hne
      · cases hb
      · obtain ⟨e, he⟩ := List.exists_mem_of_ne_nil _ hne
        exact ⟨e, he, forall_of_allHold h e he⟩

namespace Selection

/-- Every group of a selection has a test, and its list of keywords a keyword. -/
def IsFull : Selection → Prop
  | .groups tests => ∀ group ∈ tests, group ≠ []
  | .keywords words => words ≠ []

/-- Every test of a selection asks for something. -/
def Asks : Selection → Prop
  | .groups tests => ∀ group ∈ tests, ∀ t ∈ group, t.Asks
  | .keywords _ => True

/-- A test of the selection passes and has been met, or one of its keywords occurs. -/
def HasMatch (s : Selection) (names : FieldNames) (fields : FieldMap) : Prop :=
  match s with
  | .groups tests => ∃ group ∈ tests, ∃ t ∈ group,
      t.holds names fields = .ok true ∧ t.IsMet names fields
  | .keywords words => ∃ w ∈ words, occursInFields w fields = true

/-- A selection without empty parts holds only of what it matches. -/
theorem hasMatch_of_holds {s : Selection} {names : FieldNames} {fields : FieldMap}
    (hfull : s.IsFull) (hasks : s.Asks) (h : s.holds names fields = .ok true) :
    s.HasMatch names fields := by
  cases s with
  | keywords words => exact List.any_eq_true.1 (Except.ok.inj h)
  | groups tests =>
    obtain ⟨group, hgroup, hall⟩ := exists_of_anyHolds h
    obtain ⟨t, ht⟩ := List.exists_mem_of_ne_nil _ (hfull group hgroup)
    have hholds := forall_of_allHold hall t ht
    exact ⟨group, hgroup, t, ht, hholds, FieldTest.isMet_of_holds (hasks group hgroup t ht) hholds⟩

theorem isFull_iff {s : Selection} : s.IsFull ↔ s.isHollow = false := by
  cases s with
  | keywords words => simp [IsFull, isHollow]
  | groups tests => simp [IsFull, isHollow]

end Selection

end LogWatch.Rule
