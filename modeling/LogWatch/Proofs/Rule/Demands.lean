import LogWatch.Proofs.Outcome
import LogWatch.Proofs.Rule.Evaluation
import LogWatch.Proofs.Text.Pieces
import Mathlib.Data.List.Basic

/-!
# Several values of one field

An entry of a selection may list several values, any or all of which are expected of its field.  It is
compared here with the entries that list one of these values each.

* `FieldTest.ofEntry_eq_ok_iff` — the test that an entry spells, if it does not ask for presence;
* `FieldTest.listed_values_tested_one_by_one` — any of the values is met if one of the single tests
  holds, and all of them are if all single tests hold; but a missing field, which meets nothing but
  null, passes for meeting all values as soon as null is one of them.
-/

namespace LogWatch

namespace Rule

/-! ## Keys -/

namespace FieldTest

/-- The parts of a key between its bars. -/
def partsOf (key : String) : List String :=
  (Text.splitOn '|' key.toList).map String.ofList

/-- The field that a key names. -/
def fieldOf (key : String) : String :=
  (partsOf key).headD ""

/-- The modifiers that a key lists. -/
def wordsOf (key : String) : List String :=
  (partsOf key).drop 1

theorem partsOf_all (key : String) : partsOf (key ++ "|all") = partsOf key ++ ["all"] := by
  have hkey : (key ++ "|all").toList = key.toList ++ '|' :: ['a', 'l', 'l'] := by simp
  have hall : Text.splitOn '|' ['a', 'l', 'l'] = [['a', 'l', 'l']] := by decide
  rw [partsOf, hkey, Text.splitOn_append_cons, hall, List.map_append]
  rfl

theorem exists_partsOf (key : String) : ∃ field words, partsOf key = field :: words := by
  apply List.exists_cons_of_ne_nil
  simp [partsOf, Text.splitOn_ne_nil]

@[simp] theorem fieldOf_all (key : String) : fieldOf (key ++ "|all") = fieldOf key := by
  obtain ⟨field, words, hparts⟩ := exists_partsOf key
  simp [fieldOf, partsOf_all, hparts]

@[simp] theorem wordsOf_all (key : String) : wordsOf (key ++ "|all") = wordsOf key ++ ["all"] := by
  obtain ⟨field, words, hparts⟩ := exists_partsOf key
  simp [wordsOf, partsOf_all, hparts]

end FieldTest

/-! ## Modifiers -/

namespace Modifiers

variable {field : String}

theorem ofWords_cons_eq_ok_iff {m n : Modifiers} {word : String} {words : List String} :
    ofWords field m (word :: words) = .ok n ↔ ∃ k, m.add? word = some k ∧ ofWords field k words = .ok n := by
  rw [ofWords]
  cases h : m.add? word <;> simp

/-- A word adds what it stands for and leaves the rest alone. -/
theorem add?_flags {m n : Modifiers} {word : String} (h : m.add? word = some n) :
    n.presence = (m.presence || word == "exists") ∧ n.all = (m.all || word == "all") := by
  unfold add? at h
  split at h <;> cases h <;> simp

/-- The flags that some words set. -/
theorem ofWords_flags {m n : Modifiers} {words : List String} (h : ofWords field m words = .ok n) :
    n.presence = (m.presence || words.contains "exists") ∧ n.all = (m.all || words.contains "all") := by
  induction words generalizing m with
  | nil =>
    cases h
    simp
  | cons word words ih =>
    obtain ⟨k, hword, hrest⟩ := ofWords_cons_eq_ok_iff.1 h
    obtain ⟨hpresence, hall⟩ := add?_flags hword
    obtain ⟨hpresence', hall'⟩ := ih hrest
    rw [hpresence', hall', hpresence, hall, List.contains_cons, List.contains_cons, Bool.or_assoc,
      Bool.or_assoc, Bool.beq_comm (a := word), Bool.beq_comm (a := word)]
    exact ⟨rfl, rfl⟩

/-- The word for all values changes nothing else. -/
theorem ofWords_all_eq_ok_iff {m n : Modifiers} {words : List String} :
    ofWords field m (words ++ ["all"]) = .ok n ↔
      ∃ k, ofWords field m words = .ok k ∧ n = { k with all := true } := by
  induction words generalizing m with
  | nil =>
    have hall : ofWords field m ["all"] = .ok { m with all := true } := rfl
    rw [List.nil_append, hall]
    simp [ofWords, eq_comm]
  | cons word words ih =>
    simp only [List.cons_append, ofWords_cons_eq_ok_iff, ih]
    constructor
    · rintro ⟨k, hword, l, hrest, hn⟩
      exact ⟨l, ⟨k, hword, hrest⟩, hn⟩
    · rintro ⟨l, ⟨k, hword, hrest⟩, hn⟩
      exact ⟨k, hword, l, hrest, hn⟩

end Modifiers

/-! ## Entries -/

/-- The demand for any or all of some values. -/
def Demand.ofValues (all : Bool) (values : List Expected) : Demand :=
  if all then .allOf values else .anyOf values

namespace FieldTest

/-- What an entry is compiled to, said of the parts of its key. -/
theorem ofEntry_eq (key : String) (value : Yaml) :
    ofEntry key value =
      if (fieldOf key).isEmpty then .error (.emptyField key)
      else
        Modifiers.ofWords (fieldOf key) {} (wordsOf key) >>= fun m =>
          if m.presence then
            (match value.bool? with
              | some expected => .ok ⟨fieldOf key, .presence expected⟩
              | none => .error (.presenceNotBool (fieldOf key)))
          else if (valuesOf value).isEmpty then .error (.noValues (fieldOf key))
          else
            Expected.ofValues m.comparison (valuesOf value) >>= fun expected =>
              .ok ⟨fieldOf key, .ofValues m.all expected⟩ :=
  rfl

/-- The test that an entry spells, unless it asks for presence. -/
theorem ofEntry_eq_ok_iff {key : String} {value : Yaml} {t : FieldTest}
    (hwords : "exists" ∉ wordsOf key) :
    ofEntry key value = .ok t ↔
      (fieldOf key).isEmpty = false ∧ (valuesOf value).isEmpty = false ∧
        ∃ m expected, Modifiers.ofWords (fieldOf key) {} (wordsOf key) = .ok m ∧
          Expected.ofValues m.comparison (valuesOf value) = .ok expected ∧
          t = ⟨fieldOf key, .ofValues m.all expected⟩ := by
  have hpresence : ∀ m, Modifiers.ofWords (fieldOf key) {} (wordsOf key) = .ok m →
      m.presence = false := by
    intro m hm
    simpa [hwords] using (Modifiers.ofWords_flags hm).1
  rw [ofEntry_eq]
  constructor
  · intro h
    by_cases hfield : (fieldOf key).isEmpty = true
    · rw [if_pos hfield] at h
      cases h
    rw [if_neg hfield] at h
    obtain ⟨m, hm, h⟩ := bind_eq_ok h
    rw [hpresence m hm] at h
    by_cases hvalues : (valuesOf value).isEmpty = true
    · simp only [hvalues] at h
      cases h
    simp only [hvalues] at h
    obtain ⟨expected, hexpected, h⟩ := bind_eq_ok h
    cases h
    exact ⟨by simpa using hfield, by simpa using hvalues, m, expected, hm, hexpected, rfl⟩
  · rintro ⟨hfield, hvalues, m, expected, hm, hexpected, rfl⟩
    simp [hfield, hvalues, hm, hexpected, hpresence m hm, bind, Except.bind]

end FieldTest

/-! ## Values -/

/-- What can be expected is no list, so that it is the only value of an entry of its own. -/
theorem FieldTest.valuesOf_eq_singleton {comparison : Comparison} {v : Yaml} {e : Expected}
    (h : Expected.ofYaml comparison v = .ok e) : valuesOf v = [v] := by
  cases v with
  | seq items => cases h
  | _ => rfl

theorem Expected.isNull_ofText {comparison : Comparison} {pattern : String} {e : Expected}
    (h : ofText comparison pattern = .ok e) : e.isNull = false := by
  unfold ofText at h
  split at h
  · split at h <;> cases h
    rfl
  · simp only at h
    split at h <;> cases h <;> rfl

/-- Null is expected just where it is written. -/
theorem Expected.isNull_iff {comparison : Comparison} {v : Yaml} {e : Expected}
    (h : ofYaml comparison v = .ok e) : e.isNull = true ↔ v = .null := by
  cases v with
  | null =>
    cases h
    simp [isNull]
  | bool b =>
    simp only [ofYaml] at h
    split at h
    · cases h
      simp [isNull]
    · simp [isNull_ofText h]
  | number n =>
    simp only [ofYaml] at h
    split at h
    · cases h
      simp [isNull]
    · simp [isNull_ofText h]
  | str s => simp [isNull_ofText h]
  | seq items => cases h
  | map entries => cases h
  | tagged tag v => cases h

/-! ## Evaluation -/

section Evaluation

variable {α : Type} {test : α → Except EvalError Bool}

/-- Where no test fails, all hold if their values say so. -/
theorem allHold_eq_all {met : α → Bool} (h : ∀ a, test a = .ok (met a)) (as : List α) :
    allHold test as = .ok (as.all met) := by
  induction as with
  | nil => rfl
  | cons a as ih =>
    rw [allHold, h a]
    cases hmet : met a <;> simp [hmet, ih]

theorem anyHolds_eq_any {met : α → Bool} (h : ∀ a, test a = .ok (met a)) (as : List α) :
    anyHolds test as = .ok (as.any met) := by
  induction as with
  | nil => rfl
  | cons a as ih =>
    rw [anyHolds, h a]
    cases hmet : met a <;> simp [hmet, ih]

end Evaluation

namespace FieldTest

section Answers

variable {names : FieldNames} {fields : FieldMap} {field : String}

theorem holds_of_missing (h : names.resolve? fields field = none) (all : Bool)
    (values : List Expected) :
    (mk field (.ofValues all values)).holds names fields = .ok (values.any Expected.isNull) := by
  cases all <;> simp [holds, Demand.ofValues, h]

/-- A map meets nothing: the first value fails already. -/
theorem holds_of_map {inner : List (String × FieldValue)}
    (h : names.resolve? fields field = some (.map inner)) (all : Bool) {values : List Expected}
    (hvalues : values ≠ []) :
    (mk field (.ofValues all values)).holds names fields =
      .error (.unsupportedType field "map") := by
  obtain ⟨e, rest, rfl⟩ := List.exists_cons_of_ne_nil hvalues
  cases all <;> simp [holds, Demand.ofValues, h, allHold, anyHolds, meets, FieldValue.kind]

/-- Any other value meets each expectation or does not. -/
theorem exists_meets_eq {v : FieldValue} (h : ∀ inner, v ≠ .map inner) (field : String) :
    ∃ met : Expected → Bool, ∀ e, meets field v e = .ok (met e) := by
  cases v with
  | map inner => exact absurd rfl (h inner)
  | list items => exact ⟨fun e => items.any e.holds, fun _ => rfl⟩
  | null => exact ⟨fun e => e.holds .null, fun _ => rfl⟩
  | bool b => exact ⟨fun e => e.holds (.bool b), fun _ => rfl⟩
  | number x => exact ⟨fun e => e.holds (.number x), fun _ => rfl⟩
  | text s => exact ⟨fun e => e.holds (.text s), fun _ => rfl⟩

/-- A missing field, a map and any other value answer each in a way of their own. -/
theorem answers (names : FieldNames) (fields : FieldMap) (field : String) :
    (names.resolve? fields field = none ∧ ∀ all values,
      (mk field (.ofValues all values)).holds names fields = .ok (values.any Expected.isNull)) ∨
    (names.resolve? fields field ≠ none ∧ ∃ fault, ∀ all values, values ≠ [] →
      (mk field (.ofValues all values)).holds names fields = .error fault) ∨
    (names.resolve? fields field ≠ none ∧ ∃ met : Expected → Bool, ∀ all values,
      (mk field (.ofValues all values)).holds names fields =
        .ok (if all then values.all met else values.any met)) := by
  cases hfound : names.resolve? fields field with
  | none => exact .inl ⟨rfl, holds_of_missing hfound⟩
  | some v =>
    right
    by_cases hmap : ∃ inner, v = .map inner
    · obtain ⟨inner, rfl⟩ := hmap
      exact .inl ⟨nofun, _, fun all values => holds_of_map hfound all⟩
    · obtain ⟨met, hmet⟩ := exists_meets_eq (fun inner h => hmap ⟨inner, h⟩) field
      refine .inr ⟨nofun, met, ?_⟩
      intro all values
      cases all
      · simp [holds, Demand.ofValues, hfound, anyHolds_eq_any hmet]
      · simp [holds, Demand.ofValues, hfound, allHold_eq_all hmet]

variable {values : List Expected} (hvalues : values ≠ []) (single : Bool)

include hvalues

theorem holds_any_iff :
    (mk field (.ofValues false values)).holds names fields = .ok true ↔
      ∃ e ∈ values, (mk field (.ofValues single [e])).holds names fields = .ok true := by
  rcases answers names fields field with ⟨-, h⟩ | ⟨-, fault, h⟩ | ⟨-, met, h⟩
  · simp [h]
  · simp [h _ _ hvalues, h _ _ (List.cons_ne_nil _ _)]
  · simp [h]

/-- A missing field passes for meeting all values as soon as null is one of them. -/
theorem holds_all_iff :
    (mk field (.ofValues true values)).holds names fields = .ok true ↔
      (∀ e ∈ values, (mk field (.ofValues single [e])).holds names fields = .ok true) ∨
        names.resolve? fields field = none ∧ values.any Expected.isNull = true := by
  obtain ⟨first, hfirst⟩ := List.exists_mem_of_ne_nil values hvalues
  rcases answers names fields field with ⟨hmissing, h⟩ | ⟨hfound, fault, h⟩ | ⟨hfound, met, h⟩
  · have hone : (∀ e ∈ values, e.isNull = true) → ∃ e ∈ values, e.isNull = true :=
      fun hnull => ⟨first, hfirst, hnull first hfirst⟩
    simpa [h, hmissing] using hone
  · simpa [h _ _ hvalues, h _ _ (List.cons_ne_nil _ _), hfound] using ⟨first, hfirst⟩
  · simp [h, hfound]

theorem holds_eq_error_iff (all : Bool) (fault : EvalError) :
    (mk field (.ofValues all values)).holds names fields = .error fault ↔
      ∀ e ∈ values, (mk field (.ofValues single [e])).holds names fields = .error fault := by
  obtain ⟨first, hfirst⟩ := List.exists_mem_of_ne_nil values hvalues
  rcases answers names fields field with ⟨-, h⟩ | ⟨-, fault', h⟩ | ⟨-, met, h⟩
  · simpa [h] using ⟨first, hfirst⟩
  · have hsame : fault' = fault ↔ ∀ e ∈ values, fault' = fault :=
      ⟨fun hfault _ _ => hfault, fun hall => hall first hfirst⟩
    simpa [h _ _ hvalues, h _ _ (List.cons_ne_nil _ _)] using hsame
  · simpa [h] using ⟨first, hfirst⟩

end Answers

/-- A single test that fails fails for every value. -/
theorem holds_singleton_eq_error {names : FieldNames} {fields : FieldMap} {field : String}
    {single : Bool} {d e : Expected} {fault : EvalError}
    (h : (mk field (.ofValues single [d])).holds names fields = .error fault) :
    (mk field (.ofValues single [e])).holds names fields = .error fault := by
  rcases answers names fields field with ⟨-, hall⟩ | ⟨-, fault', hall⟩ | ⟨-, met, hall⟩
  · simp [hall] at h
  · rwa [hall _ _ (List.cons_ne_nil _ _)] at h ⊢
  · simp [hall] at h

end FieldTest

/-! ## One by one -/

namespace FieldTest

/-- Null is among some expectations just where it is among the values. -/
theorem any_isNull_iff {comparison : Comparison} {vs : List Yaml} {expected : List Expected}
    (h : Expected.ofValues comparison vs = .ok expected) :
    expected.any Expected.isNull = true ↔ Yaml.null ∈ vs := by
  induction mapM_eq_ok_iff.1 h with
  | nil => simp
  | cons he hrest ih =>
    rw [List.any_cons, Bool.or_eq_true, ih (mapM_eq_ok_iff.2 hrest), Expected.isNull_iff he,
      List.mem_cons, eq_comm]

/-- The single tests of some values that can be expected. -/
theorem mapM_ofEntry_eq_ok {key : String} (hwords : "exists" ∉ wordsOf key)
    (hfield : (fieldOf key).isEmpty = false) {m : Modifiers}
    (hm : Modifiers.ofWords (fieldOf key) {} (wordsOf key) = .ok m) {vs : List Yaml}
    {expected : List Expected} (hexpected : Expected.ofValues m.comparison vs = .ok expected) :
    vs.mapM (ofEntry key) =
      .ok (expected.map fun e => ⟨fieldOf key, .ofValues m.all [e]⟩) := by
  apply mapM_eq_ok_map hexpected
  intro v e he
  have hone : Expected.ofValues m.comparison [v] = .ok [e] := by
    simp [Expected.ofValues, he]
  rw [ofEntry_eq_ok_iff hwords, valuesOf_eq_singleton he]
  exact ⟨hfield, rfl, m, [e], hm, hone, rfl⟩

/-- Values that are all expected of a field can be expected of it one by one, and so can any of them.
The test for any of them holds if a single test does, the test for all of them if all single tests do
or, where the field is missing, if null is one of the values; and both fail just when the single tests
fail, which then fail together. -/
theorem listed_values_tested_one_by_one {key : String} {vs : List Yaml} {every : FieldTest}
    (hwords : "exists" ∉ wordsOf key) (hevery : ofEntry (key ++ "|all") (.seq vs) = .ok every) :
    ∃ any singles, ofEntry key (.seq vs) = .ok any ∧ vs.mapM (ofEntry key) = .ok singles ∧
      ∀ names fields,
        ("all" ∉ wordsOf key →
          (any.holds names fields = .ok true ↔ ∃ t ∈ singles, t.holds names fields = .ok true)) ∧
        (every.holds names fields = .ok true ↔
          (∀ t ∈ singles, t.holds names fields = .ok true) ∨
            names.resolve? fields (fieldOf key) = none ∧ Yaml.null ∈ vs) ∧
        ∀ fault,
          (every.holds names fields = .error fault ↔
            ∀ t ∈ singles, t.holds names fields = .error fault) ∧
          (any.holds names fields = .error fault ↔
            ∀ t ∈ singles, t.holds names fields = .error fault) ∧
          ((∃ t ∈ singles, t.holds names fields = .error fault) →
            ∀ t ∈ singles, t.holds names fields = .error fault) := by
  have hwordsAll : "exists" ∉ wordsOf (key ++ "|all") := by simpa using hwords
  obtain ⟨hfield, hvalues, n, expected, hn, hexpected, rfl⟩ :=
    (ofEntry_eq_ok_iff hwordsAll).1 hevery
  rw [fieldOf_all] at hfield hn
  rw [wordsOf_all, Modifiers.ofWords_all_eq_ok_iff] at hn
  obtain ⟨m, hm, rfl⟩ := hn
  have hany := (ofEntry_eq_ok_iff hwords).2 ⟨hfield, hvalues, m, expected, hm, hexpected, rfl⟩
  have hsingles := mapM_ofEntry_eq_ok hwords hfield hm hexpected
  have hne : expected ≠ [] := by
    rw [← List.length_pos_iff, length_of_mapM_eq_ok hexpected, List.length_pos_iff]
    simpa using hvalues
  have hnull := any_isNull_iff hexpected
  refine ⟨_, _, hany, hsingles, ?_⟩
  intro names fields
  simp only [fieldOf_all, List.mem_map, exists_exists_and_eq_and, forall_exists_index, and_imp,
    forall_apply_eq_imp_iff₂]
  refine ⟨?_, ?_, ?_⟩
  · intro hall
    have hplain : m.all = false := by simpa [hall] using (Modifiers.ofWords_flags hm).2
    rw [hplain]
    exact holds_any_iff hne false
  · rw [holds_all_iff hne m.all, hnull]
    rfl
  · intro fault
    refine ⟨holds_eq_error_iff hne m.all true fault, holds_eq_error_iff hne m.all m.all fault, ?_⟩
    intro d _ hd e _
    exact holds_singleton_eq_error hd

/-- A record without the field passes for having both null and a text there, and not for the text. -/
theorem missing_field_passes_for_null_and_root :
    ∃ every singles, ofEntry "user|all" (.seq [.null, .str "root"]) = .ok every ∧
      [Yaml.null, .str "root"].mapM (ofEntry "user") = .ok singles ∧
        every.holds {} [] = .ok true ∧ ¬ ∀ t ∈ singles, t.holds {} [] = .ok true := by
  have hwords : "exists" ∉ wordsOf "user" := by decide
  have hevery : ofEntry ("user" ++ "|all") (.seq [.null, .str "root"]) =
      .ok ⟨"user", .allOf [.null, .text "root"]⟩ := by
    rfl
  obtain ⟨any, singles, -, hsingles, hlaw⟩ := listed_values_tested_one_by_one hwords hevery
  have hone : [Yaml.null, .str "root"].mapM (ofEntry "user") =
      .ok [⟨"user", .anyOf [.null]⟩, ⟨"user", .anyOf [.text "root"]⟩] := by
    rfl
  cases hone.symm.trans hsingles
  obtain ⟨-, hall, -⟩ := hlaw {} []
  have hmissing : FieldNames.resolve? {} [] (fieldOf "user") = none := by
    rfl
  refine ⟨_, _, hevery, hone, hall.2 (.inr ⟨hmissing, by simp⟩), ?_⟩
  intro h
  have hroot : (mk "user" (.anyOf [.text "root"])).holds {} [] = .ok false := by
    rfl
  rw [h _ (by simp)] at hroot
  cases hroot

end FieldTest

end Rule

end LogWatch
