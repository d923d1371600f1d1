import LogWatch.Rule.Condition
import LogWatch.Rule.Matcher

/-!
# Selections

A selection is a named part of a rule: field tests that must all hold, a list of such groups of which
one must hold, or keywords of which one must occur in some field.

* `Selection.holds` — does a record have what a selection describes?
* `Selection.ofYaml` — the selection that a value describes, or its fault;
* `Condition.holds` — does the expression over some selections hold of a record?
-/

namespace LogWatch.Rule

/-- What a part of a rule selects. -/
inductive Selection where
  | groups (tests : List (List FieldTest))
  | keywords (words : List Expected)

namespace Selection

/-! ## Evaluation -/

mutual

/-- Does a keyword occur in a value, however deep in lists and maps? -/
def occursIn (word : Expected) : FieldValue → Bool
  | .list items => occursInItems word items
  | .map fields => occursInFields word fields
  | .null => word.holds .null
  | .bool b => word.holds (.bool b)
  | .number x => word.holds (.number x)
  | .text s => word.holds (.text s)

/-- Does a keyword occur in one of some values? -/
def occursInItems (word : Expected) : List FieldValue → Bool
  | [] => false
  | v :: rest => occursIn word v || occursInItems word rest

/-- Does a keyword occur in one of some fields? -/
def occursInFields (word : Expected) : List (String × FieldValue) → Bool
  | [] => false
  | (_, v) :: rest => occursIn word v || occursInFields word rest

end

/-- Does a record have what the selection describes? -/
def holds (s : Selection) (names : FieldNames) (fields : FieldMap) : Except EvalError Bool :=
  match s with
  | .groups tests => anyHolds (allHold fun t => t.holds names fields) tests
  | .keywords words => .ok (words.any fun w => occursInFields w fields)

/-- Does the selection describe nothing, at least in part? -/
def isHollow : Selection → Bool
  | .groups tests => tests.any List.isEmpty
  | .keywords words => words.isEmpty

/-! ## Compilation -/

/-- The tests that the entries of a mapping spell. -/
def testsOf (name : String) : List (Yaml × Yaml) → Except SelectionFault (List FieldTest)
  | [] => .ok []
  | (key, value) :: rest =>
    match key.str? with
    | none => .error (.fieldNotText name)
    | some key => do
      let test ← FieldTest.ofEntry key value
      let tests ← testsOf name rest
      return test :: tests

/-- The groups that a list of mappings spells.  A mapping with a tag of its own describes nothing. -/
def groupsOf (name : String) : List Yaml → Except SelectionFault (List (List FieldTest))
  | [] => .ok []
  | .map entries :: rest => do
    let group ← testsOf name entries
    let groups ← groupsOf name rest
    return group :: groups
  | _ :: rest => groupsOf name rest

/-- The selection that a value describes. -/
def ofYaml (name : String) (body : Yaml) : Except SelectionFault Selection :=
  match body with
  | .map entries => do return .groups [← testsOf name entries]
  | .seq items =>
    if items.all Yaml.isMap && !items.isEmpty then do return .groups (← groupsOf name items)
    else do return .keywords (← Expected.ofValues .contains items)
  | .str s => do return .keywords [← Expected.ofYaml .contains (.str s)]
  | .number n => do return .keywords [← Expected.ofYaml .contains (.number n)]
  | other => .error (.unusableBody name other)

end Selection

namespace Condition

/-- The selections of a set, in the order of their names. -/
def members (set : SelectionSet) (selections : Dictionary Selection) : List Selection :=
  (selections.filter fun p => set.contains p.1).map (·.2)

mutual

/-- Does the expression hold of a record?  Operands are tried from left to right, and no further than
the answer is open. -/
def holds (selections : Dictionary Selection) (names : FieldNames) (fields : FieldMap) :
    Condition → Except EvalError Bool
  | .selection name =>
    match selections.find? name with
    | some s => s.holds names fields
    | none => .error (.unknownSelection name)
  | .not c =>
    match holds selections names fields c with
    | .error e => .error e
    | .ok b => .ok (!b)
  | .and cs => holdAll selections names fields cs
  | .or cs => holdsAny selections names fields cs
  | .oneOf set => anyHolds (fun s => s.holds names fields) (members set selections)
  | .allOf set =>
    match members set selections with
    | [] => .ok false
    | chosen => allHold (fun s => s.holds names fields) chosen

/-- Do all operands hold, tried up to the first that does not? -/
def holdAll (selections : Dictionary Selection) (names : FieldNames) (fields : FieldMap) :
    List Condition → Except EvalError Bool
  | [] => .ok true
  | c :: rest =>
    match holds selections names fields c with
    | .error e => .error e
    | .ok false => .ok false
    | .ok true => holdAll selections names fields rest

/-- Does an operand hold, tried up to the first that does? -/
def holdsAny (selections : Dictionary Selection) (names : FieldNames) (fields : FieldMap) :
    List Condition → Except EvalError Bool
  | [] => .ok false
  | c :: rest =>
    match holds selections names fields c with
    | .error e => .error e
    | .ok true => .ok true
    | .ok false => holdsAny selections names fields rest

end

end Condition

end LogWatch.Rule
