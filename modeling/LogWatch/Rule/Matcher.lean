import LogWatch.Field.Aliases
import LogWatch.Regex.Search
import LogWatch.Rule.Glob
import LogWatch.Yaml.Schema

/-!
# Matchers

The leaves of a rule: an expected value, and a field with the values that are expected of it.

* `Expected.holds` — does a value meet an expectation?
* `FieldTest.holds` — does a record pass a test of one of its fields?
* `FieldTest.ofEntry`, `Expected.ofYaml` — the compiled form of what a rule says, or its fault.

A field name may be followed by modifiers, each after a bar: `contains`, `startswith`, `endswith` and
`re` say how texts are compared, `all` asks for every listed value instead of any one, `exists` asks
whether the field is there, and `cased` changes nothing since case always matters.
-/

namespace LogWatch.Rule

open Regex

/-! ## Expected values -/

/-- A value that is expected of a field. -/
inductive Expected where
  | null
  | bool (value : Bool)
  | number (value : Float)
  | text (value : String)
  | glob (pattern : Glob) (anchor : Glob.Anchor)
  | regex (matcher : Matcher)

namespace Expected

/-- Is this the expectation of null? -/
def isNull : Expected → Bool
  | .null => true
  | _ => false

/-- Does a single value meet the expectation?  Booleans and numbers are recognised in texts that
spell them; texts and patterns are compared with the text of the value. -/
def holds (e : Expected) (v : FieldValue) : Bool :=
  match e with
  | .null => v.isNull
  | .bool b =>
    match v with
    | .bool a => a == b
    | .text s => s == (if b then "true" else "false")
    | _ => false
  | .number x =>
    match v.number? with
    | some y => y == x
    | none => false
  | .text s =>
    match v.scalarText? with
    | some t => t == s
    | none => false
  | .glob g anchor =>
    match v.scalarText? with
    | some t => g.isFound anchor t.toList
    | none => false
  | .regex m =>
    match v.scalarText? with
    | some t => m.isMatch t.toList
    | none => false

end Expected

/-! ## Evaluation -/

/-- Why a rule cannot be evaluated on a record. -/
inductive EvalError where
  | unsupportedType (field kind : String)
  | unknownSelection (name : String)
deriving DecidableEq, Repr

/-- The reason in words. -/
def EvalError.message : EvalError → String
  | .unsupportedType field kind =>
    "field '" ++ field ++ "' has unsupported type " ++ kind ++ " for this matcher"
  | .unknownSelection name => "condition references unknown selection '" ++ name ++ "'"

/-- Do all tests hold, tried in order up to the first that does not? -/
def allHold {α : Type} (test : α → Except EvalError Bool) : List α → Except EvalError Bool
  | [] => .ok true
  | a :: rest =>
    match test a with
    | .error e => .error e
    | .ok false => .ok false
    | .ok true => allHold test rest

/-- Does a test hold, tried in order up to the first that does? -/
def anyHolds {α : Type} (test : α → Except EvalError Bool) : List α → Except EvalError Bool
  | [] => .ok false
  | a :: rest =>
    match test a with
    | .error e => .error e
    | .ok true => .ok true
    | .ok false => anyHolds test rest

/-- What is asked of a field: that it is there or is not, or that any or all of some expectations
are met. -/
inductive Demand where
  | presence (expected : Bool)
  | anyOf (values : List Expected)
  | allOf (values : List Expected)

/-- A test of one field. -/
structure FieldTest where
  field : String
  demand : Demand

namespace FieldTest

/-- Does a value that was found meet an expectation?  A list does if one of its items does; nothing
can be said of a map. -/
def meets (field : String) (v : FieldValue) (e : Expected) : Except EvalError Bool :=
  match v with
  | .list items => .ok (items.any e.holds)
  | .map _ => .error (.unsupportedType field v.kind)
  | scalar => .ok (e.holds scalar)

/-- Does a record pass the test?  A field that is missing meets a demand in which null is listed. -/
def holds (t : FieldTest) (names : FieldNames) (fields : FieldMap) : Except EvalError Bool :=
  let found := names.resolve? fields t.field
  match t.demand with
  | .presence expected => .ok (found.isSome == expected)
  | .anyOf values =>
    match found with
    | none => .ok (values.any Expected.isNull)
    | some v => anyHolds (meets t.field v) values
  | .allOf values =>
    match found with
    | none => .ok (values.any Expected.isNull)
    | some v => allHold (meets t.field v) values

end FieldTest

/-! ## Compilation -/

/-- What is wrong with a selection. -/
inductive SelectionFault where
  | unusableBody (selection : String) (value : Yaml)
  | fieldNotText (selection : String)
  | emptyField (key : String)
  | unknownModifier (word field : String)
  | presenceNotBool (field : String)
  | noValues (field : String)
  | unusable (value : Yaml)
  | badRegex (pattern : String) (error : PatternError)

/-- The fault in words. -/
def SelectionFault.message : SelectionFault → String
  | .unusableBody selection value =>
    "selection '" ++ selection ++ "' must be a map, a list of maps, or keywords (got " ++
      value.describe ++ ")"
  | .fieldNotText selection => "selection '" ++ selection ++ "' has a non-string field name"
  | .emptyField key => "empty field name in '" ++ key ++ "'"
  | .unknownModifier word field => "unsupported modifier '" ++ word ++ "' on field '" ++ field ++ "'"
  | .presenceNotBool field => "'" ++ field ++ "|exists' expects true or false"
  | .noValues field => "field '" ++ field ++ "' has an empty value list"
  | .unusable value => "unsupported match value " ++ value.describe
  | .badRegex pattern error => "invalid regex '" ++ pattern ++ "': " ++ error.message

/-- How texts are compared. -/
inductive Comparison where
  | exact
  | contains
  | startsWith
  | endsWith
  | regex
deriving DecidableEq, Repr

/-- The ends of a text that a comparison has to reach. -/
def Comparison.anchor : Comparison → Glob.Anchor
  | .exact | .regex => .both
  | .contains => .neither
  | .startsWith => .start
  | .endsWith => .finish

namespace Expected

/-- The expectation of a text.  An exact one without wildcards is compared as it is.  Expressions may be of
any size here; the limit at which an engine of regular expressions refuses to compile one, as it would that
of a very long pattern with wildcards, is not modelled. -/
def ofText (comparison : Comparison) (pattern : String) : Except SelectionFault Expected :=
  match comparison with
  | .regex =>
    match Matcher.ofText pattern with
    | .ok m => .ok (.regex m)
    | .error e => .error (.badRegex pattern e)
  | comparison =>
    let g := Glob.ofText pattern
    if comparison = .exact ∧ g.hasWildcard = false then
      .ok (.text (String.ofList (Glob.unescaped pattern.toList)))
    else .ok (.glob g comparison.anchor)

/-- The double nearest to a number. -/
def ofNumber (n : Yaml.Number) : Float :=
  match n with
  | .int i => Float.ofInt i
  | .float x => x

/-- The expectation of a value.  Booleans and numbers are compared as such only exactly. -/
def ofYaml (comparison : Comparison) : Yaml → Except SelectionFault Expected
  | .null => .ok .null
  | .bool b =>
    if comparison = .exact then .ok (.bool b)
    else ofText comparison (if b then "true" else "false")
  | .number n =>
    if comparison = .exact then .ok (.number (ofNumber n)) else ofText comparison n.toText
  | .str s => ofText comparison s
  | other => .error (.unusable other)

/-- The expectations of some values. -/
def ofValues (comparison : Comparison) (values : List Yaml) : Except SelectionFault (List Expected) :=
  values.mapM (ofYaml comparison)

end Expected

/-- What the modifiers of a field say. -/
structure Modifiers where
  comparison : Comparison := .exact
  all : Bool := false
  presence : Bool := false

namespace Modifiers

/-- The modifiers with one more word; of two comparisons the last one counts. -/
def add? (m : Modifiers) (word : String) : Option Modifiers :=
  match word with
  | "contains" => some { m with comparison := .contains }
  | "startswith" => some { m with comparison := .startsWith }
  | "endswith" => some { m with comparison := .endsWith }
  | "re" => some { m with comparison := .regex }
  | "all" => some { m with all := true }
  | "exists" => some { m with presence := true }
  | "cased" => some m
  | _ => none

/-- The modifiers that some words list. -/
def ofWords (field : String) : Modifiers → List String → Except SelectionFault Modifiers
  | m, [] => .ok m
  | m, word :: rest =>
    match m.add? word with
    | some m => ofWords field m rest
    | none => .error (.unknownModifier word field)

end Modifiers

namespace FieldTest

/-- The values that an entry lists, a single one being a list of one. -/
def valuesOf : Yaml → List Yaml
  | .seq items => items
  | single => [single]

/-- The test that an entry of a selection spells. -/
def ofEntry (key : String) (value : Yaml) : Except SelectionFault FieldTest := do
  let parts := (Text.splitOn '|' key.toList).map String.ofList
  let field := parts.headD ""
  if field.isEmpty then throw (.emptyField key)
  let m ← Modifiers.ofWords field {} (parts.drop 1)
  if m.presence then
    match value.bool? with
    | some expected => return ⟨field, .presence expected⟩
    | none => throw (.presenceNotBool field)
  let values := valuesOf value
  if values.isEmpty then throw (.noValues field)
  let expected ← Expected.ofValues m.comparison values
  return ⟨field, if m.all then .allOf expected else .anyOf expected⟩

end FieldTest

end LogWatch.Rule
