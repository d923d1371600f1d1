import LogWatch.Dictionary
import LogWatch.Json.Basic
import LogWatch.Json.Fields
import LogWatch.Number.Decimal
import LogWatch.Number.Reading

/-!
# Field values

The fields of a normalized record hold dynamic values: null, booleans, numbers, texts, lists and
maps.  A field is looked up by its name or, where the name has dots, by a path into nested maps.

* `FieldValue` and its views `text?`, `number?`, `scalarText?`;
* `FieldMap.lookup?` — a literal name wins over a path;
* `FieldValue.ofJson` — the value of a JSON value.
-/

namespace LogWatch

/-- The value of a field. -/
inductive FieldValue where
  | null
  | bool (value : Bool)
  | number (value : Float)
  | text (value : String)
  | list (items : List FieldValue)
  | map (fields : List (String × FieldValue))
deriving Inhabited

/-- The fields of a record, by name. -/
abbrev FieldMap := Dictionary FieldValue

/-- A number as text: whole numbers below `10 ^ 15` without a point, others in shortest form. -/
def formatNumber (x : Float) : String :=
  match Number.magnitude x with
  | .finite b =>
    if b.isWhole && b.truncate.natAbs < 1000000000000000 then toString b.truncate else Number.plain x
  | _ => Number.plain x

namespace FieldValue

/-- The kind of a value. -/
def kind : FieldValue → String
  | .null => "null"
  | .bool _ => "bool"
  | .number _ => "number"
  | .text _ => "text"
  | .list _ => "list"
  | .map _ => "map"

/-- Is the value null? -/
def isNull : FieldValue → Bool
  | .null => true
  | _ => false

/-- The text of a text value. -/
def text? : FieldValue → Option String
  | .text s => some s
  | _ => none

/-- The number of a number, or of a text that spells one. -/
def number? : FieldValue → Option Float
  | .number x => some x
  | .text s => Number.readFloat? (Text.trim s.toList)
  | _ => none

/-- The text of a scalar; lists and maps have none. -/
def scalarText? : FieldValue → Option String
  | .null => some ""
  | .bool b => some (if b then "true" else "false")
  | .number x => some (formatNumber x)
  | .text s => some s
  | .list _ => none
  | .map _ => none

/-- A value for display: the text of a scalar, or the kind in angles. -/
def display (v : FieldValue) : String :=
  match v.scalarText? with
  | some s => s
  | none => "<" ++ v.kind ++ ">"

mutual

/-- The value of a JSON value; of repeated members the last one wins. -/
def ofJson : Json → FieldValue
  | .null => .null
  | .bool b => .bool b
  | .int n => .number ((Json.float? (.int n)).getD 0.0)
  | .float x => .number x
  | .str s => .text s
  | .arr items => .list (ofItems items)
  | .obj members => .map (Dictionary.ofPairs (ofMembers members))
  | .unreadable => .null

/-- The values of a list. -/
def ofItems : List Json → List FieldValue
  | [] => []
  | j :: rest => ofJson j :: ofItems rest

/-- The values of members. -/
def ofMembers : List (String × Json) → List (String × FieldValue)
  | [] => []
  | (name, j) :: rest => (name, ofJson j) :: ofMembers rest

end

end FieldValue

namespace FieldMap

/-- The value at the end of a path that starts at a value. -/
def descend : FieldValue → List String → Option FieldValue
  | v, [] => some v
  | .map inner, part :: rest =>
    match Dictionary.find? part inner with
    | some v => descend v rest
    | none => none
  | _, _ :: _ => none

/-- The value of a field: that of the literal name, else the end of the path that the name spells
with dots. -/
def lookup? (fields : FieldMap) (path : String) : Option FieldValue :=
  match fields.find? path with
  | some v => some v
  | none =>
    match (Text.splitOn '.' path.toList).map String.ofList with
    | [] => none
    | first :: rest =>
      match fields.find? first with
      | some v => descend v rest
      | none => none

end FieldMap

end LogWatch
