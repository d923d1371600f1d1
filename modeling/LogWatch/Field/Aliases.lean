import LogWatch.Field.Value
import LogWatch.Json.Fields
import LogWatch.Yaml.Typed

/-!
# Names of fields

Rules are written with field names of their own, records may hold the same data under others.  The
names of a rule's field in records are tried in the order in which they are listed.

* `FieldNames.resolve?` — the value of a rule's field in a record;
* `FieldNames.ofText?` — the names that a YAML text lists.
-/

namespace LogWatch

/-- The names of a field in records: a single one, or a list to be tried in order. -/
inductive Aliases where
  | one (name : String)
  | many (names : List String)
deriving DecidableEq, Repr

/-- The names in the order of trial. -/
def Aliases.toList : Aliases → List String
  | .one name => [name]
  | .many names => names

/-- Names of fields in records, by the name that rules use. -/
structure FieldNames where
  title : Option String := none
  aliases : Dictionary Aliases := []

namespace FieldNames

/-- The value of a rule's field: that of the first listed name which the record has, or the one under
the field's own name where none is listed. -/
def resolve? (names : FieldNames) (fields : FieldMap) (field : String) : Option FieldValue :=
  match names.aliases.find? field with
  | some aliases => aliases.toList.findSome? fields.lookup?
  | none => fields.lookup? field

/-! ## Reading and writing -/

/-- The texts of a list of values, all of which must be strings. -/
def stringsOf? : List Yaml → Option (List String)
  | [] => some []
  | .str s :: rest => (stringsOf? rest).map (s :: ·)
  | _ :: _ => none

/-- The aliases that a value lists: a string, or a list of strings. -/
def aliasesOf? : Yaml → Option Aliases
  | .str s => some (.one s)
  | .seq items => (stringsOf? items).map .many
  | _ => none

open Yaml.Typed in
/-- The aliases of fields; of repeated fields the last one wins. -/
def readAliases (node : Yaml.Node) : Yaml.Typed (Dictionary Aliases) := do
  let members ← members? node
  let pairs ← members.mapM fun (name, node) => do
    let value ← value? (Yaml.maxDepth - 2) node
    return (name, ← ofOption (aliasesOf? value))
  return Dictionary.ofPairs pairs

open Yaml.Typed in
/-- The names that a document lists. -/
def readNames (node : Yaml.Node) : Yaml.Typed FieldNames := do
  let members ← members? node
  return {
    title := ← withDefault? members "title" none optionalText?
    aliases := ← withDefault? members "fieldmappings" [] readAliases }

/-- The names that a YAML text lists. -/
def ofText? (text : String) : Option FieldNames :=
  Yaml.Typed.read? readNames text

/-- Aliases as a string or a list of strings. -/
def aliasesToJson : Aliases → Json
  | .one name => .str name
  | .many names => .arr (names.map .str)

/-- The names as an object. -/
def toJson (names : FieldNames) : Json :=
  .obj [
    ("title", Json.ofOption .str names.title),
    ("fieldmappings", .obj (names.aliases.map fun (name, aliases) => (name, aliasesToJson aliases)))]

end FieldNames

end LogWatch
