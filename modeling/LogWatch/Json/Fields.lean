import LogWatch.Json.Basic

/-!
# Records taken from JSON values

How a record of named fields is read: from an object, whose further members are ignored but whose
fields may not be repeated, or from an array that gives the fields in their order.

* `Json.fields?` — the value of each named field, absent ones as `none`;
* `Json.tagged?` — the variant that a tag selects, and the record without the tag;
* readers of the leaves: strings, whole numbers below a bound, doubles, optional values.
-/

namespace LogWatch.Json

/-- The members of a name, in order. -/
def occurrences (name : String) (members : List (String × Json)) : List Json :=
  members.filterMap fun (n, j) => if n = name then some j else none

/-- The values of the named fields: each occurs at most once in an object; an array has no more
items than there are names. -/
def fields? (names : List String) : Json → Option (List (Option Json))
  | .obj members =>
    names.mapM fun name =>
      match occurrences name members with
      | [] => some none
      | [j] => some (some j)
      | _ => none
  | .arr items =>
    if items.length ≤ names.length then
      some (items.map some ++ List.replicate (names.length - items.length) none)
    else none
  | _ => none

/-- The variant that the member `tag` (or the first item) names, and the rest of the record. -/
def tagged? (tag : String) (j : Json) : Option (String × Json) :=
  if !j.isReadable then none
  else
    match j with
    | .obj members =>
      match occurrences tag members with
      | [.str variant] => some (variant, .obj (members.filter (·.1 ≠ tag)))
      | _ => none
    | .arr (.str variant :: items) => some (variant, .arr items)
    | _ => none

/-- A variant without content: its name, or an object that maps the name to `null`. -/
def variant? : Json → Option String
  | .str s => some s
  | .obj [(name, .null)] => some name
  | _ => none

/-- A string. -/
def str? : Json → Option String
  | .str s => some s
  | _ => none

/-- A whole number below a bound. -/
def nat? (bound : Nat) : Json → Option Nat
  | .int (.ofNat n) => if n < bound then some n else none
  | _ => none

/-- A double, or an integer taken as one. -/
def float? : Json → Option Float
  | .float f => some f
  | .int (.ofNat n) => some (Float.ofNat n)
  | .int (.negSucc n) => some (-(Float.ofNat (n + 1)))
  | _ => none

/-- A boolean. -/
def bool? : Json → Option Bool
  | .bool b => some b
  | _ => none

/-- A list of values of one kind. -/
def list? {α : Type} (item? : Json → Option α) : Json → Option (List α)
  | .arr items => items.mapM item?
  | _ => none

/-- A field that must be there. -/
def required? {α : Type} (value? : Json → Option α) : Option Json → Option α
  | some j => value? j
  | none => none

/-- A field with a default for when it is absent. -/
def withDefault? {α : Type} (value? : Json → Option α) (default : α) : Option Json → Option α
  | some j => value? j
  | none => some default

/-- A field that may be absent or `null`. -/
def optional? {α : Type} (value? : Json → Option α) : Option Json → Option (Option α)
  | none => some none
  | some .null => some none
  | some j => (value? j).map some

/-- An optional value written as `null` when it is absent. -/
def ofOption {α : Type} (write : α → Json) : Option α → Json
  | some a => write a
  | none => .null

end LogWatch.Json
