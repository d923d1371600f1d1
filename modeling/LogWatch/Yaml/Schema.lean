import LogWatch.Number.Decimal
import LogWatch.Number.Reading
import LogWatch.Text.Quoted
import LogWatch.Yaml.Basic
import LogWatch.Yaml.Node

/-!
# What YAML scalars stand for

The core schema: which plain scalars are null, booleans and numbers, and how numbers are written
back.

* `Yaml.ofPlain?` — the value of a plain scalar; integers beyond 64 bits and within 128 have none;
* `Yaml.ofNode?` — the value of a node, aliases replaced by what they name;
* `Yaml.describe` — a value as messages show it.
-/

namespace LogWatch.Yaml

/-! ## Plain scalars -/

/-- The spellings of null. -/
def isNullWord (s : String) : Bool :=
  s == "null" || s == "Null" || s == "NULL" || s == "~"

/-- The spellings of the booleans. -/
def boolWord? (s : String) : Option Bool :=
  if s == "true" || s == "True" || s == "TRUE" then some true
  else if s == "false" || s == "False" || s == "FALSE" then some false
  else none

/-- Text without the sign in front of it. -/
def dropSign : List Char → List Char
  | '+' :: cs => cs
  | '-' :: cs => cs
  | cs => cs

/-- Digits with a needless zero in front are no number. -/
def hasSpareZero (cs : List Char) : Bool :=
  let digits := dropSign cs
  digits.length > 1 && digits.head? == some '0' && digits.all Text.isDigit

/-- The base that a text names at its beginning, and its digits. -/
def based? : List Char → Option (Nat × List Char)
  | '0' :: 'x' :: cs => some (16, cs)
  | '0' :: 'o' :: cs => some (8, cs)
  | '0' :: 'b' :: cs => some (2, cs)
  | _ => none

/-- An unsigned integer in any of the bases. -/
def natWord? (cs : List Char) : Option Nat :=
  let body := match cs with
    | '+' :: rest => rest
    | rest => rest
  match based? body with
  | some (base, digits) => Number.readDigits? base digits
  | none =>
    if hasSpareZero cs then none else Number.readDigits? 10 body

/-- A negative integer in any of the bases, as its absolute value. -/
def negativeWord? (cs : List Char) : Option Nat :=
  match cs with
  | '-' :: body =>
    match based? body with
    | some (base, digits) => Number.readDigits? base digits
    | none => if hasSpareZero cs then none else Number.readDigits? 10 body
  | _ => none

/-- What an integer spelling stands for. -/
inductive IntWord where
  | fits (value : Int)
  | tooWide
  | none

/-- The integer that a plain scalar spells: of 64 bits, of up to 128 bits, or none. -/
def intWord (cs : List Char) : IntWord :=
  match natWord? cs with
  | some n => if n < 0x10000000000000000 then .fits n else if n < 0x100000000000000000000000000000000 then .tooWide else .none
  | none =>
    match negativeWord? cs with
    | some n => if n ≤ 0x8000000000000000 then .fits (-(n : Int)) else if n ≤ 0x80000000000000000000000000000000 then .tooWide else .none
    | none => .none

/-- The double that a plain scalar spells; those too great are none. -/
def floatWord? (cs : List Char) : Option Float :=
  let s := String.ofList cs
  let body? := match cs with
    | '+' :: '+' :: _ => none
    | '+' :: '-' :: _ => none
    | '+' :: rest => some rest
    | rest => some rest
  match body? with
  | none => none
  | some body =>
    let b := String.ofList body
    if b == ".inf" || b == ".Inf" || b == ".INF" then some (1.0 / 0.0)
    else if s == "-.inf" || s == "-.Inf" || s == "-.INF" then some (-1.0 / 0.0)
    else if s == ".nan" || s == ".NaN" || s == ".NAN" then some (0.0 / 0.0)
    else
      match Number.readFloat? body with
      | some f => if Number.isFinite f then some f else none
      | none => none

/-- The value of a plain scalar: an empty one is null, and what is nothing else is a string. -/
def ofPlain? (s : String) : Option Yaml :=
  if s.isEmpty || isNullWord s then some .null
  else
    match boolWord? s with
    | some b => some (.bool b)
    | none =>
      match intWord s.toList with
      | .fits n => some (.number (.int n))
      | .tooWide => none
      | .none =>
        if hasSpareZero s.toList then some (.str s)
        else
          match floatWord? s.toList with
          | some f => some (.number (.float f))
          | none => some (.str s)

/-! ## Nodes -/

/-- The tags of the core schema that demand a kind of scalar. -/
def coreTag (name : String) : String :=
  "tag:yaml.org,2002:" ++ name

/-- A tag that starts with an exclamation mark is one of the document's own. -/
def ownTag? : Option String → Option String
  | some tag =>
    match tag.toList with
    | ['!'] => some "!"
    | '!' :: rest => some (String.ofList rest)
    | _ => none
  | none => none

/-- The value of a scalar whose tag is none of the document's own. -/
def ofScalar? (tag : Option String) (style : Style) (text : String) : Option Yaml :=
  if tag == some (coreTag "bool") then (boolWord? text).map .bool
  else if tag == some (coreTag "int") then
    match intWord text.toList with
    | .fits n => some (.number (.int n))
    | _ => none
  else if tag == some (coreTag "float") then (floatWord? text.toList).map fun f => .number (.float f)
  else if tag == some (coreTag "null") then if isNullWord text then some .null else none
  else if tag.isNone && style == .plain then ofPlain? text
  else some (.str text)

/-- How much has been spent while a value is formed: each alias that is followed counts. -/
abbrev Spent := Nat

mutual

/-- The value of a node.  At most `limit` aliases are followed, and collections nest at most
`depth` deep. -/
def ofNodeWithin? (limit : Nat) : Nat → Node → Spent → Option (Yaml × Spent)
  | _, .alias none, _ => none
  | depth, .alias (some target), spent =>
    if spent < limit then ofNodeWithin? limit depth target (spent + 1) else none
  | _, .scalar tag style text, spent =>
    match ownTag? tag with
    | some own =>
      (if style == .plain then ofPlain? text else some (.str text)).map fun v =>
        (.tagged own v, spent)
    | none => (ofScalar? tag style text).map fun v => (v, spent)
  | depth, .sequence tag items, spent =>
    match depth with
    | 0 => none
    | depth + 1 =>
      (ofNodes? limit depth items spent).map fun (vs, spent) =>
        (match ownTag? tag with
          | some own => .tagged own (.seq vs)
          | none => .seq vs, spent)
  | depth, .mapping tag entries, spent =>
    match depth with
    | 0 => none
    | depth + 1 =>
      (ofEntries? limit depth [] entries spent).map fun (vs, spent) =>
        (match ownTag? tag with
          | some own => .tagged own (.map vs)
          | none => .map vs, spent)

/-- The values of nodes. -/
def ofNodes? (limit : Nat) : Nat → List Node → Spent → Option (List Yaml × Spent)
  | _, [], spent => some ([], spent)
  | depth, node :: rest, spent =>
    match ofNodeWithin? limit depth node spent with
    | none => none
    | some (v, spent) => (ofNodes? limit depth rest spent).map fun (vs, spent) => (v :: vs, spent)

/-- The entries of a mapping; a key must not be repeated. -/
def ofEntries? (limit : Nat) :
    Nat → List Yaml → List (Node × Node) → Spent → Option (List (Yaml × Yaml) × Spent)
  | _, _, [], spent => some ([], spent)
  | depth, seen, (key, value) :: rest, spent =>
    match ofNodeWithin? limit depth key spent with
    | none => none
    | some (k, spent) =>
      if seen.any k.same then none
      else
        match ofNodeWithin? limit depth value spent with
        | none => none
        | some (v, spent) =>
          (ofEntries? limit depth (k :: seen) rest spent).map fun (es, spent) =>
            ((k, v) :: es, spent)

end

/-- How deep collections may nest. -/
def maxDepth : Nat := 128

/-- The value of a whole document. -/
def ofDocument? (d : Document) : Option Yaml :=
  (ofNodeWithin? (d.parts * 100) maxDepth d.root 0).map (·.1)

/-- The value of the only document of a text. -/
def ofText? (s : String) : Option Yaml :=
  (Document.ofText? s).bind ofDocument?

/-! ## Writing -/

/-- A number as it is written: integers in decimal, doubles with a point or an exponent. -/
def Number.toText : Number → String
  | .int n => toString n
  | .float f =>
    match LogWatch.Number.magnitude f with
    | .finite b => LogWatch.Number.scientific b
    | .infinite negative => if negative then "-.inf" else ".inf"
    | .undefined => ".nan"

mutual

/-- A value as messages show it. -/
def describe : Yaml → String
  | .null => "Null"
  | .bool b => "Bool(" ++ (if b then "true" else "false") ++ ")"
  | .number n => "Number(" ++ n.toText ++ ")"
  | .str s => "String(" ++ Text.quoted s ++ ")"
  | .seq items => "Sequence [" ++ describeItems items ++ "]"
  | .map entries => "Mapping \x7b" ++ describeEntries entries ++ "\x7d"
  | .tagged _ _ => "TaggedValue"

/-- Values with commas between them. -/
def describeItems : List Yaml → String
  | [] => ""
  | [v] => describe v
  | v :: rest => describe v ++ ", " ++ describeItems rest

/-- Entries with commas between them; simple keys stand without their kind. -/
def describeEntries : List (Yaml × Yaml) → String
  | [] => ""
  | [(k, v)] => describeKey k ++ ": " ++ describe v
  | (k, v) :: rest => describeKey k ++ ": " ++ describe v ++ ", " ++ describeEntries rest

/-- A key as messages show it. -/
def describeKey : Yaml → String
  | .bool b => if b then "true" else "false"
  | .number n => n.toText
  | .str s => Text.quoted s
  | v => describe v

end

end LogWatch.Yaml
