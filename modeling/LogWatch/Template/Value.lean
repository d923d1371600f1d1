import LogWatch.Dictionary
import LogWatch.Json.Basic
import LogWatch.Number.Decimal
import LogWatch.Text.Quoted

/-!
# Values in templates

What an expression of a template stands for.  A name or a member that does not exist is undefined,
which prints as nothing.

* `Value.text` — how a value is printed;
* `Value.isTrue`, `Value.same`, `Value.precedes` — truth, equality and order.
-/

namespace LogWatch.Template

/-- The value of an expression. -/
inductive Value where
  | undefined
  | none
  | bool (value : Bool)
  | int (value : Int)
  | float (value : Float)
  | str (value : String)
  | list (items : List Value)
  | map (entries : List (Value × Value))
deriving Inhabited

namespace Value

/-- Is a value undefined? -/
def isUndefined : Value → Bool
  | .undefined => true
  | _ => false

/-! ## Printing -/

/-- A double as it is printed: always with a point, unless it is no finite number. -/
def floatText (x : Float) : String :=
  let plain := Number.plain x
  if Number.isFinite x && !plain.toList.contains '.' then plain ++ ".0" else plain

mutual

/-- A value as it is printed within a list or a map. -/
def describe : Value → String
  | .undefined => "undefined"
  | .none => "None"
  | .bool b => if b then "True" else "False"
  | .int n => toString n
  | .float x => floatText x
  | .str s => Text.quoted s
  | .list items => "[" ++ describeItems items ++ "]"
  | .map entries => "\x7b" ++ describeEntries entries ++ "\x7d"

/-- Values with commas between them. -/
def describeItems : List Value → String
  | [] => ""
  | [v] => describe v
  | v :: rest => describe v ++ ", " ++ describeItems rest

/-- Entries with commas between them. -/
def describeEntries : List (Value × Value) → String
  | [] => ""
  | [(k, v)] => describe k ++ ": " ++ describe v
  | (k, v) :: rest => describe k ++ ": " ++ describe v ++ ", " ++ describeEntries rest

end

/-- A value as it is printed. -/
def text : Value → String
  | .undefined => ""
  | .str s => s
  | v => describe v

/-! ## Truth, equality and order -/

/-- Does a value count as true?  What is empty or zero does not. -/
def isTrue : Value → Bool
  | .undefined => false
  | .none => false
  | .bool b => b
  | .int n => n != 0
  | .float x => x != 0.0
  | .str s => s != ""
  | .list items => !items.isEmpty
  | .map entries => !entries.isEmpty

/-- The integer of a value that is one, booleans included. -/
def int? : Value → Option Int
  | .bool b => some (if b then 1 else 0)
  | .int n => some n
  | _ => Option.none

/-- The double of a number, booleans included. -/
def float? : Value → Option Float
  | .float x => some x
  | v => v.int?.map Float.ofInt

/-- Numbers are equal when their doubles or integers are. -/
def sameNumber (a b : Value) : Bool :=
  match a.int?, b.int? with
  | some m, some n => m == n
  | _, _ =>
    match a.float?, b.float? with
    | some x, some y => x == y
    | _, _ => false

mutual

/-- Equality of values. -/
def same : Value → Value → Bool
  | .undefined, .undefined => true
  | .none, .none => true
  | .str s, .str t => s == t
  | .list a, .list b => sameItems a b
  | .map a, .map b => a.length == b.length && sameEntries a b
  | a, b => sameNumber a b

/-- Equality of lists. -/
def sameItems : List Value → List Value → Bool
  | [], [] => true
  | a :: as, b :: bs => same a b && sameItems as bs
  | _, _ => false

/-- Equality of entries in the same order. -/
def sameEntries : List (Value × Value) → List (Value × Value) → Bool
  | [], [] => true
  | (k, v) :: rest, (l, w) :: more => same k l && same v w && sameEntries rest more
  | _, _ => false

end

/-- The place of a kind of value in the order of kinds. -/
def kindRank : Value → Nat
  | .undefined => 0
  | .none => 1
  | .bool _ => 2
  | .int _ => 3
  | .float _ => 3
  | .str _ => 4
  | .list _ => 5
  | .map _ => 6

mutual

/-- Does a value come before another one?  Values of different kinds are ordered by kind. -/
def precedes : Value → Value → Bool
  | .str s, .str t => s < t
  | .list a, .list b => precedesItems a b
  | a, b =>
    if a.kindRank != b.kindRank then a.kindRank < b.kindRank
    else
      match a.int?, b.int? with
      | some m, some n => m < n
      | _, _ =>
        match a.float?, b.float? with
        | some x, some y => x < y
        | _, _ => false

/-- Does a list come before another one, item by item? -/
def precedesItems : List Value → List Value → Bool
  | _, [] => false
  | [], _ :: _ => true
  | a :: as, b :: bs => precedes a b || (same a b && precedesItems as bs)

end

/-! ## Members -/

/-- The place that an index names in a sequence; negative ones count from the end. -/
def place? (length : Nat) (index : Int) : Option Nat :=
  if 0 ≤ index then some index.toNat
  else if index.natAbs ≤ length then some (length - index.natAbs)
  else Option.none

/-- The value of a key. -/
def entryOf (key : Value) : List (Value × Value) → Value
  | [] => .undefined
  | (k, v) :: rest => if same k key then v else entryOf key rest

/-- The member of a value under a key or an index. -/
def member (v key : Value) : Value :=
  match v with
  | .map entries => entryOf key entries
  | .list items =>
    match key.int?.bind (place? items.length) with
    | some i => items.getD i .undefined
    | Option.none => .undefined
  | .str s =>
    match key.int?.bind (place? s.toList.length) with
    | some i =>
      match s.toList[i]? with
      | some c => .str (String.singleton c)
      | Option.none => .undefined
    | Option.none => .undefined
  | _ => .undefined

/-- The values that a loop goes through. -/
def items? : Value → Option (List Value)
  | .undefined => some []
  | .list items => some items
  | .map entries => some (entries.map (·.1))
  | .str s => some (s.toList.map fun c => .str (String.singleton c))
  | _ => Option.none

mutual

/-- The value of a JSON value. -/
def ofJson : Json → Value
  | .null => .none
  | .bool b => .bool b
  | .int n => .int n
  | .float x => .float x
  | .str s => .str s
  | .arr items => .list (ofItems items)
  | .obj members => .map (ofMembers members)
  | .unreadable => .none

/-- The values of a list. -/
def ofItems : List Json → List Value
  | [] => []
  | j :: rest => ofJson j :: ofItems rest

/-- The entries of some members. -/
def ofMembers : List (String × Json) → List (Value × Value)
  | [] => []
  | (name, j) :: rest => (.str name, ofJson j) :: ofMembers rest

end

end Value

end LogWatch.Template
