/-!
# YAML values

The value of a YAML document under the core schema: null, booleans, integers of 64 bits, doubles,
strings, sequences, mappings whose keys may be any value, and values with a tag of their own.
-/

namespace LogWatch

/-- A number: an integer of 64 bits or a double. -/
inductive Yaml.Number where
  | int (value : Int)
  | float (value : Float)

/-- The value of a YAML document. -/
inductive Yaml where
  | null
  | bool (value : Bool)
  | number (value : Yaml.Number)
  | str (value : String)
  | seq (items : List Yaml)
  | map (entries : List (Yaml × Yaml))
  | tagged (tag : String) (value : Yaml)
deriving Inhabited

namespace Yaml

/-- Equality of numbers: of one kind and equal, an undefined double being equal to another. -/
def Number.same : Number → Number → Bool
  | .int a, .int b => a == b
  | .float a, .float b => (a.isNaN && b.isNaN) || a == b
  | _, _ => false

mutual

/-- Equality of values. -/
def same : Yaml → Yaml → Bool
  | .null, .null => true
  | .bool a, .bool b => a == b
  | .number a, .number b => a.same b
  | .str a, .str b => a == b
  | .seq a, .seq b => sameItems a b
  | .map a, .map b => a.length == b.length && sameEntries a b
  | .tagged s a, .tagged t b => s == t && same a b
  | _, _ => false

/-- Equality of lists of values. -/
def sameItems : List Yaml → List Yaml → Bool
  | [], [] => true
  | a :: as, b :: bs => same a b && sameItems as bs
  | _, _ => false

/-- Does every entry of the first list occur in the second one? -/
def sameEntries : List (Yaml × Yaml) → List (Yaml × Yaml) → Bool
  | [], _ => true
  | (k, v) :: rest, bs => hasEntry k v bs && sameEntries rest bs

/-- Does an entry occur in a list? -/
def hasEntry (k v : Yaml) : List (Yaml × Yaml) → Bool
  | [] => false
  | (l, w) :: rest => (same k l && same v w) || hasEntry k v rest

end

/-! ## Views -/

/-- A value without the tags of its own. -/
def untagged : Yaml → Yaml
  | .tagged _ v => untagged v
  | v => v

/-- The text of a string, whatever its tag. -/
def str? (v : Yaml) : Option String :=
  match v.untagged with
  | .str s => some s
  | _ => none

/-- The boolean of a value, whatever its tag. -/
def bool? (v : Yaml) : Option Bool :=
  match v.untagged with
  | .bool b => some b
  | _ => none

/-- Is this a mapping, whatever its tag? -/
def isMap (v : Yaml) : Bool :=
  match v.untagged with
  | .map _ => true
  | _ => false

end Yaml

end LogWatch
