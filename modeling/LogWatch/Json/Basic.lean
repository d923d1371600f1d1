/-!
# JSON values

The value of a JSON text.  An object keeps its members in the order of the text, repeated names
included, because some readers refuse repetitions and others let the last one win.  A scalar that
is well formed but stands for nothing — a number beyond the range of doubles, a lone half of a
surrogate pair — is `unreadable`: it may be skipped but not used.
-/

namespace LogWatch

/-- The value of a JSON text. -/
inductive Json where
  | null
  | bool (value : Bool)
  | int (value : Int)
  | float (value : Float)
  | str (value : String)
  | arr (items : List Json)
  | obj (members : List (String × Json))
  | unreadable
deriving Inhabited

namespace Json

/-- The integers that are kept exactly; others become doubles. -/
def inIntRange (n : Int) : Bool :=
  -0x8000000000000000 ≤ n && n < 0x10000000000000000

mutual

/-- How many arrays and objects are open at the deepest place. -/
def height : Json → Nat
  | .arr items => heightList items + 1
  | .obj members => heightMembers members + 1
  | _ => 0

/-- The greatest height in a list. -/
def heightList : List Json → Nat
  | [] => 0
  | j :: rest => max (height j) (heightList rest)

/-- The greatest height among members. -/
def heightMembers : List (String × Json) → Nat
  | [] => 0
  | (_, j) :: rest => max (height j) (heightMembers rest)

end

mutual

/-- Does every scalar stand for something? -/
def isReadable : Json → Bool
  | .unreadable => false
  | .arr items => isReadableList items
  | .obj members => isReadableMembers members
  | _ => true

/-- Is every value of a list readable? -/
def isReadableList : List Json → Bool
  | [] => true
  | j :: rest => isReadable j && isReadableList rest

/-- Is every member readable? -/
def isReadableMembers : List (String × Json) → Bool
  | [] => true
  | (_, j) :: rest => isReadable j && isReadableMembers rest

end

/-- The value of the last member of a name. -/
def field? (name : String) : Json → Option Json
  | .obj members => (members.reverse.find? (·.1 == name)).map (·.2)
  | _ => none

end Json

end LogWatch
