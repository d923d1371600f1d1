import LogWatch.Json.Fields
import LogWatch.Text.Basic

/-!
# Levels

How severe a detection is, from information to critical.
-/

namespace LogWatch

/-- The severity of a detection, least first. -/
inductive Level where
  | info
  | low
  | medium
  | high
  | critical
deriving DecidableEq, Repr

namespace Level

/-- All levels, least severe first. -/
def all : List Level :=
  [.info, .low, .medium, .high, .critical]

/-- The name of a level. -/
def name : Level → String
  | .info => "info"
  | .low => "low"
  | .medium => "medium"
  | .high => "high"
  | .critical => "critical"

/-- The place of a level in the order of severity. -/
def rank : Level → Nat
  | .info => 0
  | .low => 1
  | .medium => 2
  | .high => 3
  | .critical => 4

/-- A word that names no level, in lower case. -/
structure Unknown where
  word : String
deriving DecidableEq, Repr

/-- The complaint about a word that names no level. -/
def Unknown.message (u : Unknown) : String :=
  "unknown level: '" ++ u.word ++ "'"

/-- The level of a word in any case; the long form of information is understood too. -/
def ofText (s : String) : Except Unknown Level :=
  let word := Text.asciiLowered s
  if word = "informational" then .ok .info
  else
    match all.find? (·.name == word) with
    | some level => .ok level
    | none => .error ⟨word⟩

/-- The level of its exact name. -/
def ofName? (s : String) : Option Level :=
  all.find? (·.name == s)

/-- A level by its name. -/
def toJson (l : Level) : Json :=
  .str l.name

/-- A level by its name. -/
def ofJson? (j : Json) : Option Level :=
  j.variant?.bind ofName?

end Level

end LogWatch
