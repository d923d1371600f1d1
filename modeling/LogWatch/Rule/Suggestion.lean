import LogWatch.Text.Unicode.Case

/-!
# Suggestions for misspelt names

* `editDistance` — the least number of characters to insert, delete or replace;
* `suggestion?` — the nearest of some names, if it is near enough to be meant.
-/

namespace LogWatch.Rule

/-- The next row of the table of distances.  `diagonal` and `row` are the row above from the place on,
`left` is the distance just found. -/
def nextDistances (c : Char) : List Char → Nat → Nat → List Nat → List Nat
  | d :: ds, left, diagonal, above :: row =>
    let here := min (min (above + 1) (left + 1)) (diagonal + if c = d then 0 else 1)
    here :: nextDistances c ds here above row
  | _, _, _, _ => []

/-- The distances of a text to the beginnings of `b`, shortest first, from those of the text without
its last character, whose length is `index`. -/
def extendDistances (b : List Char) (index : Nat) (row : List Nat) (c : Char) : List Nat :=
  match row with
  | [] => []
  | first :: rest => (index + 1) :: nextDistances c b (index + 1) first rest

/-- The distances of `a` to the beginnings of `b`, from those of a text of length `index` in front of
it. -/
def distanceRow (b : List Char) : Nat → List Nat → List Char → List Nat
  | _, row, [] => row
  | index, row, c :: cs => distanceRow b (index + 1) (extendDistances b index row c) cs

/-- The least number of characters to insert, delete or replace that turns one text into another. -/
def editDistance (a b : List Char) : Nat :=
  (distanceRow b 0 (List.range (b.length + 1)) a).getLastD 0

/-- The first of the names with the least distance to a text, and that distance.  Case does not
count. -/
def nearest? (text : String) : List String → Option (String × Nat)
  | [] => none
  | name :: rest =>
    let distance := editDistance (Text.Unicode.lowered text.toList) (Text.Unicode.lowered name.toList)
    match nearest? text rest with
    | some (other, less) => if less < distance then some (other, less) else some (name, distance)
    | none => some (name, distance)

/-- The nearest of some names.  It must not be farther than half the bytes of the longer text. -/
def suggestion? (text : String) (names : List String) : Option String :=
  match nearest? text names with
  | some (name, distance) =>
    if distance ≤ max text.utf8ByteSize name.utf8ByteSize / 2 then some name else none
  | none => none

end LogWatch.Rule
