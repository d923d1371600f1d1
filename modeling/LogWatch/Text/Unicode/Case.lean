import LogWatch.Text.Unicode.CaseRuns
import LogWatch.Text.Unicode.Properties

/-!
# Case

* `lowered` and `uppered` — a text in lower or upper case, by the full mappings, so that a text
  may grow and a sigma at the end of a word takes its final form;
* `caseVariants` — the characters that differ from a given one in case only.
-/

namespace LogWatch.Text.Unicode

/-- The code point itself, or its image if the run maps it. -/
def CaseRun.image? (run : CaseRun) (n : Nat) : Option Nat :=
  if run.low ≤ n ∧ n ≤ run.high ∧ (n - run.low) % run.step = 0 then
    some (n + run.offset).toNat
  else none

/-- The code point that the run maps to `n`. -/
def CaseRun.source? (run : CaseRun) (n : Nat) : Option Nat :=
  let m := (n : Int) - run.offset
  if 0 ≤ m ∧ run.low ≤ m.toNat ∧ m.toNat ≤ run.high ∧ (m.toNat - run.low) % run.step = 0 then
    some m.toNat
  else none

/-- A code point mapped by the first run that has it. -/
def mapCase (runs : Array CaseRun) (n : Nat) : Nat :=
  (runs.findSome? (·.image? n)).getD n

/-- A character in lower case; the capital I with a dot keeps the dot as a mark. -/
def lowerChar (c : Char) : List Char :=
  if c.toNat = 0x130 then ['i', Char.ofNat 0x307]
  else [Char.ofNat (mapCase lowerRuns c.toNat)]

/-- A character in upper case. -/
def upperChar (c : Char) : List Char :=
  if c.toNat < 128 then [Char.ofNat (mapCase upperRuns c.toNat)]
  else
    match upperSequences.find? (·.1 == c.toNat) with
    | some (_, codes) => codes.map Char.ofNat
    | none => [Char.ofNat (mapCase upperRuns c.toNat)]

/-- Does a cased letter come first once the ignorable characters are passed? -/
def meetsCased (cs : List Char) : Bool :=
  match cs.dropWhile isCaseIgnorable with
  | c :: _ => isCased c
  | [] => false

/-- A text in lower case; `before` holds what precedes it in reverse. -/
def lowerFrom (before : List Char) : List Char → List Char
  | [] => []
  | c :: cs =>
    let image :=
      if c.toNat = 0x3A3 then
        if meetsCased before && !meetsCased cs then [Char.ofNat 0x3C2] else [Char.ofNat 0x3C3]
      else lowerChar c
    image ++ lowerFrom (c :: before) cs

/-- A text in lower case. -/
def lowered (cs : List Char) : List Char :=
  lowerFrom [] cs

/-- A text in upper case. -/
def uppered (cs : List Char) : List Char :=
  cs.flatMap upperChar

/-- The common form of all characters that differ in case only. -/
def foldCode (n : Nat) : Nat :=
  mapCase foldRuns n

/-- The code points that differ from a given one in case only, itself included. -/
def caseVariants (n : Nat) : List Nat :=
  let common := foldCode n
  common :: foldRuns.toList.filterMap (·.source? common)

end LogWatch.Text.Unicode
