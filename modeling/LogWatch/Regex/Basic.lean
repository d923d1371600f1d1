import LogWatch.Regex.CharSet

/-!
# Regular expressions

The syntax tree of a regular expression: what it may match, with the groups that are captured and
the order in which repetitions and alternatives are tried.
-/

namespace LogWatch

/-- A condition on the characters around a place in a text. -/
inductive Regex.Look where
  | textStart
  | textEnd
  | lineStart
  | lineEnd
  | lineStartAnyReturn
  | lineEndAnyReturn
  /-- A word starts or ends here, or neither; by ASCII or by Unicode characters of words. -/
  | wordBoundary (ascii : Bool)
  | noWordBoundary (ascii : Bool)
  | wordStart (ascii : Bool)
  | wordEnd (ascii : Bool)
  /-- No character of a word before (or after) this place. -/
  | wordStartHalf (ascii : Bool)
  | wordEndHalf (ascii : Bool)
deriving DecidableEq

/-- A regular expression. -/
inductive Regex where
  | empty
  | chars (set : CharSet)
  | look (condition : Regex.Look)
  | group (index : Nat) (r : Regex)
  | seq (a b : Regex)
  | alt (a b : Regex)
  /-- From `least` to `most` repetitions, as many as possible first if `greedy`. -/
  | rep (r : Regex) (least : Nat) (most : Option Nat) (greedy : Bool)

namespace Regex

/-- Can the expression match the empty text?  Conditions are taken as met. -/
def canBeEmpty : Regex → Bool
  | .empty => true
  | .chars _ => false
  | .look _ => true
  | .group _ r => r.canBeEmpty
  | .seq a b => a.canBeEmpty && b.canBeEmpty
  | .alt a b => a.canBeEmpty || b.canBeEmpty
  | .rep r least _ _ => least == 0 || r.canBeEmpty

/-- A measure of the room an expression takes once its repetitions are written out. -/
def weight : Regex → Nat
  | .empty => 1
  | .chars s => setWeight s
  | .look _ => 1
  | .group _ r => r.weight + 2
  | .seq a b => a.weight + b.weight
  | .alt a b => a.weight + b.weight + 1
  | .rep r least most _ => (r.weight + 1) * (max 1 (most.getD (least + 1)))
where
  /-- Sets beyond ASCII take more room. -/
  setWeight : CharSet → Nat
    | .range _ last => if last < 128 then 1 else 4
    | .word => 400
    | .digit => 60
    | .blank => 10
    | .categories _ => 400
    | .complement s => setWeight s + 4
    | .union s t => setWeight s + setWeight t
    | .inter s t => setWeight s + setWeight t
    | .diff s t => setWeight s + setWeight t
    | .symmDiff s t => setWeight s + setWeight t
    | .folded s => setWeight s
    | .nothing => 1

/-- The greatest weight that is accepted. -/
def maxWeight : Nat := 320000

/-- A sequence of expressions. -/
def seqAll : List Regex → Regex
  | [] => .empty
  | [r] => r
  | r :: rest => .seq r (seqAll rest)

/-- Alternatives in the order in which they are tried. -/
def altAll : List Regex → Regex
  | [] => .empty
  | [r] => r
  | r :: rest => .alt r (altAll rest)

end Regex

end LogWatch
