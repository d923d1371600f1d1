import LogWatch.Text.Quoted

/-!
# Conditions

The condition of a rule says which combination of its selections makes it hold:

    either   := both ("or" both)*
    both     := negation ("and" negation)*
    negation := "not" negation | primary
    primary  := "(" either ")" | ("1" | "any" | "all") "of" (name | "them") | name

Keywords may be written in any case, names may not.  After "of" a name that ends in an asterisk
stands for every selection whose name begins with what precedes the asterisk.

* `Condition.Token.scan` — the words of a condition;
* `Condition.ofText` — the expression, or what is wrong with it and at which token;
* `Condition.names` — the selections that an expression names one by one.
-/

namespace LogWatch.Rule

/-! ## Expressions -/

/-- The selections that a quantifier ranges over. -/
inductive SelectionSet where
  | them
  | startingWith (start : String)
  | named (name : String)
deriving DecidableEq, Repr

/-- Does a selection of this name belong to the set? -/
def SelectionSet.contains (set : SelectionSet) (name : String) : Bool :=
  match set with
  | .them => true
  | .startingWith start => Text.startsWith start.toList name.toList
  | .named n => n == name

/-- A Boolean expression over named selections. -/
inductive Condition where
  | selection (name : String)
  | not (operand : Condition)
  | and (operands : List Condition)
  | or (operands : List Condition)
  | oneOf (set : SelectionSet)
  | allOf (set : SelectionSet)

namespace Condition

/-- The name that a set consists of, if it is given by name. -/
def setName : SelectionSet → List String
  | .named n => [n]
  | _ => []

mutual

/-- The names that an expression mentions one by one, in order and with repetitions. -/
def names : Condition → List String
  | .selection n => [n]
  | .not c => names c
  | .and cs => namesOfAll cs
  | .or cs => namesOfAll cs
  | .oneOf set => setName set
  | .allOf set => setName set

/-- The names that some expressions mention. -/
def namesOfAll : List Condition → List String
  | [] => []
  | c :: rest => names c ++ namesOfAll rest

end

mutual

/-- The sets that an expression quantifies over, in order. -/
def sets : Condition → List SelectionSet
  | .selection _ => []
  | .not c => sets c
  | .and cs => setsOfAll cs
  | .or cs => setsOfAll cs
  | .oneOf set => [set]
  | .allOf set => [set]

/-- The sets that some expressions quantify over. -/
def setsOfAll : List Condition → List SelectionSet
  | [] => []
  | c :: rest => sets c ++ setsOfAll rest

end

/-! ## Words -/

/-- A word of a condition. -/
inductive Token where
  | opening
  | closing
  | and
  | or
  | not
  | of
  | one
  | all
  | them
  | bar
  | name (text : String)
deriving DecidableEq, Repr

namespace Token

/-- A token as messages show it. -/
def describe : Token → String
  | .opening => "LParen"
  | .closing => "RParen"
  | .and => "And"
  | .or => "Or"
  | .not => "Not"
  | .of => "Of"
  | .one => "One"
  | .all => "All"
  | .them => "Them"
  | .bar => "Pipe"
  | .name text => "Ident(" ++ Text.quoted text ++ ")"

/-- The characters that are tokens on their own. -/
def ofMark? : Char → Option Token
  | '(' => some .opening
  | ')' => some .closing
  | '|' => some .bar
  | _ => none

/-- The token of a word: a keyword in any case, or a name. -/
def ofWord (word : List Char) : Token :=
  let text := String.ofList word
  let key := Text.asciiLowered text
  if key = "and" then .and
  else if key = "or" then .or
  else if key = "not" then .not
  else if key = "of" then .of
  else if key = "1" ∨ key = "any" then .one
  else if key = "all" then .all
  else if key = "them" then .them
  else .name text

/-- The token of a word that has ended, its characters in reverse. -/
def ended (word : List Char) : List Token :=
  if word.isEmpty then [] else [ofWord word.reverse]

/-- The tokens of a text that continues a word, held in reverse. -/
def scanAfter (word : List Char) : List Char → List Token
  | [] => ended word
  | c :: cs =>
    match ofMark? c with
    | some mark => ended word ++ mark :: scanAfter [] cs
    | none =>
      if Text.isBlank c then ended word ++ scanAfter [] cs
      else scanAfter (c :: word) cs

/-- The tokens of a text. -/
def scan (text : String) : List Token :=
  scanAfter [] text.toList

end Token

/-! ## Faults -/

/-- What is wrong with a condition. -/
inductive Fault where
  | empty
  | ended
  | unexpected (token : Token)
  | trailing (token : Token)
  | looseWildcard (word : String)
  | closeExpected
  | ofExpected
  | setExpected
  | aggregation
deriving DecidableEq, Repr

/-- A fault in words. -/
def Fault.message : Fault → String
  | .empty => "empty condition"
  | .ended => "unexpected end of condition"
  | .unexpected token => "unexpected token " ++ token.describe
  | .trailing token => "unexpected trailing token " ++ token.describe
  | .looseWildcard word => "wildcard '" ++ word ++ "' is only allowed after '1 of' or 'all of'"
  | .closeExpected => "expected ')'"
  | .ofExpected => "expected 'of'"
  | .setExpected => "expected selection name or 'them' after 'of'"
  | .aggregation => "aggregation expressions are not supported"

/-- A fault and the number of tokens that had been asked for when it showed. -/
structure Malformed where
  fault : Fault
  position : Nat
deriving DecidableEq, Repr

/-- The complaint about a malformed condition. -/
def Malformed.text (m : Malformed) : String :=
  m.fault.message ++ " at token " ++ toString m.position

/-! ## Reading -/

/-- What has been read, the number of tokens before the rest, and the rest. -/
structure Progress (α : Type) where
  value : α
  position : Nat
  rest : List Token

/-- A set named after "of": an asterisk at the end makes it a set of all that begin alike. -/
def setOfWord (word : String) : SelectionSet :=
  match word.toList.getLast? with
  | some '*' => .startingWith (String.ofList word.toList.dropLast)
  | _ => .named word

/-- The set of a quantifier, from the word "of" on. -/
def readSet (position : Nat) : List Token → Except Malformed (Progress SelectionSet)
  | .of :: .them :: rest => .ok ⟨.them, position + 2, rest⟩
  | .of :: .name word :: rest => .ok ⟨setOfWord word, position + 2, rest⟩
  | .of :: _ => .error ⟨.setExpected, position + 2⟩
  | _ => .error ⟨.ofExpected, position + 1⟩

/-- A chain of one operand is the operand. -/
def chain (join : List Condition → Condition) : List Condition → Condition
  | [c] => c
  | cs => join cs

mutual

/-- Alternatives joined by "or". -/
def readEither : Nat → Nat → List Token → Except Malformed (Progress Condition)
  | 0, position, _ => .error ⟨.ended, position⟩
  | fuel + 1, position, tokens => do
    let ⟨first, position, rest⟩ ← readBoth fuel position tokens
    let ⟨others, position, rest⟩ ← readAlternatives fuel position rest
    return ⟨chain .or (first :: others), position, rest⟩

/-- The further alternatives, each after an "or". -/
def readAlternatives : Nat → Nat → List Token → Except Malformed (Progress (List Condition))
  | 0, position, _ => .error ⟨.ended, position⟩
  | fuel + 1, position, .or :: tokens => do
    let ⟨next, position, rest⟩ ← readBoth fuel (position + 1) tokens
    let ⟨others, position, rest⟩ ← readAlternatives fuel position rest
    return ⟨next :: others, position, rest⟩
  | _ + 1, position, tokens => .ok ⟨[], position, tokens⟩

/-- Operands joined by "and". -/
def readBoth : Nat → Nat → List Token → Except Malformed (Progress Condition)
  | 0, position, _ => .error ⟨.ended, position⟩
  | fuel + 1, position, tokens => do
    let ⟨first, position, rest⟩ ← readNegation fuel position tokens
    let ⟨others, position, rest⟩ ← readOperands fuel position rest
    return ⟨chain .and (first :: others), position, rest⟩

/-- The further operands, each after an "and". -/
def readOperands : Nat → Nat → List Token → Except Malformed (Progress (List Condition))
  | 0, position, _ => .error ⟨.ended, position⟩
  | fuel + 1, position, .and :: tokens => do
    let ⟨next, position, rest⟩ ← readNegation fuel (position + 1) tokens
    let ⟨others, position, rest⟩ ← readOperands fuel position rest
    return ⟨next :: others, position, rest⟩
  | _ + 1, position, tokens => .ok ⟨[], position, tokens⟩

/-- A negation, a group in parentheses, a quantifier or the name of a selection. -/
def readNegation : Nat → Nat → List Token → Except Malformed (Progress Condition)
  | 0, position, _ => .error ⟨.ended, position⟩
  | fuel + 1, position, .not :: tokens => do
    let ⟨operand, position, rest⟩ ← readNegation fuel (position + 1) tokens
    return ⟨.not operand, position, rest⟩
  | fuel + 1, position, .opening :: tokens => do
    let ⟨inner, position, rest⟩ ← readEither fuel (position + 1) tokens
    match rest with
    | .closing :: rest => return ⟨inner, position + 1, rest⟩
    | _ => throw ⟨.closeExpected, position + 1⟩
  | _ + 1, position, .one :: tokens => do
    let ⟨set, position, rest⟩ ← readSet (position + 1) tokens
    return ⟨.oneOf set, position, rest⟩
  | _ + 1, position, .all :: tokens => do
    let ⟨set, position, rest⟩ ← readSet (position + 1) tokens
    return ⟨.allOf set, position, rest⟩
  | _ + 1, position, .name word :: rest =>
    if '*' ∈ word.toList then .error ⟨.looseWildcard word, position + 1⟩
    else .ok ⟨.selection word, position + 1, rest⟩
  | _ + 1, position, .bar :: _ => .error ⟨.aggregation, position + 1⟩
  | _ + 1, position, token :: _ => .error ⟨.unexpected token, position + 1⟩
  | _ + 1, position, [] => .error ⟨.ended, position + 1⟩

end

/-- The expression of a list of tokens, all of which must belong to it. -/
def ofTokens (tokens : List Token) : Except Malformed Condition :=
  if tokens.isEmpty then .error ⟨.empty, 0⟩
  else
    match readEither (4 * tokens.length + 4) 0 tokens with
    | .error e => .error e
    | .ok ⟨c, _, []⟩ => .ok c
    | .ok ⟨_, position, .bar :: _⟩ => .error ⟨.aggregation, position⟩
    | .ok ⟨_, position, token :: _⟩ => .error ⟨.trailing token, position⟩

/-- The expression that a text spells. -/
def ofText (text : String) : Except Malformed Condition :=
  ofTokens (Token.scan text)

end Condition

end LogWatch.Rule
