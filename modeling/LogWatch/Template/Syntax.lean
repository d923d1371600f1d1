import LogWatch.Template.Token
import LogWatch.Template.Value

/-!
# Templates

The parts of a template: text, expressions to be printed, branches and loops.

* `Template.ofText?` — the template that a text spells, if it is well formed.

An expression is read by levels, from the loosest operators to the tightest: `or`, `and`, `not`,
comparisons, sums, joining of texts, products, powers, and then signs, members, calls and filters.
-/

namespace LogWatch.Template

/-- An operator between two expressions. -/
inductive Operator where
  | or
  | and
  | equal
  | notEqual
  | less
  | lessOrEqual
  | greater
  | greaterOrEqual
  | isIn
  | isNotIn
  | add
  | subtract
  | join
  | multiply
  | divide
  | floorDivide
  | remainder
  | power
deriving DecidableEq, Repr

/-- An expression. -/
inductive Expr where
  | value (v : Value)
  | name (name : String)
  | list (items : List Expr)
  | map (entries : List (Expr × Expr))
  | member (of : Expr) (name : String)
  | item (of key : Expr)
  | call (function : Expr) (args : List Expr)
  | keyword (name : String) (value : Expr)
  | filter (name : String) (of : Expr) (args : List Expr)
  | test (name : String) (of : Expr) (args : List Expr)
  | not (operand : Expr)
  | negate (operand : Expr)
  | binary (op : Operator) (left right : Expr)
  | choice (condition yes : Expr) (no : Option Expr)
deriving Inhabited

/-- A part of a template. -/
inductive Part where
  | text (chars : List Char)
  | print (e : Expr)
  | branch (condition : Expr) (yes no : List Part)
  | loop (targets : List String) (values : Expr) (condition : Option Expr) (body otherwise : List Part)
deriving Inhabited

/-! ## Expressions -/

/-- The operator at the beginning of some tokens, if it belongs to a level, and what follows. -/
def operator? (level : Nat) : List Token → Option (Operator × List Token)
  | .name "or" :: rest => if level = 0 then some (.or, rest) else none
  | .name "and" :: rest => if level = 1 then some (.and, rest) else none
  | .name "in" :: rest => if level = 3 then some (.isIn, rest) else none
  | .name "not" :: .name "in" :: rest => if level = 3 then some (.isNotIn, rest) else none
  | .mark "==" :: rest => if level = 3 then some (.equal, rest) else none
  | .mark "!=" :: rest => if level = 3 then some (.notEqual, rest) else none
  | .mark "<" :: rest => if level = 3 then some (.less, rest) else none
  | .mark "<=" :: rest => if level = 3 then some (.lessOrEqual, rest) else none
  | .mark ">" :: rest => if level = 3 then some (.greater, rest) else none
  | .mark ">=" :: rest => if level = 3 then some (.greaterOrEqual, rest) else none
  | .mark "+" :: rest => if level = 4 then some (.add, rest) else none
  | .mark "-" :: rest => if level = 4 then some (.subtract, rest) else none
  | .mark "~" :: rest => if level = 5 then some (.join, rest) else none
  | .mark "*" :: rest => if level = 6 then some (.multiply, rest) else none
  | .mark "/" :: rest => if level = 6 then some (.divide, rest) else none
  | .mark "//" :: rest => if level = 6 then some (.floorDivide, rest) else none
  | .mark "%" :: rest => if level = 6 then some (.remainder, rest) else none
  | .mark "**" :: rest => if level = 7 then some (.power, rest) else none
  | _ => none

/-- The strings at the beginning of some tokens, put together. -/
def adjacentStrings : List Token → String × List Token
  | .str s :: rest => let (more, rest) := adjacentStrings rest; (s ++ more, rest)
  | rest => ("", rest)

/-- May an argument without parentheses follow the name of a test? -/
def startsArgument : List Token → Bool
  | .name n :: _ => !(["and", "or", "else", "is", "if"].contains n)
  | .str _ :: _ | .int _ :: _ | .float _ :: _ => true
  | .mark m :: _ => m == "[" || m == "\x7b" || m == "-" || m == "+"
  | _ => false

/-- The constant of a reserved name. -/
def constant? : String → Option Value
  | "true" | "True" => some (.bool true)
  | "false" | "False" => some (.bool false)
  | "none" | "None" => some .none
  | _ => none

mutual

/-- An expression, with a choice between two where it has a condition. -/
def readExpr? : Nat → List Token → Option (Expr × List Token)
  | 0, _ => none
  | fuel + 1, tokens => do
    let (e, rest) ← readLevel? fuel 0 tokens
    readChoice? fuel e rest

/-- The conditions after an expression. -/
def readChoice? : Nat → Expr → List Token → Option (Expr × List Token)
  | 0, _, _ => none
  | fuel + 1, e, .name "if" :: rest => do
    let (condition, rest) ← readLevel? fuel 0 rest
    match rest with
    | .name "else" :: rest =>
      let (no, rest) ← readExpr? fuel rest
      readChoice? fuel (.choice condition e (some no)) rest
    | rest => readChoice? fuel (.choice condition e none) rest
  | _ + 1, e, rest => some (e, rest)

/-- An expression of the operators of a level and tighter ones. -/
def readLevel? : Nat → Nat → List Token → Option (Expr × List Token)
  | 0, _, _ => none
  | fuel + 1, 2, .name "not" :: rest => do
    let (e, rest) ← readLevel? fuel 2 rest
    return (.not e, rest)
  | fuel + 1, 2, tokens => readLevel? fuel 3 tokens
  | fuel + 1, 8, tokens => do
    let (e, rest) ← readSigned? fuel tokens
    let (e, rest) ← readMembers? fuel e rest
    readFilters? fuel e rest
  | fuel + 1, level, tokens => do
    let (e, rest) ← readLevel? fuel (level + 1) tokens
    readOperands? fuel level e rest

/-- The further operands of a level. -/
def readOperands? : Nat → Nat → Expr → List Token → Option (Expr × List Token)
  | 0, _, _, _ => none
  | fuel + 1, level, left, tokens =>
    match operator? level tokens with
    | none => some (left, tokens)
    | some (op, rest) => do
      let (right, rest) ← readLevel? fuel (level + 1) rest
      readOperands? fuel level (.binary op left right) rest

/-- A value with its signs. -/
def readSigned? : Nat → List Token → Option (Expr × List Token)
  | 0, _ => none
  | fuel + 1, .mark "-" :: rest => do
    let (e, rest) ← readSigned? fuel rest
    return (.negate e, rest)
  | fuel + 1, tokens => readPrimary? fuel tokens

/-- A constant, a name, a list, a map or a group. -/
def readPrimary? : Nat → List Token → Option (Expr × List Token)
  | 0, _ => none
  | _ + 1, .name n :: rest =>
    match constant? n with
    | some v => some (.value v, rest)
    | none => some (.name n, rest)
  | _ + 1, .str s :: rest =>
    let (more, rest) := adjacentStrings rest
    some (.value (.str (s ++ more)), rest)
  | _ + 1, .int n :: rest => some (.value (.int n), rest)
  | _ + 1, .float x :: rest => some (.value (.float x), rest)
  | fuel + 1, .mark "[" :: rest => do
    let (items, rest) ← readItems? fuel "]" rest
    return (.list items, rest)
  | fuel + 1, .mark "\x7b" :: rest => do
    let (entries, rest) ← readEntries? fuel rest
    return (.map entries, rest)
  | _ + 1, .mark "(" :: .mark ")" :: rest => some (.list [], rest)
  | fuel + 1, .mark "(" :: rest => do
    let (e, rest) ← readExpr? fuel rest
    match rest with
    | .mark ")" :: rest => return (e, rest)
    | .mark "," :: rest =>
      let (items, rest) ← readItems? fuel ")" rest
      return (.list (e :: items), rest)
    | _ => none
  | _ + 1, _ => none

/-- Expressions with commas between them, up to a closing bracket. -/
def readItems? : Nat → String → List Token → Option (List Expr × List Token)
  | 0, _, _ => none
  | fuel + 1, close, tokens =>
    match tokens with
    | .mark m :: rest => if m = close then some ([], rest) else readItem? fuel close tokens
    | _ => readItem? fuel close tokens

/-- An expression and those after it, up to a closing bracket. -/
def readItem? : Nat → String → List Token → Option (List Expr × List Token)
  | 0, _, _ => none
  | fuel + 1, close, tokens => do
    let (e, rest) ← readArgument? fuel tokens
    match rest with
    | .mark "," :: rest =>
      let (items, rest) ← readItems? fuel close rest
      return (e :: items, rest)
    | .mark m :: rest => if m = close then return ([e], rest) else none
    | _ => none

/-- An expression, or one with a name in front. -/
def readArgument? : Nat → List Token → Option (Expr × List Token)
  | 0, _ => none
  | fuel + 1, .name n :: .mark "=" :: rest => do
    let (e, rest) ← readExpr? fuel rest
    return (.keyword n e, rest)
  | fuel + 1, tokens => readExpr? fuel tokens

/-- Entries of a map, up to its closing brace. -/
def readEntries? : Nat → List Token → Option (List (Expr × Expr) × List Token)
  | 0, _ => none
  | _ + 1, .mark "\x7d" :: rest => some ([], rest)
  | fuel + 1, tokens => do
    let (key, rest) ← readExpr? fuel tokens
    match rest with
    | .mark ":" :: rest =>
      let (v, rest) ← readExpr? fuel rest
      match rest with
      | .mark "," :: rest =>
        let (entries, rest) ← readEntries? fuel rest
        return ((key, v) :: entries, rest)
      | .mark "\x7d" :: rest => return ([(key, v)], rest)
      | _ => none
    | _ => none

/-- The members, items and calls after a value. -/
def readMembers? : Nat → Expr → List Token → Option (Expr × List Token)
  | 0, _, _ => none
  | fuel + 1, e, .mark "." :: .name n :: rest => readMembers? fuel (.member e n) rest
  | _ + 1, _, .mark "." :: _ => none
  | fuel + 1, e, .mark "[" :: rest => do
    let (key, rest) ← readExpr? fuel rest
    match rest with
    | .mark "]" :: rest => readMembers? fuel (.item e key) rest
    | _ => none
  | fuel + 1, e, .mark "(" :: rest => do
    let (args, rest) ← readItems? fuel ")" rest
    readMembers? fuel (.call e args) rest
  | _ + 1, e, rest => some (e, rest)

/-- The filters and tests after a value. -/
def readFilters? : Nat → Expr → List Token → Option (Expr × List Token)
  | 0, _, _ => none
  | fuel + 1, e, .mark "|" :: .name n :: .mark "(" :: rest => do
    let (args, rest) ← readItems? fuel ")" rest
    readFilters? fuel (.filter n e args) rest
  | fuel + 1, e, .mark "|" :: .name n :: rest => readFilters? fuel (.filter n e []) rest
  | _ + 1, _, .mark "|" :: _ => none
  | fuel + 1, e, .name "is" :: .name "not" :: rest => do
    let (t, rest) ← readTest? fuel e rest
    readFilters? fuel (.not t) rest
  | fuel + 1, e, .name "is" :: rest => do
    let (t, rest) ← readTest? fuel e rest
    readFilters? fuel t rest
  | _ + 1, e, rest => some (e, rest)

/-- A test by name, with arguments in parentheses or a single one without. -/
def readTest? : Nat → Expr → List Token → Option (Expr × List Token)
  | 0, _, _ => none
  | fuel + 1, e, .name n :: .mark "(" :: rest => do
    let (args, rest) ← readItems? fuel ")" rest
    return (.test n e args, rest)
  | fuel + 1, e, .name n :: rest =>
    if startsArgument rest then do
      let (arg, rest) ← readSigned? fuel rest
      let (arg, rest) ← readMembers? fuel arg rest
      return (.test n e [arg], rest)
    else some (.test n e [], rest)
  | _ + 1, _, _ => none

end

/-! ## Statements -/

/-- The names that no loop may give to its items. -/
def reservedNames : List String :=
  ["true", "True", "false", "False", "none", "None", "loop", "self"]

/-- The names that a loop gives to the parts of its items, up to the word "in". -/
def readTargets? : List Token → Option (List String × List Token)
  | .name n :: .name "in" :: rest => if reservedNames.contains n then none else some ([n], rest)
  | .name n :: .mark "," :: rest =>
    if reservedNames.contains n then none
    else (readTargets? rest).map fun (more, rest) => (n :: more, rest)
  | _ => none

/-- The condition of a loop, if it has one, up to the end of the statement. -/
def readCondition? (fuel : Nat) : List Token → Option (Option Expr × List Token)
  | .name "if" :: rest => do
    let (e, rest) ← readExpr? fuel rest
    match rest with
    | .closeBlock :: rest => return (some e, rest)
    | _ => none
  | .closeBlock :: rest => some (none, rest)
  | _ => none

mutual

/-- Parts up to the end, or up to a statement that goes on or ends an enclosing one. -/
def readParts? : Nat → List Token → Option (List Part × List Token)
  | 0, _ => none
  | _ + 1, [] => some ([], [])
  | fuel + 1, .text chars :: rest => do
    let (parts, rest) ← readParts? fuel rest
    return (.text chars :: parts, rest)
  | fuel + 1, .openExpr :: rest => do
    let (e, rest) ← readExpr? fuel rest
    match rest with
    | .closeExpr :: rest =>
      let (parts, rest) ← readParts? fuel rest
      return (.print e :: parts, rest)
    | _ => none
  | fuel + 1, .openBlock :: .name "if" :: rest => do
    let (part, rest) ← readBranch? fuel rest
    let (parts, rest) ← readParts? fuel rest
    return (part :: parts, rest)
  | fuel + 1, .openBlock :: .name "for" :: rest => do
    let (part, rest) ← readLoop? fuel rest
    let (parts, rest) ← readParts? fuel rest
    return (part :: parts, rest)
  | _ + 1, .openBlock :: .name n :: rest =>
    if ["elif", "else", "endif", "endfor"].contains n then some ([], .openBlock :: .name n :: rest)
    else none
  | _ + 1, _ => none

/-- A branch, after its first word. -/
def readBranch? : Nat → List Token → Option (Part × List Token)
  | 0, _ => none
  | fuel + 1, tokens => do
    let (condition, rest) ← readExpr? fuel tokens
    match rest with
    | .closeBlock :: rest =>
      let (yes, rest) ← readParts? fuel rest
      match rest with
      | .openBlock :: .name "endif" :: .closeBlock :: rest => return (.branch condition yes [], rest)
      | .openBlock :: .name "elif" :: rest =>
        let (no, rest) ← readBranch? fuel rest
        return (.branch condition yes [no], rest)
      | .openBlock :: .name "else" :: .closeBlock :: rest =>
        let (no, rest) ← readParts? fuel rest
        match rest with
        | .openBlock :: .name "endif" :: .closeBlock :: rest =>
          return (.branch condition yes no, rest)
        | _ => none
      | _ => none
    | _ => none

/-- A loop, after its first word. -/
def readLoop? : Nat → List Token → Option (Part × List Token)
  | 0, _ => none
  | fuel + 1, tokens => do
    let (targets, rest) ← readTargets? tokens
    let (values, rest) ← readLevel? fuel 0 rest
    let (condition, rest) ← readCondition? fuel rest
    let (body, rest) ← readParts? fuel rest
    match rest with
    | .openBlock :: .name "endfor" :: .closeBlock :: rest =>
      return (.loop targets values condition body [], rest)
    | .openBlock :: .name "else" :: .closeBlock :: rest =>
      let (otherwise, rest) ← readParts? fuel rest
      match rest with
      | .openBlock :: .name "endfor" :: .closeBlock :: rest =>
        return (.loop targets values condition body otherwise, rest)
      | _ => none
    | _ => none

end

/-- The parts of a template. -/
def ofTokens? (tokens : List Token) : Option (List Part) :=
  match readParts? (16 * tokens.length + 16) tokens with
  | some (parts, []) => some parts
  | _ => none

/-- The template that a text spells. -/
def ofText? (text : String) : Option (List Part) :=
  (Token.scan? text.toList).bind ofTokens?

end LogWatch.Template
