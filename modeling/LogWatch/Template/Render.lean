import LogWatch.Number.Decimal
import LogWatch.Template.Syntax
import LogWatch.Text.Unicode.Case

/-!
# Rendering

What a template comes to, given values for its names.  The filters are `upper`, `lower`, `round` and
`join`, the only function is `env`, which looks up a variable of the environment, and values are
printed as they are.

* `evalExpr?` — the value of an expression, unless it asks for a member of nothing, a filter that is
  not there, or the like;
* `render?` — the text of a template.
-/

namespace LogWatch.Template

/-- What a template can refer to. -/
structure Context where
  names : List (String × Value)
  environment : String → Option String

namespace Context

/-- The value of a name. -/
def lookup (c : Context) (name : String) : Value :=
  match c.names.find? (·.1 == name) with
  | some (_, v) => v
  | none => .undefined

/-- The context with one more name. -/
def bind (c : Context) (name : String) (v : Value) : Context :=
  { c with names := (name, v) :: c.names }

end Context

/-! ## Operators -/

/-- The sum of two numbers, or two texts or lists put together. -/
def addValues? (a b : Value) : Option Value :=
  match a, b with
  | .str s, .str t => some (.str (s ++ t))
  | .list as, .list bs => some (.list (as ++ bs))
  | _, _ =>
    match a.int?, b.int? with
    | some m, some n => some (.int (m + n))
    | _, _ => do return .float ((← a.float?) + (← b.float?))

/-- A number made of two others: of integers where both are, or of doubles. -/
def arithmetic? (onInts : Int → Int → Option Int) (onFloats : Float → Float → Float) (a b : Value) :
    Option Value :=
  match a.int?, b.int? with
  | some m, some n => (onInts m n).map .int
  | _, _ => do return .float (onFloats (← a.float?) (← b.float?))

/-- Is a value contained in another one? -/
def isContained? (a b : Value) : Option Bool :=
  match b with
  | .undefined => some false
  | .list items => some (items.any a.same)
  | .map entries => some (entries.any fun e => e.1.same a)
  | .str s => some (Text.contains a.text.toList s.toList)
  | _ => none

/-- The value of an operator whose operands are both needed. -/
def applyOperator? (op : Operator) (a b : Value) : Option Value :=
  match op with
  | .or => some (if a.isTrue then a else b)
  | .and => some (if a.isTrue then b else a)
  | .equal => some (.bool (a.same b))
  | .notEqual => some (.bool (!a.same b))
  | .less => some (.bool (a.precedes b))
  | .lessOrEqual => some (.bool (!b.precedes a))
  | .greater => some (.bool (b.precedes a))
  | .greaterOrEqual => some (.bool (!a.precedes b))
  | .isIn => (isContained? a b).map .bool
  | .isNotIn => (isContained? a b).map fun c => .bool (!c)
  | .add => addValues? a b
  | .subtract => arithmetic? (fun m n => some (m - n)) (· - ·) a b
  | .join => some (.str (a.text ++ b.text))
  | .multiply => arithmetic? (fun m n => some (m * n)) (· * ·) a b
  | .divide => do return .float ((← a.float?) / (← b.float?))
  | .floorDivide =>
    arithmetic? (fun m n => if n = 0 then none else some (m / n)) (fun x y => (x / y).floor) a b
  | .remainder =>
    arithmetic? (fun m n => if n = 0 then none else some (m % n))
      (fun x y => x - y * (x / y).floor) a b
  | .power =>
    arithmetic? (fun m n => if 0 ≤ n ∧ n ≤ 128 then some (Int.pow m n.toNat) else none) Float.pow a b

/-- A number with the other sign. -/
def negateValue? : Value → Option Value
  | .int n => some (.int (-n))
  | .float x => some (.float (-x))
  | _ => none

/-! ## Filters, tests and functions -/

/-- The number of decimals that an argument asks for. -/
def decimals? : List Value → Option Nat
  | [] => some 0
  | [.undefined] => some 0
  | [.none] => some 0
  | [.bool b] => some (if b then 1 else 0)
  | [.int n] => if 0 ≤ n ∧ n < 0x100000000 then some n.toNat else none
  | [.float x] =>
    match Number.magnitude x with
    | .finite b => if b.isWhole && 0 ≤ b.truncate && b.truncate < 0x100000000 then some b.truncate.toNat else none
    | _ => none
  | _ => none

/-- Texts put together with another one between them; nothing is put in front of the first that is
not empty. -/
def joinTexts (between : String) (texts : List String) : String :=
  texts.foldl (fun done t => (if done = "" then done else done ++ between) ++ t) ""

/-- The text that a filter puts between values, none unless it is given. -/
def joiner? : List Value → Option String
  | [] => some ""
  | [.undefined] => some ""
  | [.none] => some ""
  | [v] => some v.text
  | _ => none

/-- The value of a filter. -/
def applyFilter? (name : String) (v : Value) (args : List Value) : Option Value :=
  match name, args with
  | "upper", [] => some (.str (String.ofList (Text.Unicode.uppered v.text.toList)))
  | "lower", [] => some (.str (String.ofList (Text.Unicode.lowered v.text.toList)))
  | "round", args =>
    match v with
    | .int n => (decimals? args).map fun places => .str (Number.fixed places (Float.ofInt n))
    | .float x => (decimals? args).map fun places => .str (Number.fixed places x)
    | _ => none
  | "join", args => do
    let between ← joiner? args
    match v with
    | .undefined => return .str ""
    | .none => return .str ""
    | v => return .str (joinTexts between ((← v.items?).map Value.text))
  | _, _ => none

/-- The answer of a test. -/
def applyTest? (name : String) (v : Value) (args : List Value) : Option Bool :=
  match name, args with
  | "defined", [] => some (!v.isUndefined)
  | "undefined", [] => some v.isUndefined
  | "none", [] => some (match v with
    | .none => true
    | _ => false)
  | _, _ => none

/-- The value of a function: only variables of the environment can be asked for. -/
def applyFunction? (c : Context) (name : String) (args : List Value) : Option Value :=
  match name, args with
  | "env", [v] => some (.str ((c.environment v.text).getD ""))
  | _, _ => none

/-! ## Expressions -/

/-- A member of a value; there are none of what is undefined. -/
def member? (v key : Value) : Option Value :=
  if v.isUndefined then none else some (v.member key)

mutual

/-- The value of an expression. -/
def evalExpr? (c : Context) : Expr → Option Value
  | .value v => some v
  | .name n => some (c.lookup n)
  | .list items => (evalAll? c items).map .list
  | .map entries => (evalEntries? c entries).map .map
  | .member e n => do member? (← evalExpr? c e) (.str n)
  | .item e key => do
    let v ← evalExpr? c e
    member? v (← evalExpr? c key)
  | .call (.name f) args => do applyFunction? c f (← evalAll? c args)
  | .call _ _ => none
  | .keyword _ _ => none
  | .filter n e args => do
    let v ← evalExpr? c e
    applyFilter? n v (← evalAll? c args)
  | .test n e args => do
    let v ← evalExpr? c e
    return .bool (← applyTest? n v (← evalAll? c args))
  | .not e => do return .bool (!(← evalExpr? c e).isTrue)
  | .negate e => do negateValue? (← evalExpr? c e)
  | .binary op a b => do
    let left ← evalExpr? c a
    if op = .and ∧ left.isTrue = false then return left
    else if op = .or ∧ left.isTrue then return left
    else applyOperator? op left (← evalExpr? c b)
  | .choice condition yes no => do
    if (← evalExpr? c condition).isTrue then evalExpr? c yes
    else
      match no with
      | some e => evalExpr? c e
      | none => return .undefined

/-- The values of some expressions. -/
def evalAll? (c : Context) : List Expr → Option (List Value)
  | [] => some []
  | e :: rest => do
    let v ← evalExpr? c e
    return v :: (← evalAll? c rest)

/-- The entries of a map. -/
def evalEntries? (c : Context) : List (Expr × Expr) → Option (List (Value × Value))
  | [] => some []
  | (key, e) :: rest => do
    let k ← evalExpr? c key
    let v ← evalExpr? c e
    return (k, v) :: (← evalEntries? c rest)

end

/-! ## Parts -/

/-- The context with names for the parts of an item. -/
def bindTargets? (c : Context) (targets : List String) (item : Value) : Option Context :=
  match targets with
  | [name] => some (c.bind name item)
  | names =>
    match item with
    | .list items =>
      if items.length = names.length then
        some ((names.zip items).foldl (fun c (n, v) => c.bind n v) c)
      else none
    | _ => none

/-- What a loop tells about its state. -/
def loopState (index length : Nat) : Value :=
  .map [
    (.str "index", .int (index + 1)), (.str "index0", .int index), (.str "length", .int length),
    (.str "revindex", .int (length - index)), (.str "revindex0", .int (length - index - 1)),
    (.str "first", .bool (index = 0)), (.str "last", .bool (index + 1 = length))]

/-- The items for which the condition of a loop holds. -/
def chosenItems? (c : Context) (targets : List String) (condition : Option Expr)
    (items : List Value) : Option (List Value) :=
  match condition with
  | none => some items
  | some e => items.filterM fun item => do return (← evalExpr? (← bindTargets? c targets item) e).isTrue

mutual

/-- The text of a part. -/
def renderPart? (c : Context) : Part → Option (List Char)
  | .text chars => some chars
  | .print e => do return (← evalExpr? c e).text.toList
  | .branch condition yes no => do
    if (← evalExpr? c condition).isTrue then renderParts? c yes else renderParts? c no
  | .loop targets values condition body otherwise => do
    let items ← chosenItems? c targets condition (← (← evalExpr? c values).items?)
    if items.isEmpty then renderParts? c otherwise
    else
      let texts ← items.zipIdx.mapM fun (item, index) => do
        let inner ← bindTargets? (c.bind "loop" (loopState index items.length)) targets item
        renderParts? inner body
      return texts.flatten

/-- The text of some parts. -/
def renderParts? (c : Context) : List Part → Option (List Char)
  | [] => some []
  | p :: rest => do
    let text ← renderPart? c p
    return text ++ (← renderParts? c rest)

end

/-- Is a text a well-formed template? -/
def isWellFormed (template : String) : Bool :=
  (ofText? template).isSome

/-- The text of a template, unless it is malformed or cannot be rendered. -/
def render? (c : Context) (template : String) : Option String := do
  return String.ofList (← renderParts? c (← ofText? template))

end LogWatch.Template
