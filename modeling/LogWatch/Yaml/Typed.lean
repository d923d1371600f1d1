import LogWatch.Yaml.Schema

/-!
# YAML of a known form

Where the form of a document is known, its scalars are taken as texts whatever they would stand for
on their own, so that `title: 12` has the title "12".  A reading goes through the nodes of one
document and counts the aliases that it follows, of which there may only be so many.

* `Typed.text?`, `Typed.optionalText?`, `Typed.texts?`, `Typed.members?`, `Typed.value?` — the parts of
  such a form;
* `Typed.read?` — a reading of the only document of a text.
-/

namespace LogWatch.Yaml

/-- A reading: from the greatest number of aliases and the number followed so far to a value and the
number followed then. -/
abbrev Typed (α : Type) := ReaderT Nat (StateT Spent Option) α

namespace Typed

/-- A reading that fails. -/
def fail {α : Type} : Typed α :=
  fun _ _ => none

/-- A reading that yields a value if there is one. -/
def ofOption {α : Type} : Option α → Typed α
  | some a => pure a
  | none => fail

/-- The node that an alias stands for, however many aliases that takes. -/
def follow : Node → Typed Node
  | .alias none => fail
  | .alias (some target) => do
    if (← get) < (← read) then
      modify (· + 1)
      follow target
    else fail
  | node => pure node

/-- The text of a scalar. -/
def text? (node : Node) : Typed String := do
  match ← follow node with
  | .scalar _ _ text => pure text
  | _ => fail

/-- Does a plain scalar say that there is no value?  A tag decides unless it is that of null, which
then admits no other text. -/
def saysNull? (tag : Option String) (text : String) : Option Bool :=
  match tag with
  | none => some (text.isEmpty || isNullWord text)
  | some tag =>
    if tag == coreTag "null" then if isNullWord text then some true else none
    else some false

/-- The text of a scalar, or none where it says that there is no value. -/
def optionalText? (node : Node) : Typed (Option String) := do
  match ← follow node with
  | .scalar tag .plain text =>
    if ← ofOption (saysNull? tag text) then pure none else pure (some text)
  | .scalar _ _ text => pure (some text)
  | _ => fail

/-- The nodes of a sequence; an empty plain scalar is an empty one. -/
def items? (node : Node) : Typed (List Node) := do
  match ← follow node with
  | .sequence _ items => pure items
  | .scalar _ .plain "" => pure []
  | _ => fail

/-- The entries of a mapping; an empty plain scalar is an empty one. -/
def entries? (node : Node) : Typed (List (Node × Node)) := do
  match ← follow node with
  | .mapping _ entries => pure entries
  | .scalar _ .plain "" => pure []
  | _ => fail

/-- The texts of a sequence of scalars. -/
def texts? (node : Node) : Typed (List String) := do
  (← items? node).mapM text?

/-- The entries of a mapping with texts for keys. -/
def members? (node : Node) : Typed (List (String × Node)) := do
  (← entries? node).mapM fun (key, value) => do return (← text? key, value)

/-- The node of a member that may be missing but must not be repeated. -/
def member? (name : String) (members : List (String × Node)) : Typed (Option Node) :=
  match members.filter (·.1 == name) with
  | [] => pure none
  | [(_, node)] => pure (some node)
  | _ => fail

/-- A member read in its own way, or a default where it is missing. -/
def withDefault? {α : Type} (members : List (String × Node)) (name : String) (default : α)
    (reading : Node → Typed α) : Typed α := do
  match ← member? name members with
  | some node => reading node
  | none => pure default

/-- A member that must be there, read in its own way. -/
def required? {α : Type} (members : List (String × Node)) (name : String)
    (reading : Node → Typed α) : Typed α := do
  match ← member? name members with
  | some node => reading node
  | none => fail

/-- The value of a node in which collections nest at most `depth` deep. -/
def value? (depth : Nat) (node : Node) : Typed Yaml :=
  fun limit spent => ofNodeWithin? limit depth node spent

/-- The entries of a mapping as values; a key must not be repeated. -/
def valueEntries? (depth : Nat) (node : Node) : Typed (List (Yaml × Yaml)) := do
  let entries ← entries? node
  fun limit spent => ofEntries? limit depth [] entries spent

/-- A reading of the only document of a text. -/
def read? {α : Type} (reading : Node → Typed α) (text : String) : Option α := do
  let document ← Document.ofText? text
  let (a, _) ← reading document.root (document.parts * 100) 0
  return a

end Typed

end LogWatch.Yaml
