import LogWatch.Rule.Repository

/-!
# Corpora

The rules that are in use, in order, with the field names they are tried with.  A corpus is complete
or absent: one bad source keeps all of it from being loaded.

* `RuleCorpus.load` — the corpus of a repository;
* `RuleCorpus.reload` — the corpus in use is replaced, or stays if there is nothing to replace it;
* `RuleCorpus.firstMatch?` — the first rule that holds of a record.
-/

namespace LogWatch.Rule

/-- The rule that a source describes. -/
def RuleSource.compile (s : RuleSource) : Except LoadError DetectionRule :=
  match Text.Utf8.decode s.bytes with
  | .error fault => .error (.invalid s.path (.notText fault))
  | .ok text =>
    match RuleDocument.ofText? text with
    | none => .error (.malformed s.path)
    | some doc =>
      match DetectionRule.ofDocument doc s.stem with
      | .error fault => .error (.invalid s.path (.unusable fault))
      | .ok rule => .ok rule

/-- The place of a text that comes from no file. -/
def inlinePath : Files.Path :=
  .ofText "<inline>"

/-- The rule that a text on its own describes.  It has to name its identifier. -/
def DetectionRule.ofText (text : String) : Except LoadError DetectionRule :=
  match RuleDocument.ofText? text with
  | none => .error (.malformed inlinePath)
  | some doc =>
    match DetectionRule.ofDocument doc "" with
    | .error fault => .error (.invalid inlinePath (.unusable fault))
    | .ok rule => .ok rule

/-- Rules in the order in which they are tried, and the field names they are tried with. -/
structure RuleCorpus where
  rules : List DetectionRule
  names : FieldNames

namespace RuleCorpus

/-- A corpus without rules. -/
def empty : RuleCorpus :=
  ⟨[], {}⟩

/-- The rules of some sources, in order; the first bad source is an error. -/
def compileAll : List RuleSource → Except LoadError (List DetectionRule)
  | [] => .ok []
  | s :: rest => do
    let rule ← s.compile
    let rules ← compileAll rest
    return rule :: rules

/-- The corpus of a repository.  No two rules may have one identifier. -/
def load (r : Repository) : Except LoadError RuleCorpus := do
  let sources ← r.sources
  let names ← r.names
  let rules ← compileAll sources
  let report := Report.ofIds (rules.map (·.id))
  if report.isValid then return ⟨rules, names.getD {}⟩ else throw (.rejected report)

/-- The first rule that holds of a record.  A rule that cannot be evaluated does not hold. -/
def firstMatch? (c : RuleCorpus) (fields : FieldMap) : Option DetectionRule :=
  c.rules.find? fun rule =>
    match rule.holds c.names fields with
    | .ok b => b
    | .error _ => false

/-- The corpus in use after a repository was to be loaded: the loaded one, and how many rules it has, or
the one before, and why. -/
def reload (c : RuleCorpus) (r : Repository) : Except LoadError Nat × RuleCorpus :=
  match load r with
  | .ok loaded => (.ok loaded.rules.length, loaded)
  | .error e => (.error e, c)

/-- What a list of the rules says. -/
def infos (c : RuleCorpus) : List RuleInfo :=
  c.rules.map DetectionRule.info

end RuleCorpus

end LogWatch.Rule
