import LogWatch.Event.Level
import LogWatch.Rule.Document
import LogWatch.Rule.Validation

/-!
# Rules

A rule ready for evaluation: its selections and the condition that combines them, with what a
detection tells about it.

* `DetectionRule.ofDocument` — the rule that a document describes, or what keeps it from being one;
* `DetectionRule.holds` — does the rule hold of a record?
-/

namespace LogWatch.Rule

/-- Named selections and the condition that combines them. -/
structure Detection where
  selections : Dictionary Selection
  condition : Condition

/-- A rule ready for evaluation. -/
structure DetectionRule where
  id : String
  title : String
  description : Option String
  status : Option String
  level : Level
  tags : List String
  logSource : LogSource
  falsePositives : List String
  detection : Detection

/-- What a list of rules says about one of them. -/
structure RuleInfo where
  id : String
  title : String
  level : Level
  tags : List String
  logSource : LogSource
deriving DecidableEq, Repr

/-- What keeps a document from being a rule. -/
inductive RuleFault where
  | noId
  | badLevel (word : Level.Unknown)
  | keyNotText
  | timeframe
  | conditionEntryNotText
  | conditionListEmpty
  | conditionKind
  | badSelection (fault : SelectionFault)
  | noCondition
  | badCondition (source : String) (fault : Condition.Malformed)
  | rejected (report : Report)

/-- The fault in words. -/
def RuleFault.message : RuleFault → String
  | .noId => "rule has no id"
  | .badLevel word => word.message
  | .keyNotText => "detection keys must be strings"
  | .timeframe => "'timeframe' correlation is not supported"
  | .conditionEntryNotText => "condition list entries must be strings"
  | .conditionListEmpty => "condition list is empty"
  | .conditionKind => "condition must be a string or a list of strings"
  | .badSelection fault => fault.message
  | .noCondition => "detection has no 'condition'"
  | .badCondition source fault => "condition '" ++ source ++ "': " ++ fault.text
  | .rejected report => report.text

/-! ## The detection block -/

/-- The entries of a condition list, each in parentheses. -/
def conditionParts : List Yaml → Except RuleFault (List String)
  | [] => .ok []
  | item :: rest =>
    match item.str? with
    | none => .error .conditionEntryNotText
    | some s => do return ("(" ++ s ++ ")") :: (← conditionParts rest)

/-- The text of a condition: a string, or a list of alternatives. -/
def conditionText : Yaml → Except RuleFault String
  | .str s => .ok s
  | .seq items => do
    let parts ← conditionParts items
    if parts.isEmpty then throw .conditionListEmpty
    return " or ".intercalate parts
  | _ => .error .conditionKind

/-- What the entries of a detection block describe: selections by name, and the text of the
condition. -/
structure DetectionParts where
  condition : Option String := none
  selections : Dictionary Selection := []

/-- What has been described so far and by the entries that follow. -/
def DetectionParts.ofEntries :
    DetectionParts → List (Yaml × Yaml) → Except RuleFault DetectionParts
  | parts, [] => .ok parts
  | parts, (key, value) :: rest =>
    match key.str? with
    | none => .error .keyNotText
    | some "condition" => do
      let text ← conditionText value
      ofEntries { parts with condition := some text } rest
    | some "timeframe" => .error .timeframe
    | some name =>
      match Selection.ofYaml name value with
      | .error fault => .error (.badSelection fault)
      | .ok s => ofEntries { parts with selections := parts.selections.insert name s } rest

/-- The detection block that some entries describe. -/
def Detection.ofEntries (entries : List (Yaml × Yaml)) : Except RuleFault Detection := do
  let parts ← DetectionParts.ofEntries {} entries
  match parts.condition with
  | none => throw .noCondition
  | some source =>
    match Condition.ofText source with
    | .error fault => throw (.badCondition source fault)
    | .ok condition =>
      let report := Report.ofDetection parts.selections condition
      if report.isValid then return ⟨parts.selections, condition⟩ else throw (.rejected report)

/-! ## Rules -/

namespace DetectionRule

/-- The identifier of a rule: its own unless that is blank, or the one to fall back on. -/
def chooseId (own : Option String) (fallback : String) : String :=
  match own with
  | some id => if (Text.trim id.toList).isEmpty then fallback else id
  | none => fallback

/-- The level of a rule, medium where it names none. -/
def chooseLevel : Option String → Except RuleFault Level
  | none => .ok .medium
  | some word =>
    match Level.ofText word with
    | .ok level => .ok level
    | .error unknown => .error (.badLevel unknown)

/-- The rule that a document describes. -/
def ofDocument (doc : RuleDocument) (fallback : String) : Except RuleFault DetectionRule := do
  let id := chooseId doc.id fallback
  if id.isEmpty then throw .noId
  let level ← chooseLevel doc.level
  let detection ← Detection.ofEntries doc.detection
  return {
    id := id
    title := doc.title
    description := doc.description
    status := doc.status
    level := level
    tags := doc.tags
    logSource := doc.logSource
    falsePositives := doc.falsePositives
    detection := detection }

/-- What a list of rules says about this one. -/
def info (r : DetectionRule) : RuleInfo :=
  ⟨r.id, r.title, r.level, r.tags, r.logSource⟩

/-- Does the rule hold of a record? -/
def holds (r : DetectionRule) (names : FieldNames) (fields : FieldMap) : Except EvalError Bool :=
  r.detection.condition.holds r.detection.selections names fields

end DetectionRule

end LogWatch.Rule
