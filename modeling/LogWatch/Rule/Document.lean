import LogWatch.Yaml.Typed

/-!
# Rule documents

A rule as it is written down: what it is called and how severe it is, and a detection block that is
still uncompiled.  A title and a detection block must be there; members that no rule knows are
skipped.

* `RuleDocument.ofText?` — the document that a YAML text spells.
-/

namespace LogWatch.Rule

/-- Where the records of a rule come from.  This is for readers: rules are tried on every record. -/
structure LogSource where
  product : Option String := none
  category : Option String := none
  service : Option String := none
deriving DecidableEq, Repr

/-- A rule as it is written down. -/
structure RuleDocument where
  title : String
  id : Option String
  status : Option String
  description : Option String
  level : Option String
  tags : List String
  logSource : LogSource
  detection : List (Yaml × Yaml)
  falsePositives : List String

namespace RuleDocument

open Yaml.Typed

/-- The source of records that a node describes. -/
def readLogSource (node : Yaml.Node) : Yaml.Typed LogSource := do
  let members ← members? node
  return {
    product := ← withDefault? members "product" none optionalText?
    category := ← withDefault? members "category" none optionalText?
    service := ← withDefault? members "service" none optionalText? }

/-- The document that a node describes. -/
def read (node : Yaml.Node) : Yaml.Typed RuleDocument := do
  let members ← members? node
  return {
    title := ← required? members "title" text?
    id := ← withDefault? members "id" none optionalText?
    status := ← withDefault? members "status" none optionalText?
    description := ← withDefault? members "description" none optionalText?
    level := ← withDefault? members "level" none optionalText?
    tags := ← withDefault? members "tags" [] texts?
    logSource := ← withDefault? members "logsource" {} readLogSource
    detection := ← required? members "detection" (valueEntries? (Yaml.maxDepth - 2))
    falsePositives := ← withDefault? members "falsepositives" [] texts? }

/-- The document that a text spells. -/
def ofText? (text : String) : Option RuleDocument :=
  Yaml.Typed.read? read text

end RuleDocument

end LogWatch.Rule
