import LogWatch.Event.Basic
import LogWatch.Intake.Normalizer
import LogWatch.Record.Basic
import LogWatch.Rule.Corpus

/-!
# Detection

A record is taken apart and tried on the rules that are in use.

* `detect?` — the event of the first rule that holds, if there is one.
-/

namespace LogWatch.Engine

open Intake Rule

/-- The event of a rule that holds of a record. -/
def ruleEvent (id : EventId) (record : LogRecord) (rule : DetectionRule) : NotifyEvent where
  id := id
  time := record.time
  kind := .rule
  source := record.source
  ruleId := rule.id
  level := rule.level
  title := rule.title
  tags := rule.tags
  body := record.body
  score := none

/-- The rule that a record matches.  A body that cannot be taken apart matches none. -/
def matchedRule? (normalizer : Normalizer) (corpus : RuleCorpus) (record : LogRecord) :
    Option DetectionRule :=
  match normalizer.fields record.body with
  | .error _ => none
  | .ok fields => corpus.firstMatch? fields

/-- The event of the first rule that holds of a record. -/
def detect? (normalizer : Normalizer) (corpus : RuleCorpus) (id : EventId) (record : LogRecord) :
    Option NotifyEvent :=
  (matchedRule? normalizer corpus record).map (ruleEvent id record)

end LogWatch.Engine
