import LogWatch.Event.Level
import LogWatch.Number.Decimal
import LogWatch.Record.Source
import LogWatch.Time.Instant

/-!
# Notification events

What a detection tells: a rule that matched a record, or a report whose numbers deviate.
-/

namespace LogWatch

open Time

/-- What raised an event. -/
inductive DetectionKind where
  | rule
  | anomaly
deriving DecidableEq, Repr

/-- The name of a kind of detection. -/
def DetectionKind.name : DetectionKind → String
  | .rule => "rule"
  | .anomaly => "anomaly"

/-- An identifier of 128 bits. -/
structure EventId where
  bits : BitVec 128
deriving DecidableEq

/-- A detection as it is sent out and stored. -/
structure NotifyEvent where
  id : EventId
  time : Instant
  kind : DetectionKind
  source : String
  ruleId : String
  level : Level
  title : String
  tags : List String
  body : String
  score : Option Float

/-- The event of a report whose score stands out.  Its rule is the name of the report's source. -/
def NotifyEvent.anomaly (id : EventId) (time : Instant) (source : SourceType) (score : Float) :
    NotifyEvent where
  id := id
  time := time
  kind := .anomaly
  source := "anomaly"
  ruleId := source.name
  level := .high
  title := "Anomaly detected in " ++ source.name ++ " report"
  tags := ["anomaly", source.name]
  body := "type=" ++ source.name ++ " score=" ++ Number.fixed 2 score
  score := some score

end LogWatch
