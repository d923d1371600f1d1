import LogWatch.Event.Codec
import LogWatch.Template.Render

/-!
# Notifications

A detection as people read it: a subject and a body, each written by a template.  Templates see the
detection as `event` and the time of writing as `now`.

* `Renderer.standard`, `Renderer.ofTemplates?` — the templates;
* `Renderer.notification?` — the notification of a detection.
-/

namespace LogWatch.Alert

open Template

/-- A detection ready for delivery. -/
structure Notification where
  subject : String
  body : String
  event : NotifyEvent

/-- The templates of subject and body. -/
structure Renderer where
  subject : String
  body : String

namespace Renderer

/-- The templates where none are given. -/
def standard : Renderer where
  subject := "[\x7b\x7b event.level | upper \x7d\x7d] \x7b\x7b event.title \x7d\x7d"
  body :=
    "\x7b\x7b event.kind \x7d\x7d detection \x7b\x7b event.rule_id \x7d\x7d from " ++
    "\x7b\x7b event.source \x7d\x7d at \x7b\x7b event.time \x7d\x7d" ++
    "\x7b% if event.score is defined %\x7d (score \x7b\x7b event.score | round(2) \x7d\x7d)" ++
    "\x7b% endif %\x7d" ++
    "\x7b% if event.tags %\x7d\ntags: \x7b\x7b event.tags | join(', ') \x7d\x7d\x7b% endif %\x7d\n" ++
    "\x7b\x7b event.body \x7d\x7d"

/-- Templates of one's own, if both are well formed. -/
def ofTemplates? (subject body : String) : Option Renderer :=
  if isWellFormed subject && isWellFormed body then some ⟨subject, body⟩ else none

/-- What templates see of a detection. -/
def context (environment : String → Option String) (event : NotifyEvent) (now : String) :
    Context where
  names := [("event", .ofJson event.toJson), ("now", .str now)]
  environment := environment

/-- The notification of a detection, unless a template cannot be rendered. -/
def notification? (r : Renderer) (environment : String → Option String) (now : String)
    (event : NotifyEvent) : Option Notification := do
  let c := context environment event now
  let subject ← render? c r.subject
  let body ← render? c r.body
  return ⟨subject, body, event⟩

end Renderer

end LogWatch.Alert
