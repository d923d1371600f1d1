import LogWatch.Alert.Notification
import LogWatch.Alert.Webhook
import LogWatch.Settings

/-!
# The dispatcher

Detections that are severe enough are written once and delivered on every channel.  A channel that
fails does not keep the others from getting theirs.

* `Dispatcher.ofSettings` — the dispatcher that the settings ask for;
* `Dispatcher.dispatch` — what comes of a detection on each channel.
-/

namespace LogWatch.Alert

/-- A way to deliver notifications: its name, and what comes of a delivery. -/
structure Channel where
  name : String
  deliver : Notification → Except NotifyError Unit

/-- The channel that writes notifications to the log; it always succeeds. -/
def Channel.log : Channel :=
  ⟨"log", fun _ => .ok ()⟩

/-- The channel that posts notifications to an address, given what comes of a request. -/
def Channel.webhook (post : Webhook → Notification → Except NotifyError Unit) (w : Webhook) : Channel :=
  ⟨"webhook", post w⟩

/-- Channels, the least level that is delivered, and the templates. -/
structure Dispatcher where
  channels : List Channel
  minLevel : Level
  renderer : Renderer

/-- What has come of one notification on one channel. -/
structure Delivery where
  channel : String
  notification : Notification
  error : Option NotifyError

/-- Was the notification delivered? -/
def Delivery.succeeded (d : Delivery) : Bool :=
  d.error.isNone

namespace Dispatcher

/-- A dispatcher that delivers nothing. -/
def empty : Dispatcher :=
  ⟨[], .info, .standard⟩

/-- The dispatcher that the settings ask for: to the log, and to a webhook if there is an address. -/
def ofSettings (environment : String → Option String)
    (post : Webhook → Notification → Except NotifyError Unit) (s : NotifySettings) :
    Except NotifyError Dispatcher :=
  match Level.ofText s.minLevel with
  | .error word => .error (.config (.badLevel word))
  | .ok level =>
    match s.webhookUrl with
    | none => .ok ⟨[.log], level, .standard⟩
    | some url =>
      match Webhook.configure environment url none [] (s.webhookTimeoutSeconds * 1000) with
      | .error fault => .error (.config fault)
      | .ok w => .ok ⟨[.log, .webhook post w], level, .standard⟩

/-- What comes of a notification on a channel. -/
def deliverOn (n : Notification) (c : Channel) : Delivery :=
  ⟨c.name, n, match c.deliver n with
    | .ok () => none
    | .error e => some e⟩

/-- What comes of a detection on each channel, in order.  Nothing is delivered if the detection is below
the least level or cannot be written. -/
def dispatch (d : Dispatcher) (environment : String → Option String) (now : String)
    (event : NotifyEvent) : List Delivery :=
  if event.level.rank < d.minLevel.rank then []
  else
    match d.renderer.notification? environment now event with
    | none => []
    | some n => d.channels.map (deliverOn n)

end Dispatcher

end LogWatch.Alert
