import LogWatch.Event.Level
import LogWatch.Text.Unicode.Case

/-!
# Webhooks

Notifications may be posted to an address.  The address and the headers may refer to variables of the
environment as `${NAME}`; what a variable holds is taken as it is.

* `resolve` — a text with its references replaced;
* `Webhook.configure` — a webhook, or what is wrong with its settings.
-/

namespace LogWatch.Alert

/-- What is wrong with the settings of a channel. -/
inductive ConfigFault where
  | badLevel (word : Level.Unknown)
  | unclosedReference (text : String)
  | unknownVariable (name : String)
  | notHttp (url : String)
  | badMethod (method : String)
  | refused (text : String)
deriving DecidableEq, Repr

/-- The fault in words. -/
def ConfigFault.message : ConfigFault → String
  | .badLevel word => word.message
  | .unclosedReference text => "unclosed env var reference in: " ++ text
  | .unknownVariable name => "env var not found: " ++ name
  | .notHttp url => "webhook url must be http(s): " ++ url
  | .badMethod method => "invalid HTTP method: " ++ method
  | .refused text => text

/-- Why nothing is delivered. -/
inductive NotifyError where
  | config (fault : ConfigFault)
  | template
deriving DecidableEq, Repr

/-- The reason in words. -/
def NotifyError.message : NotifyError → String
  | .config fault => "Configuration error: " ++ fault.message
  | .template => "Template rendering failed"

/-! ## References -/

/-- A text with its references replaced.  `name` is what has been read of a reference, in reverse. -/
def resolveFrom (environment : String → Option String) (whole : String) :
    Option (List Char) → List Char → Except ConfigFault (List Char)
  | none, [] => .ok []
  | some _, [] => .error (.unclosedReference whole)
  | none, '$' :: '\x7b' :: rest => resolveFrom environment whole (some []) rest
  | none, c :: rest => do return c :: (← resolveFrom environment whole none rest)
  | some name, c :: rest =>
    if c = '\x7d' then
      let key := String.ofList name.reverse
      match environment key with
      | none => .error (.unknownVariable key)
      | some value => do return value.toList ++ (← resolveFrom environment whole none rest)
    else resolveFrom environment whole (some (c :: name)) rest

/-- A text with its references replaced by what the environment holds.  The environment holds texts: a
variable whose value is not Unicode counts as unset. -/
def resolve (environment : String → Option String) (text : String) : Except ConfigFault String := do
  return String.ofList (← resolveFrom environment text none text.toList)

/-! ## Webhooks -/

/-- Where notifications are posted, and how. -/
structure Webhook where
  url : String
  method : String
  headers : List (String × String)
  timeoutMillis : Nat

namespace Webhook

/-- How long a request may take where nothing is said. -/
def defaultTimeoutMillis : Nat :=
  10000

/-- A character of the name of a request method. -/
def isMethodChar (c : Char) : Bool :=
  Text.isLetter c || Text.isDigit c ||
    ['!', '#', '$', '%', '&', '\'', '*', '+', '-', '.', '^', '_', '\x60', '|', '~'].contains c

/-- The method that a text names in any case; posting where it names none. -/
def methodOf : Option String → Except ConfigFault String
  | none => .ok "POST"
  | some m =>
    let name := Text.Unicode.uppered m.toList
    if name.isEmpty || !name.all isMethodChar then .error (.badMethod m)
    else .ok (String.ofList name)

/-- Does an address begin as one of the web does? -/
def isHttp (url : String) : Bool :=
  Text.startsWith "http://".toList url.toList || Text.startsWith "https://".toList url.toList

/-- Headers with the references in their values replaced. -/
def resolveHeaders (environment : String → Option String) :
    List (String × String) → Except ConfigFault (List (String × String))
  | [] => .ok []
  | (name, value) :: rest => do
    let value ← resolve environment value
    let rest ← resolveHeaders environment rest
    return (name, value) :: rest

/-- The webhook of some settings. -/
def configure (environment : String → Option String) (url : String) (method : Option String)
    (headers : List (String × String)) (timeoutMillis : Nat) : Except ConfigFault Webhook := do
  let method ← methodOf method
  let url ← resolve environment url
  if !isHttp url then throw (.notHttp url)
  let headers ← resolveHeaders environment headers
  return ⟨url, method, headers, timeoutMillis⟩

end Webhook

end LogWatch.Alert
