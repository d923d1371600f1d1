import LogWatch.Json.Words
import LogWatch.Number.Reading
import LogWatch.Record.Source
import LogWatch.Text.Unicode.Case

/-!
# Settings

What can be configured, with defaults, and how settings are taken from environment variables.  A
profile puts its name in front of a variable's; a variable of the profile wins over the plain one,
and an empty variable counts as unset.

* `Settings.ofEnvironment` — all settings of a profile;
* `Settings.toJson`, `Settings.ofJson?` — the stored form.
-/

namespace LogWatch

/-- Environment variables by name. -/
abbrev Environment := String → Option String

/-- How long the window of a report is. -/
inductive ReportInterval where
  | minute
  | hour
deriving DecidableEq, Repr

structure RuleSettings where
  dir : String
  grokPattern : Option String
  grokDefinitions : Option String
  fieldConfig : Option String
  watch : Bool
deriving Repr

structure ReportSettings where
  topN : Nat
  interval : ReportInterval
  windowsInterval : ReportInterval
deriving Repr

structure AnomalySettings where
  /-- Alerts are raised for calibrated scores above this one; without it there are none. -/
  threshold : Option Float
  /-- Does the time of week take part in the comparison? -/
  useTimeData : Bool
  /-- How many hours a history must span before alerts are raised. -/
  notifyDelayHours : UInt32
  trees : Nat
  sampleSize : Nat
  /-- How many points a history needs before it is scored. -/
  minPoints : Nat
  /-- How many points a history needs before alerts are raised. -/
  minAlertPoints : Nat

structure NotifySettings where
  webhookUrl : Option String
  webhookTimeoutSeconds : Nat
  minLevel : String
deriving Repr

/-- All settings. -/
structure Settings where
  profile : String
  rules : RuleSettings
  report : ReportSettings
  anomaly : AnomalySettings
  queueCapacity : Nat
  notify : NotifySettings

/-! ## Defaults -/

def RuleSettings.default : RuleSettings :=
  ⟨"data/rules", none, none, none, false⟩

def ReportSettings.default : ReportSettings :=
  ⟨10, .minute, .hour⟩

def AnomalySettings.default : AnomalySettings :=
  ⟨none, false, 24, 1000, 256, 10, 24⟩

def NotifySettings.default : NotifySettings :=
  ⟨none, 10, "low"⟩

/-- The settings when nothing is configured. -/
def Settings.default : Settings :=
  ⟨"", .default, .default, .default, 20000, .default⟩

/-! ## Environment variables -/

namespace Environment

/-- A variable that is set and not empty. -/
def nonEmpty? (env : Environment) (key : String) : Option String :=
  (env key).filter (· ≠ "")

/-- A variable of a profile, else the plain one. -/
def get? (env : Environment) (profile key : String) : Option String :=
  let own := if profile = "" then none else env.nonEmpty? (profile ++ "_" ++ key)
  match own with
  | some v => some v
  | none => env.nonEmpty? key

/-- An unsigned word, or the default where the variable is unset or spells none. -/
def natD (env : Environment) (profile key : String) (default : Nat) : Nat :=
  ((env.get? profile key).bind fun v => Number.readNat? 0x10000000000000000 v.toList).getD default

/-- A switch: one of the words for yes, in any case; the default where the variable is unset. -/
def boolD (env : Environment) (profile key : String) (default : Bool) : Bool :=
  match env.get? profile key with
  | some v => ["1", "true", "yes", "on"].contains (Text.asciiLowered v)
  | none => default

/-- An interval by one of its words, else the default. -/
def intervalD (env : Environment) (profile key : String) (default : ReportInterval) :
    ReportInterval :=
  match (env.get? profile key).map Text.asciiLowered with
  | some "minute" | some "min" | some "m" => .minute
  | some "hour" | some "h" => .hour
  | _ => default

end Environment

namespace Settings

/-- The rules section. -/
def rulesOf (env : Environment) (p : String) : RuleSettings where
  dir := (env.get? p "RULES_DIR").getD RuleSettings.default.dir
  grokPattern := env.get? p "GROK_PATTERN"
  grokDefinitions := env.get? p "GROK_DEFINITIONS"
  fieldConfig := env.get? p "RULES_FIELD_CONFIG"
  watch := env.boolD p "RULES_WATCH" false

/-- The report section; lists have room for at least one entry. -/
def reportOf (env : Environment) (p : String) : ReportSettings where
  topN := max (env.natD p "REPORT_TOP_N" 10) 1
  interval := env.intervalD p "REPORT_INTERVAL" .minute
  windowsInterval := env.intervalD p "WINDOWS_REPORT_INTERVAL" .hour

/-- The anomaly section; a threshold must be positive, and the delay is kept in thirty-two bits. -/
def anomalyOf (env : Environment) (p : String) : AnomalySettings where
  threshold :=
    ((env.get? p "ANOMALY_THRESHOLD").bind fun v => Number.readFloat? v.toList).filter (0 < ·)
  useTimeData := env.boolD p "ANOMALY_USE_TIME_DATA" false
  notifyDelayHours := UInt32.ofNat (env.natD p "ANOMALY_NOTIFY_DELAY_HOURS" 24)
  trees := max (env.natD p "ANOMALY_TREES" 1000) 1
  sampleSize := max (env.natD p "ANOMALY_SAMPLE_SIZE" 256) 2
  minPoints := env.natD p "ANOMALY_MIN_POINTS" 10
  minAlertPoints := env.natD p "ANOMALY_MIN_ALERT_POINTS" 24

/-- The notification section; there is at least a second of time for a request. -/
def notifyOf (env : Environment) (p : String) : NotifySettings where
  webhookUrl := env.get? p "NOTIFY_WEBHOOK_URL"
  webhookTimeoutSeconds := max (env.natD p "NOTIFY_WEBHOOK_TIMEOUT" 10) 1
  minLevel := (env.get? p "NOTIFY_MIN_LEVEL").getD "low"

/-- All settings of a profile, whose name is taken in upper case. -/
def ofEnvironment (env : Environment) (profile : String) : Settings :=
  let p := String.ofList (Text.Unicode.uppered profile.toList)
  { profile := p
    rules := rulesOf env p
    report := reportOf env p
    anomaly := anomalyOf env p
    queueCapacity := max (env.natD p "QUEUE_CAPACITY" 20000) 1
    notify := notifyOf env p }

/-- The environment variable that names the profile. -/
def profileVariable : String :=
  "LOGEYE_PROFILE"

/-- The settings of the profile that the environment names. -/
def ofEnvironmentProfile (env : Environment) : Settings :=
  let named := (env profileVariable).getD ""
  ofEnvironment env (String.ofList (Text.Unicode.uppered named.toList))

/-- What the profile is called when settings are shown. -/
def label (s : Settings) : String :=
  if s.profile = "" then "default" else s.profile

end Settings

/-- The window of the report of a source: the Windows event log has its own. -/
def ReportSettings.intervalFor (s : ReportSettings) : SourceType → ReportInterval
  | .windowsEvent => s.windowsInterval
  | _ => s.interval

/-! ## Stored form -/

open Json

namespace ReportInterval

/-- The name of an interval. -/
def name : ReportInterval → String
  | .minute => "minute"
  | .hour => "hour"

/-- Its length in seconds. -/
def seconds : ReportInterval → Nat
  | .minute => 60
  | .hour => 3600

/-- An interval by its name. -/
def ofName? : String → Option ReportInterval
  | "minute" => some .minute
  | "hour" => some .hour
  | _ => none

/-- An interval by its name. -/
def ofJson? (j : Json) : Option ReportInterval :=
  j.variant?.bind ofName?

end ReportInterval

namespace RuleSettings

def toJson (s : RuleSettings) : Json :=
  .obj [("dir", .str s.dir), ("grok_pattern", ofString? s.grokPattern),
    ("grok_definitions", ofString? s.grokDefinitions), ("field_config", ofString? s.fieldConfig),
    ("watch", .bool s.watch)]

def ofJson? (j : Json) : Option RuleSettings := do
  match ← j.fields? ["dir", "grok_pattern", "grok_definitions", "field_config", "watch"] with
  | [dir, pattern, definitions, fieldConfig, watch] =>
    some
      { dir := ← required? str? dir
        grokPattern := ← optional? str? pattern
        grokDefinitions := ← optional? str? definitions
        fieldConfig := ← optional? str? fieldConfig
        watch := ← required? bool? watch }
  | _ => none

end RuleSettings

namespace ReportSettings

def toJson (s : ReportSettings) : Json :=
  .obj [("top_n", ofNat s.topN), ("interval", .str s.interval.name),
    ("windows_interval", .str s.windowsInterval.name)]

def ofJson? (j : Json) : Option ReportSettings := do
  match ← j.fields? ["top_n", "interval", "windows_interval"] with
  | [topN, interval, windowsInterval] =>
    some
      { topN := ← required? (nat? 0x10000000000000000) topN
        interval := ← required? ReportInterval.ofJson? interval
        windowsInterval := ← required? ReportInterval.ofJson? windowsInterval }
  | _ => none

end ReportSettings

namespace AnomalySettings

def toJson (s : AnomalySettings) : Json :=
  .obj [("threshold", ofOption ofFloat s.threshold), ("use_time_data", .bool s.useTimeData),
    ("notify_delay_hours", ofNat s.notifyDelayHours.toNat), ("trees", ofNat s.trees),
    ("sample_size", ofNat s.sampleSize), ("min_points", ofNat s.minPoints),
    ("min_alert_points", ofNat s.minAlertPoints)]

def ofJson? (j : Json) : Option AnomalySettings := do
  match ← j.fields? ["threshold", "use_time_data", "notify_delay_hours", "trees", "sample_size",
    "min_points", "min_alert_points"] with
  | [threshold, useTimeData, delay, trees, sampleSize, minPoints, minAlertPoints] =>
    some
      { threshold := ← optional? float? threshold
        useTimeData := ← required? bool? useTimeData
        notifyDelayHours := ← required? u32? delay
        trees := ← required? (nat? 0x10000000000000000) trees
        sampleSize := ← required? (nat? 0x10000000000000000) sampleSize
        minPoints := ← required? (nat? 0x10000000000000000) minPoints
        minAlertPoints := ← required? (nat? 0x10000000000000000) minAlertPoints }
  | _ => none

end AnomalySettings

namespace NotifySettings

def toJson (s : NotifySettings) : Json :=
  .obj [("webhook_url", ofString? s.webhookUrl),
    ("webhook_timeout_secs", ofNat s.webhookTimeoutSeconds), ("min_level", .str s.minLevel)]

def ofJson? (j : Json) : Option NotifySettings := do
  match ← j.fields? ["webhook_url", "webhook_timeout_secs", "min_level"] with
  | [url, timeout, minLevel] =>
    some
      { webhookUrl := ← optional? str? url
        webhookTimeoutSeconds := ← required? (nat? 0x10000000000000000) timeout
        minLevel := ← required? str? minLevel }
  | _ => none

end NotifySettings

namespace Settings

def toJson (s : Settings) : Json :=
  .obj [("profile", .str s.profile), ("rules", s.rules.toJson), ("report", s.report.toJson),
    ("anomaly", s.anomaly.toJson), ("queue", .obj [("capacity", ofNat s.queueCapacity)]),
    ("notify", s.notify.toJson)]

/-- The capacity of the queue. -/
def capacityOfJson? (j : Json) : Option Nat := do
  match ← j.fields? ["capacity"] with
  | [capacity] => required? (nat? 0x10000000000000000) capacity
  | _ => none

def ofJson? (j : Json) : Option Settings := do
  match ← j.fields? ["profile", "rules", "report", "anomaly", "queue", "notify"] with
  | [profile, rules, report, anomaly, queue, notify] =>
    some
      { profile := ← required? str? profile
        rules := ← required? RuleSettings.ofJson? rules
        report := ← required? ReportSettings.ofJson? report
        anomaly := ← required? AnomalySettings.ofJson? anomaly
        queueCapacity := ← required? capacityOfJson? queue
        notify := ← required? NotifySettings.ofJson? notify }
  | _ => none

end Settings

mutual

/-- A value with another one laid over it: objects are merged member by member, anything else is
replaced. -/
def Json.overlay : Json → Json → Json
  | .obj members, .obj above => .obj (Json.overlayMembers members above ++
      above.filter fun p => !members.any (·.1 == p.1))
  | _, j => j

/-- Members with those of the same name laid over them. -/
def Json.overlayMembers : List (String × Json) → List (String × Json) → List (String × Json)
  | [], _ => []
  | (name, j) :: rest, above =>
    let laid := match above.find? (·.1 == name) with
      | some (_, k) => j.overlay k
      | none => j
    (name, laid) :: Json.overlayMembers rest above

end

end LogWatch
