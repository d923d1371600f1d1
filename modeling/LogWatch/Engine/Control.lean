import LogWatch.Engine.Basic

/-!
# Running an engine

An engine is started with settings, rules and a store, takes records until it is shut down, and follows
its clock.

* `Engine.start` — an engine, or why there is none;
* `Engine.submit` — a record for detection, for its report, or for both;
* `Engine.setTime`, `Engine.advance?` — the clock moves, and windows close;
* `Engine.reload`, `Engine.clear`, `Engine.shutdown` — control while the engine runs.
-/

namespace LogWatch

open Engine Intake Report Rule Anomaly Time Alert

/-- Why an engine does not start or does not do as it is told. -/
inductive EngineError where
  | rules (error : LoadError)
  /-- The folder of the rules cannot be watched. -/
  | unwatchable (folder : String)
  | store (error : StoreError)
  | notify (error : NotifyError)
  /-- Queues cannot have as many places as the settings ask for. -/
  | capacity (places : Nat)
  /-- The engine has been shut down. -/
  | closed

/-- The error in words. -/
def EngineError.message : EngineError → String
  | .rules error => "rule error: " ++ error.message?.getD "field names cannot be read"
  | .unwatchable folder => "rule error: cannot watch " ++ folder
  | .store error => "store error: " ++ error.message
  | .notify error => "notify error: " ++ error.message
  | .capacity places => "no queue of " ++ toString places ++ " places"
  | .closed => "engine is shutting down"

namespace Engine

/-- What an engine sees of the system it runs on. -/
structure Surroundings where
  environment : Environment
  /-- The file or folder at a path. -/
  at? : Files.Path → Option Files.Tree

/-- The bytes of the file at a path that a text writes. -/
def Surroundings.bytesAt? (around : Surroundings) (path : String) : Option (List UInt8) :=
  (around.at? (.ofText path)).bind Files.Tree.bytes?

/-- The repository that settings name: a folder of rules, and a file of field names if there is one. -/
def Surroundings.repository (around : Surroundings) (s : RuleSettings) : Repository :=
  .ofFolder around.at? (.ofText s.dir) (s.fieldConfig.map .ofText)

/-- The most places that a queue may have. -/
def mostPlaces : Nat :=
  0x1fffffffffffffff

/-! ## Starting -/

/-- A scorer with the histories that the store holds. -/
def startScorer (settings : AnomalySettings) (seed : UInt64) (store : Store) :
    Except EngineError Scorer :=
  match (Scorer.start settings seed).loadAll store with
  | (.ok (), scorer) => .ok scorer
  | (.error e, _) => .error (.store e)

/-- An engine at a time.  Channels, rules, histories, queues and the watch over the rules are looked
at in this order, and the first that is not in order is the error. -/
def start (settings : Settings) (around : Surroundings) (dispatcher : Except NotifyError Dispatcher)
    (repository : Repository) (store : Store) (seed : UInt64) (now : Instant) :
    Except EngineError Engine := do
  let dispatcher ← dispatcher.mapError .notify
  let corpus ← (RuleCorpus.load repository).mapError .rules
  let scorer ← startScorer settings.anomaly seed store
  let places := settings.queueCapacity
  if places = 0 ∨ mostPlaces < places then throw (.capacity places)
  if settings.rules.watch && (around.at? (.ofText settings.rules.dir)).isNone then
    throw (.unwatchable settings.rules.dir)
  return {
    now := now
    isOpen := true
    environment := around.environment
    normalizer := .ofPattern around.bytesAt? settings.rules.grokPattern settings.rules.grokDefinitions
    corpus := corpus
    windows := .ofFun fun source => .start source settings.report now
    scorer := scorer
    store := store
    records := .empty places
    requests := .empty scoringRoom
    events := .empty places
    sink := .start dispatcher
    raised := 0 }

/-! ## Records -/

/-- A record counted in the window of its source. -/
def count (e : Engine) (record : LogRecord) : Engine :=
  let source := record.sourceType
  { e with windows := e.windows.set source ((e.windows.get source).add record) }

/-- A record queued for detection, once there is room. -/
def enqueue (e : Engine) (record : LogRecord) : Engine :=
  let e := if e.records.hasRoom then e else e.settle
  { e with records := e.records.push record }

/-- A record with details is counted, and a record of a source that is matched against rules waits
for detection. -/
def submit (e : Engine) (record : LogRecord) : Except EngineError Engine :=
  if !e.isOpen then .error .closed
  else
    let e := if record.detail.isSome then e.count record else e
    .ok (if record.sourceType.isDetectable then e.enqueue record else e)

/-! ## The clock -/

/-- A request queued for the scorer, once there is room. -/
def request (e : Engine) (r : ScoringRequest) : Engine :=
  let e := if e.requests.hasRoom then e else e.settle
  { e with requests := e.requests.push r }

/-- A closed window is stored, and then queued for the scorer. -/
def publish (e : Engine) (summary : Summary) : Engine :=
  { e with store := storeSummary e.store summary }.request (.ofSummary summary)

/-- The window of a source at the time that the clock shows. -/
def closeWindow (e : Engine) (source : SourceType) : Engine :=
  match (e.windows.get source).tick e.now with
  | (closed, window) =>
    let e := { e with windows := e.windows.set source window }
    match closed with
    | some summary => e.publish summary
    | none => e

/-- The clock set to a time.  Each window closes at most once, in the order of the sources. -/
def setTime (e : Engine) (now : Instant) : Engine :=
  let e := { e with now := now }
  if e.isOpen then (SourceType.all.foldl closeWindow e).settle else e

/-- The clock moved by some seconds, unless this leaves the calendar. -/
def advance? (e : Engine) (seconds : Int) : Option Engine :=
  let now := e.now.addSeconds seconds
  if now.seconds < Instant.earliest.seconds ∨ Instant.latest.seconds < now.seconds then none
  else some (e.setTime now)

/-! ## Control -/

/-- The rules replaced by those of a repository, and how many there are; if they cannot be loaded, the
rules stay. -/
def reload (e : Engine) (repository : Repository) : Except EngineError Nat × Engine :=
  match e.corpus.reload repository with
  | (result, corpus) => (result.mapError .rules, { e with corpus := corpus })

/-- What a list of the rules in use says. -/
def ruleInfos (e : Engine) : List RuleInfo :=
  e.corpus.infos

/-- The identifier of the rule that a text describes. -/
def ruleIdOf (text : String) : Except EngineError String :=
  match DetectionRule.ofText text with
  | .ok rule => .ok rule.id
  | .error e => .error (.rules e)

/-- The history of a source, or of all of them, forgotten and loaded again.  What was asked of the scorer
before comes first. -/
def clear (e : Engine) (source : Option SourceType) : Except EngineError Unit × Engine :=
  if !e.isOpen then (.error .closed, e)
  else
    let e := e.settle
    match Scoring.clear e.store e.scorer source with
    | (result, scorer) => (result.mapError .store, { e with scorer := scorer })

/-- No more records are taken.  Those that wait are still tried on the rules and their detections are
delivered; open windows and requests to the scorer are dropped. -/
def shutdown (e : Engine) : Engine :=
  { e with isOpen := false, requests := .empty scoringRoom }.settle

end Engine

end LogWatch
