import LogWatch.Engine.Control
import LogWatch.Json.Reader
import LogWatch.Record.Codec
import LogWatch.Settings.EnvironmentFile
import LogWatch.Worker.Arguments

/-!
# The worker

The program that runs an engine over the records of its input, one a line, or only checks the rules.

* `plan` — what the arguments ask for: an answer at once, or a run with some settings;
* `check` — the list of the rules, or that they cannot be loaded;
* `startEngine`, `feed` — an engine, and what a line of the input does to it;
* `outcome` — how a run ends.
-/

namespace LogWatch.Worker

open Rule Time

/-- How a run ends: the exit code, and what has been written. -/
structure Outcome where
  exit : Nat
  output : String
deriving DecidableEq, Repr

/-- The exit code of a run that could not begin. -/
def failureExit : Nat :=
  1

/-- The exit code of a run with bad arguments. -/
def usageExit : Nat :=
  2

/-- The exit code of a run that broke off. -/
def brokenExit : Nat :=
  101

/-- What is to be done. -/
inductive Plan where
  | answer (text : String)
  | refuse (error : UsageError)
  | check (settings : Settings)
  | serve (settings : Settings)

/-- The file that holds variables for the environment. -/
def environmentFile : String :=
  ".env"

/-- An environment with the variables of the file in the working folder, given by its bytes. -/
def environmentWith (environment : Environment) (file : Option (List UInt8)) : Environment :=
  match file with
  | none => environment
  | some bytes =>
    match Text.Utf8.decode bytes with
    | .ok text => environment.withFile text
    | .error _ => environment

/-- The settings of a run.  The options win over the environment. -/
def settingsOf (environment : Environment) (o : Options) : Settings :=
  let s := match o.profile.or (environment Settings.profileVariable) with
    | some profile => Settings.ofEnvironment environment profile
    | none => Settings.ofEnvironmentProfile environment
  { s with
    rules :=
      { s.rules with dir := o.rulesDir.getD s.rules.dir, watch := s.rules.watch || o.watch } }

/-- What some arguments ask for. -/
def plan (environment : Environment) (arguments : List String) : Plan :=
  match Request.ofArguments arguments with
  | .error e => .refuse e
  | .ok .help => .answer (helpText environment)
  | .ok .version => .answer versionText
  | .ok (.run o) =>
    let s := settingsOf environment o
    if o.check then .check s else .serve s

/-- A rule as it is listed: its identifier, its level and its title. -/
def ruleLine (i : RuleInfo) : String :=
  i.id ++ "\t" ++ i.level.name ++ "\t" ++ i.title ++ "\n"

/-- The list of the rules, if all of them can be loaded. -/
def check (around : Engine.Surroundings) (s : Settings) : Outcome :=
  match RuleCorpus.load (around.repository s.rules) with
  | .error _ => ⟨failureExit, ""⟩
  | .ok corpus => ⟨0, String.join (corpus.infos.map ruleLine)⟩

/-- An engine with the rules and channels of the settings and an empty store. -/
def startEngine (around : Engine.Surroundings)
    (post : Alert.Webhook → Alert.Notification → Except Alert.NotifyError Unit) (s : Settings)
    (now : Instant) : Except EngineError Engine :=
  Engine.start s around (Alert.Dispatcher.ofSettings around.environment post s.notify)
    (around.repository s.rules) .empty Anomaly.Scorer.defaultSeed now

/-- The exit code of an engine that does not start. -/
def exitOf : EngineError → Nat
  | .capacity _ => brokenExit
  | _ => failureExit

/-- The engine after a line of the input.  A line that is no record is passed over. -/
def feed (e : Engine) (line : String) : Engine :=
  match (Json.ofText? line).bind LogRecord.ofJson? with
  | none => e
  | some record =>
    match e.submit record with
    | .ok e => e.settle
    | .error _ => e

/-- How a run ends that nothing interrupts.  An engine that has started ends in order, whatever its input
holds, and what it finds goes to its channels and not to the output. -/
def outcome (environment : Environment) (at? : Files.Path → Option Files.Tree)
    (post : Alert.Webhook → Alert.Notification → Except Alert.NotifyError Unit)
    (arguments : List String) (now : Instant) : Outcome :=
  let environment := environmentWith environment ((at? (.ofText environmentFile)).bind Files.Tree.bytes?)
  let around : Engine.Surroundings := ⟨environment, at?⟩
  match plan environment arguments with
  | .answer text => ⟨0, text⟩
  | .refuse _ => ⟨usageExit, ""⟩
  | .check s => check around s
  | .serve s =>
    match startEngine around post s now with
    | .error e => ⟨exitOf e, ""⟩
    | .ok _ => ⟨0, ""⟩

end LogWatch.Worker
