import LogWatch.Worker.Basic
import Std.Time.DateTime.Timestamp

/-!
# The command line

Reads what the worker needs from the system it runs on and lets it run: files, variables, the time, and
records line by line from the standard input.  Detections that go to the log are written to the
standard error.

A folder is seen through its index, a hidden file that lists the paths of the files below the folder,
one a line.  There is no way to send requests, so webhooks always fail.
-/

namespace LogWatch.Worker

open Files Alert Time

/-- The bytes of a file, if it can be read.  Only paths that are texts can be opened. -/
def fileBytes? (path : Path) : IO (Option (List UInt8)) := do
  match Path.text? path with
  | none => return none
  | some text =>
    try
      return some (← IO.FS.readBinFile text).toList
    catch _ =>
      return none

/-- The text of a file, if it can be read and is one. -/
def fileText? (path : Path) : IO (Option (List Char)) := do
  match ← fileBytes? path with
  | none => return none
  | some bytes =>
    match Text.Utf8.decode bytes with
    | .ok text => return some text.toList
    | .error _ => return none

/-- The file that lists the files of a folder. -/
def folderIndex : Name :=
  Path.ofText ".index"

/-- The files that the index of a folder lists. -/
def folder? (path : Path) : IO (Option Tree) := do
  match ← fileText? (Path.join path folderIndex) with
  | none => return none
  | some text =>
    let names := (Text.lines text).map fun name => Path.ofText (String.ofList name)
    let mut tree := Tree.empty
    for name in names do
      match ← fileBytes? (Path.join path name) with
      | some bytes => tree := tree.write name bytes
      | none => continue
    return some tree

/-- The variables that the process was started with.  What is no text is passed over. -/
def processEnvironment : IO Environment := do
  match ← fileBytes? (.ofText "/proc/self/environ") with
  | none => return fun _ => none
  | some bytes =>
    let texts := (Text.splitOn 0 bytes).filterMap Path.text?
    let pairs := texts.map fun text => splitOption text.toList
    return fun key => (pairs.find? fun p => String.ofList p.1 == key).bind (·.2)

/-- The time. -/
def currentTime : IO Instant := do
  return .ofNanos (← Std.Time.Timestamp.now).toNanosecondsSinceUnixEpoch.val

/-- A file as it is. -/
def file? (path : Path) : IO (Option Tree) := do
  return (← fileBytes? path).map .file

/-- What the settings name: the folder of the rules, and the files of field names and definitions. -/
def surroundings (environment : Environment) (s : Settings) : IO Engine.Surroundings := do
  let dir := Path.ofText s.rules.dir
  let namesFile := s.rules.fieldConfig.map Path.ofText
  let definitionsFile := s.rules.grokDefinitions.map Path.ofText
  let folder ← folder? dir
  let names ← (namesFile.map file?).getD (pure none)
  let definitions ← (definitionsFile.map file?).getD (pure none)
  return ⟨environment, fun path =>
    if path = dir then folder
    else if some path = namesFile then names
    else if some path = definitionsFile then definitions
    else none⟩

/-- Requests cannot be sent. -/
def postNothing (w : Webhook) (_ : Notification) : Except NotifyError Unit :=
  .error (.config (.refused ("cannot post to " ++ w.url)))

/-- Writes what has been delivered since `before`. -/
def logDeliveries (before after : Engine) : IO Unit := do
  for d in after.sink.deliveries.drop before.sink.deliveries.length do
    match d.error with
    | none => IO.eprintln (d.channel ++ ": " ++ d.notification.subject)
    | some e => IO.eprintln (d.channel ++ ": " ++ e.message)

/-- The engine at the end of the input. -/
partial def serve (s : Settings) (input : IO.FS.Stream) (e : Engine) : IO Engine := do
  let line ← input.getLine
  if line.isEmpty then
    return e
  let e ← if s.rules.watch then do
      let around ← surroundings e.environment s
      pure (e.reload (around.repository s.rules)).2
    else pure e
  let next := feed (e.setTime (← currentTime)) line
  logDeliveries e next
  serve s input next

/-- Runs the worker with some arguments; the result is the exit code. -/
def run (arguments : List String) : IO UInt32 := do
  let environment := environmentWith (← processEnvironment) (← fileBytes? (.ofText environmentFile))
  match plan environment arguments with
  | .answer text =>
    IO.print text
    return 0
  | .refuse e =>
    IO.eprintln ("error: " ++ e.message)
    return usageExit.toUInt32
  | .check s =>
    let o := check (← surroundings environment s) s
    IO.print o.output
    return o.exit.toUInt32
  | .serve s =>
    match startEngine (← surroundings environment s) postNothing s (← currentTime) with
    | .error e =>
      IO.eprintln ("error: " ++ e.message)
      return (exitOf e).toUInt32
    | .ok e =>
      let last ← serve s (← IO.getStdin) e
      logDeliveries last last.shutdown
      return 0

end LogWatch.Worker

/-- Runs the worker with the arguments of the command line. -/
def main (arguments : List String) : IO UInt32 :=
  LogWatch.Worker.run arguments
