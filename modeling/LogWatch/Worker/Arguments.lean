import LogWatch.Settings

/-!
# Arguments of the worker

What the worker is asked for on its command line: to explain itself, or to run with some options.

* `Request.ofArguments` — the request of a list of arguments, or what is wrong with them;
* `helpText`, `versionText` — what the worker says about itself.
-/

namespace LogWatch.Worker

/-- The options of a run. -/
structure Options where
  profile : Option String
  rulesDir : Option String
  watch : Bool
  check : Bool
deriving DecidableEq, Repr

/-- No option at all. -/
def Options.none : Options :=
  ⟨.none, .none, false, false⟩

/-- What the worker is asked for. -/
inductive Request where
  | help
  | version
  | run (options : Options)
deriving DecidableEq, Repr

/-- What is wrong with arguments. -/
inductive UsageError where
  | unexpected (argument : String)
  | missingValue (option : String)
  | unneededValue (option : String)
  | repeated (option : String)
deriving DecidableEq, Repr

/-- The error in words. -/
def UsageError.message : UsageError → String
  | .unexpected argument => "unexpected argument '" ++ argument ++ "' found"
  | .missingValue option => "a value is required for '" ++ option ++ "' but none was supplied"
  | .unneededValue option => "unexpected value for '" ++ option ++ "' found"
  | .repeated option => "the argument '" ++ option ++ "' cannot be used multiple times"

/-! ## Reading -/

/-- A long option: its name, and the value after an equals sign. -/
def splitOption (cs : List Char) : List Char × Option String :=
  match cs.dropWhile (· ≠ '=') with
  | [] => (cs, .none)
  | _ :: value => (cs.takeWhile (· ≠ '='), some (String.ofList value))

/-- Can an argument be the value of an option?  A lone hyphen can, anything else that starts with a
hyphen cannot. -/
def isValue (argument : String) : Bool :=
  argument.toList.head? != some '-' || argument == "-"

/-- The options with one more value. -/
def Options.withValue (o : Options) (name value : String) : Except UsageError Options :=
  if name = "profile" then
    if o.profile.isSome then .error (.repeated "--profile")
    else .ok { o with profile := some value }
  else if o.rulesDir.isSome then .error (.repeated "--rules-dir")
  else .ok { o with rulesDir := some value }

/-- The options with one more switch. -/
def Options.withSwitch (o : Options) (name : String) : Except UsageError Options :=
  if name = "watch" then
    if o.watch then .error (.repeated "--watch") else .ok { o with watch := true }
  else if o.check then .error (.repeated "--check")
  else .ok { o with check := true }

/-- The options that take a value. -/
def valueNames : List String :=
  ["profile", "rules-dir"]

/-- The options that take none. -/
def switchNames : List String :=
  ["watch", "check", "help", "version"]

/-- The request of short options, given by the letter after the hyphen. -/
def shortRequest? : Char → Option Request
  | 'h' => some .help
  | 'V' => some .version
  | _ => .none

/-- The request of some arguments that follow options.  Help and version are answered as soon as they are
met, and so is the first error. -/
def requestAfter (o : Options) : List String → Except UsageError Request
  | [] => .ok (.run o)
  | argument :: rest =>
    match argument.toList with
    | ['-', '-'] =>
      match rest with
      | [] => .ok (.run o)
      | extra :: _ => .error (.unexpected extra)
    | '-' :: '-' :: option =>
      match splitOption option with
      | (name, value) =>
        let name := String.ofList name
        if valueNames.contains name then
          match value, rest with
          | some value, rest => do requestAfter (← o.withValue name value) rest
          | .none, [] => .error (.missingValue argument)
          | .none, value :: rest =>
            if isValue value then do requestAfter (← o.withValue name value) rest
            else .error (.missingValue argument)
        else if switchNames.contains name then
          if value.isSome then .error (.unneededValue argument)
          else if name = "help" then .ok .help
          else if name = "version" then .ok .version
          else do requestAfter (← o.withSwitch name) rest
        else .error (.unexpected argument)
    | '-' :: letter :: _ =>
      match shortRequest? letter with
      | some request => .ok request
      | .none => .error (.unexpected argument)
    | _ => .error (.unexpected argument)

/-- The request of a list of arguments. -/
def Request.ofArguments (arguments : List String) : Except UsageError Request :=
  requestAfter .none arguments

/-! ## What the worker says about itself -/

/-- The name of the program. -/
def programName : String :=
  "logeye-worker"

/-- The version of the program. -/
def programVersion : String :=
  "0.1.0"

/-- Name and version. -/
def versionText : String :=
  programName ++ " " ++ programVersion ++ "\n"

/-- An option with its explanation, in two columns. -/
def helpLine (option explanation : String) : String :=
  "  " ++ String.ofList (option.toList ++ List.replicate (29 - option.length) ' ') ++ explanation ++ "\n"

/-- What the program does and which options it has, with the profile that the environment names. -/
def helpText (environment : Environment) : String :=
  "Log threat-detection and analytics worker\n\n" ++
  "Usage: " ++ programName ++ " [OPTIONS]\n\nOptions:\n" ++
  helpLine "    --profile <PROFILE>"
    ("Config profile (`\x7bPROFILE\x7d_\x7bKEY\x7d` env vars override `\x7bKEY\x7d`) [env: " ++
      Settings.profileVariable ++ "=" ++ (environment Settings.profileVariable).getD "" ++ "]") ++
  helpLine "    --rules-dir <RULES_DIR>" "Rules directory (overrides RULES_DIR from the profile)" ++
  helpLine "    --watch" "Reload rules when files under the rules directory change" ++
  helpLine "    --check" "Validate the rule corpus and exit" ++
  helpLine "-h, --help" "Print help" ++
  helpLine "-V, --version" "Print version"

end LogWatch.Worker
