import LogWatch.Intake.Grok
import LogWatch.Json.Reader
import LogWatch.Text.Utf8

/-!
# From bodies to fields

The body of a record is a JSON object, or a text that a grok pattern takes apart.  A pattern that
cannot be used does not keep the program from running: every body is refused instead.

* `Normalizer.ofPattern` — by pattern and definitions, if there are any;
* `Normalizer.fields` — the fields of a body, or why there are none.
-/

namespace LogWatch.Intake

/-- Why there are no usable definitions in a file. -/
inductive DefinitionsFault where
  | missing
  | notText
  | malformed (fault : DefinitionFault)
deriving DecidableEq, Repr

/-- The fault in words. -/
def DefinitionsFault.message : DefinitionsFault → String
  | .missing => "No such file or directory"
  | .notText => "stream did not contain valid UTF-8"
  | .malformed fault => fault.message

/-- Why no body can be taken apart. -/
inductive Breakage where
  | pattern (fault : GrokFault)
  | definitions (path : String) (fault : DefinitionsFault)
deriving DecidableEq, Repr

/-- The reason in words. -/
def Breakage.message : Breakage → String
  | .pattern fault => fault.message
  | .definitions path fault => "grok definitions " ++ path ++ ": " ++ fault.message

/-- How bodies are taken apart. -/
inductive Normalizer where
  | json
  | grok (pattern : Grok)
  | broken (reason : Breakage)

/-- Why a body has no fields. -/
inductive BodyFault where
  | noMatch
  | notJson
  | notObject (kind : String)
  | broken (reason : Breakage)
deriving DecidableEq, Repr

/-- The reason in words. -/
def BodyFault.message : BodyFault → String
  | .noMatch => "parse error: body does not match grok pattern"
  | .notJson => "parse error: invalid JSON"
  | .notObject kind => "parse error: expected a JSON object, got " ++ kind
  | .broken reason => "parse error: " ++ reason.message

namespace Normalizer

/-- A normalizer that uses a grok pattern. -/
def ofGrok (pattern : String) (defs : Definitions) : Normalizer :=
  match Grok.compile defs pattern with
  | .ok g => .grok g
  | .error fault => .broken (.pattern fault)

/-- The standard definitions with those of a file, given by its bytes. -/
def definitionsOf (bytes : Option (List UInt8)) : Except DefinitionsFault Definitions :=
  match bytes with
  | none => .error .missing
  | some bytes =>
    match Text.Utf8.decode bytes with
    | .error _ => .error .notText
    | .ok text =>
      match Definitions.standard.extend text with
      | .ok defs => .ok defs
      | .error fault => .error (.malformed fault)

/-- A normalizer by pattern and definitions file.  `read` gives the bytes of a file; without a
pattern the file does not matter. -/
def ofPattern (read : String → Option (List UInt8)) (pattern definitions : Option String) :
    Normalizer :=
  match pattern, definitions with
  | none, _ => .json
  | some pattern, none => ofGrok pattern Definitions.standard
  | some pattern, some path =>
    match definitionsOf (read path) with
    | .ok defs => ofGrok pattern defs
    | .error fault => .broken (.definitions path fault)

/-- Has a pattern been asked for, usable or not? -/
def isGrok : Normalizer → Bool
  | .json => false
  | _ => true

/-- The deepest nesting of a JSON body. -/
def maxHeight : Nat := 127

/-- The fields of a JSON body. -/
def jsonFields (body : String) : Except BodyFault FieldMap :=
  match Json.ofText? body with
  | none => .error .notJson
  | some j =>
    if !j.isReadable || j.height > maxHeight then .error .notJson
    else
      match FieldValue.ofJson j with
      | .map fields => .ok fields
      | other => .error (.notObject other.kind)

/-- The fields of a body. -/
def fields (n : Normalizer) (body : String) : Except BodyFault FieldMap :=
  match n with
  | .json => jsonFields body
  | .grok g =>
    match g.fields? body with
    | some fields => .ok fields
    | none => .error .noMatch
  | .broken reason => .error (.broken reason)

end Normalizer

end LogWatch.Intake
