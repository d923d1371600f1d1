import LogWatch.Field.Value
import LogWatch.Regex.Search

/-!
# Grok patterns

A grok pattern is a regular expression with references to named definitions: `%{NAME}` stands for the
definition, `%{NAME:field}` also puts what it matches into a field, and `%{NAME:field:int}` or
`%{NAME:field:float}` makes a number of it where that is possible.  Definitions may refer to others.

* `Definitions.standard`, `Definitions.extend` — what may be referred to;
* `Grok.expand` — a pattern without references, and the fields to fill;
* `Grok.compile`, `Grok.fields?` — a pattern made ready, and the fields of a text.
-/

namespace LogWatch.Intake

/-! ## Definitions -/

/-- Regular expressions by name. -/
abbrev Definitions := Dictionary String

/-- The definitions that need not be given. -/
def Definitions.standard : Definitions :=
  Dictionary.ofPairs [
    ("USERNAME", "[a-zA-Z0-9._-]+"),
    ("USER", "%\x7bUSERNAME\x7d"),
    ("INT", "(?:[+-]?(?:[0-9]+))"),
    ("BASE10NUM", "(?:[+-]?(?:[0-9]+(?:\\.[0-9]+)?|\\.[0-9]+))"),
    ("NUMBER", "(?:%\x7bBASE10NUM\x7d)"),
    ("POSINT", "\\b(?:[1-9][0-9]*)\\b"),
    ("NONNEGINT", "\\b(?:[0-9]+)\\b"),
    ("WORD", "\\b\\w+\\b"),
    ("NOTSPACE", "\\S+"),
    ("SPACE", "\\s*"),
    ("DATA", ".*?"),
    ("GREEDYDATA", ".*"),
    ("QUOTEDSTRING", "\"(?:[^\"\\\\]|\\\\.)*\""),
    ("UUID", "[A-Fa-f0-9]\x7b8\x7d-(?:[A-Fa-f0-9]\x7b4\x7d-)\x7b3\x7d[A-Fa-f0-9]\x7b12\x7d"),
    ("MAC", "(?:[A-Fa-f0-9]\x7b2\x7d[:-])\x7b5\x7d[A-Fa-f0-9]\x7b2\x7d"),
    ("IPV4", "(?:(?:25[0-5]|2[0-4][0-9]|1[0-9]\x7b2\x7d|[1-9]?[0-9])\\.)\x7b3\x7d(?:25[0-5]|2[0-4][0-9]|1[0-9]\x7b2\x7d|[1-9]?[0-9])"),
    ("IPV6", "(?:[A-Fa-f0-9]\x7b0,4\x7d:)\x7b2,7\x7d[A-Fa-f0-9]\x7b0,4\x7d"),
    ("IP", "(?:%\x7bIPV6\x7d|%\x7bIPV4\x7d)"),
    ("HOSTNAME", "\\b(?:[0-9A-Za-z][0-9A-Za-z-]\x7b0,62\x7d)(?:\\.(?:[0-9A-Za-z][0-9A-Za-z-]\x7b0,62\x7d))*\\.?"),
    ("IPORHOST", "(?:%\x7bIP\x7d|%\x7bHOSTNAME\x7d)"),
    ("HOSTPORT", "%\x7bIPORHOST\x7d:%\x7bPOSINT\x7d"),
    ("UNIXPATH", "(?:/[\\w%!$@:.,+~-]*)+"),
    ("PATH", "%\x7bUNIXPATH\x7d"),
    ("MONTH", "\\b(?:Jan(?:uary)?|Feb(?:ruary)?|Mar(?:ch)?|Apr(?:il)?|May|Jun(?:e)?|Jul(?:y)?|Aug(?:ust)?|Sep(?:tember)?|Oct(?:ober)?|Nov(?:ember)?|Dec(?:ember)?)\\b"),
    ("MONTHNUM", "(?:0?[1-9]|1[0-2])"),
    ("MONTHDAY", "(?:(?:0[1-9])|(?:[12][0-9])|(?:3[01])|[1-9])"),
    ("YEAR", "(?:\\d\\d)\x7b1,2\x7d"),
    ("HOUR", "(?:2[0123]|[01]?[0-9])"),
    ("MINUTE", "(?:[0-5][0-9])"),
    ("SECOND", "(?:(?:[0-5]?[0-9]|60)(?:[:.,][0-9]+)?)"),
    ("TIME", "%\x7bHOUR\x7d:%\x7bMINUTE\x7d(?::%\x7bSECOND\x7d)?"),
    ("ISO8601_TIMEZONE", "(?:Z|[+-]%\x7bHOUR\x7d(?::?%\x7bMINUTE\x7d))"),
    ("TIMESTAMP_ISO8601", "%\x7bYEAR\x7d-%\x7bMONTHNUM\x7d-%\x7bMONTHDAY\x7d[T ]%\x7bHOUR\x7d:?%\x7bMINUTE\x7d(?::?%\x7bSECOND\x7d)?%\x7bISO8601_TIMEZONE\x7d?"),
    ("SYSLOGTIMESTAMP", "%\x7bMONTH\x7d +%\x7bMONTHDAY\x7d %\x7bTIME\x7d"),
    ("PROG", "[\\x21-\\x5a\\x5c\\x5e-\\x7e]+"),
    ("SYSLOGPROG", "%\x7bPROG:program\x7d(?:\\[%\x7bPOSINT:pid\x7d\\])?"),
    ("SYSLOGHOST", "%\x7bIPORHOST\x7d"),
    ("LOGLEVEL", "(?:[Aa]lert|ALERT|[Tt]race|TRACE|[Dd]ebug|DEBUG|[Nn]otice|NOTICE|[Ii]nfo|INFO|[Ww]arn?(?:ing)?|WARN?(?:ING)?|[Ee]rr?(?:or)?|ERR?(?:OR)?|[Cc]rit?(?:ical)?|CRIT?(?:ICAL)?|[Ff]atal|FATAL|[Ss]evere|SEVERE|EMERG(?:ENCY)?|[Ee]merg(?:ency)?)"),
    ("EMAILADDRESS", "[a-zA-Z0-9_.+-]+@[a-zA-Z0-9-]+(?:\\.[a-zA-Z0-9-]+)+")]

/-- A line that holds no definition, counted from one. -/
structure DefinitionFault where
  line : Nat
deriving DecidableEq, Repr

/-- The fault in words. -/
def DefinitionFault.message (f : DefinitionFault) : String :=
  "line " ++ toString f.line ++ ": expected 'NAME regex'"

/-- Definitions with those of some lines, of which the last of a name counts.  Blank lines and lines
that start with a number sign are skipped. -/
def Definitions.extendLines (defs : Definitions) (number : Nat) :
    List (List Char) → Except DefinitionFault Definitions
  | [] => .ok defs
  | line :: rest =>
    let body := Text.trim line
    if body.isEmpty || body.head? == some '#' then extendLines defs (number + 1) rest
    else
      let name := body.takeWhile fun c => !Text.isBlank c
      if name.length = body.length then .error ⟨number⟩
      else
        let meaning := Text.trim (body.drop name.length)
        extendLines (defs.insert (String.ofList name) (String.ofList meaning)) (number + 1) rest

/-- Definitions with those of a text, one a line. -/
def Definitions.extend (defs : Definitions) (text : String) : Except DefinitionFault Definitions :=
  defs.extendLines 1 (Text.lines text.toList)

/-! ## References -/

/-- What is made of a match. -/
inductive Conversion where
  | text
  | int
  | float
deriving DecidableEq, Repr

/-- A field that a group of the expanded pattern fills. -/
structure Capture where
  group : String
  field : String
  conversion : Conversion
deriving DecidableEq, Repr

/-- What is wrong with a pattern. -/
inductive GrokFault where
  | tooDeep
  | unterminated (pattern : String)
  | unknownConversion (word reference : String)
  | unknownName (name : String)
  | badRegex (error : Regex.PatternError)
deriving DecidableEq, Repr

/-- The fault in words. -/
def GrokFault.message : GrokFault → String
  | .tooDeep => "grok definitions nest too deeply (recursive reference?)"
  | .unterminated pattern => "unterminated reference in '" ++ pattern ++ "'"
  | .unknownConversion word reference =>
    "unknown conversion '" ++ word ++ "' in %\x7b" ++ reference ++ "\x7d"
  | .unknownName name => "unknown grok pattern '" ++ name ++ "'"
  | .badRegex error => "invalid grok pattern: " ++ error.message

namespace Grok

/-- A part of a pattern. -/
inductive Part where
  | char (c : Char)
  | reference (text : List Char)
  | unterminated
deriving DecidableEq, Repr

/-- The parts of a pattern; `reference` is what has been read of a reference, in reverse. -/
def partsFrom : Option (List Char) → List Char → List Part
  | none, [] => []
  | none, '%' :: '\x7b' :: rest => partsFrom (some []) rest
  | none, c :: rest => .char c :: partsFrom none rest
  | some _, [] => [.unterminated]
  | some seen, c :: rest =>
    if c = '\x7d' then .reference seen.reverse :: partsFrom none rest
    else partsFrom (some (c :: seen)) rest

/-- The parts of a pattern. -/
def parts (pattern : List Char) : List Part :=
  partsFrom none pattern

/-- What a reference asks for. -/
structure Reference where
  name : String
  field : Option String
  conversion : Conversion
deriving DecidableEq, Repr

/-- What a reference asks for: a name, and after colons a field and a conversion.  An empty field is
none. -/
def Reference.ofText (text : List Char) : Except GrokFault Reference :=
  let build (name : List Char) (field : List Char) (c : Conversion) : Reference :=
    ⟨String.ofList name, if field.isEmpty then none else some (String.ofList field), c⟩
  match Text.splitOn ':' text with
  | [] => .ok (build [] [] .text)
  | [name] => .ok (build name [] .text)
  | [name, field] => .ok (build name field .text)
  | name :: field :: more =>
    let word := String.ofList (Text.joinWith [':'] more)
    if word = "int" then .ok (build name field .int)
    else if word = "float" then .ok (build name field .float)
    else .error (.unknownConversion word (String.ofList text))

/-- A regular expression without references, and the fields that its groups fill. -/
structure Expansion where
  text : List Char
  captures : List Capture
deriving DecidableEq, Repr

/-- What comes of two expansions in a row. -/
def Expansion.append (a b : Expansion) : Expansion :=
  ⟨a.text ++ b.text, a.captures ++ b.captures⟩

/-- The expansion of a reference from that of its definition.  A field gets a group of its own, which
is numbered after the groups within it; `count` groups come before. -/
def Expansion.enclose (inner : Expansion) (r : Reference) (count : Nat) : Expansion :=
  match r.field with
  | none => ⟨"(?:".toList ++ inner.text ++ [')'], inner.captures⟩
  | some field =>
    let group := "g" ++ toString (count + inner.captures.length)
    ⟨"(?P<".toList ++ group.toList ++ ['>'] ++ inner.text ++ [')'],
      inner.captures ++ [⟨group, field, r.conversion⟩]⟩

/-- The expansion of some parts of a pattern, given how definitions are expanded.  `count` groups come
before. -/
def expandParts (definition : String → Nat → Except GrokFault Expansion) (pattern : List Char)
    (count : Nat) : List Part → Except GrokFault Expansion
  | [] => .ok ⟨[], []⟩
  | .char c :: rest => do
    let after ← expandParts definition pattern count rest
    return (Expansion.mk [c] []).append after
  | .unterminated :: _ => .error (.unterminated (String.ofList pattern))
  | .reference text :: rest => do
    let r ← Reference.ofText text
    let inner ← definition r.name count
    let here := inner.enclose r count
    let after ← expandParts definition pattern (count + here.captures.length) rest
    return here.append after

/-- The expansion of a pattern in which references are followed to the given depth. -/
def expandWithin (defs : Definitions) : Nat → List Char → Nat → Except GrokFault Expansion
  | 0, _, _ => .error .tooDeep
  | depth + 1, pattern, count =>
    expandParts (fun name count =>
      match defs.find? name with
      | none => .error (.unknownName name)
      | some body => expandWithin defs depth body.toList count) pattern count (parts pattern)

/-- How deep definitions may refer to others. -/
def maxDepth : Nat := 32

/-- The expansion of a pattern. -/
def expand (defs : Definitions) (pattern : String) : Except GrokFault Expansion :=
  expandWithin defs (maxDepth + 1) pattern.toList 0

end Grok

/-! ## Matching -/

/-- A grok pattern ready to run. -/
structure Grok where
  matcher : Regex.Matcher
  captures : List Capture

namespace Grok

/-- A pattern made ready. -/
def compile (defs : Definitions) (pattern : String) : Except GrokFault Grok := do
  let expansion ← expand defs pattern
  match Regex.Matcher.ofText (String.ofList expansion.text) with
  | .ok m => return ⟨m, expansion.captures⟩
  | .error e => throw (.badRegex e)

/-- The value of a match: a number where one is asked for and spelt, or the text. -/
def convert (c : Conversion) (text : List Char) : FieldValue :=
  match c with
  | .text => .text (String.ofList text)
  | .int =>
    match Number.readInt64? text with
    | some n => .number (Float.ofInt n)
    | none => .text (String.ofList text)
  | .float =>
    match Number.readFloat? text with
    | some x => .number x
    | none => .text (String.ofList text)

/-- Fields with those that some captures fill. -/
def fill (found : Regex.Captures) (text : List Char) (fields : FieldMap) : List Capture → FieldMap
  | [] => fields
  | c :: rest =>
    match found.named? text c.group with
    | some m => fill found text (fields.insert c.field (convert c.conversion m)) rest
    | none => fill found text fields rest

/-- The fields of a text, if the pattern matches. -/
def fields? (g : Grok) (text : String) : Option FieldMap :=
  (g.matcher.captures? text.toList).map fun found => fill found text.toList [] g.captures

end Grok

end LogWatch.Intake
