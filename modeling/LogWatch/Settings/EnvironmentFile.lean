import LogWatch.Settings
import LogWatch.Text.Unicode.Properties

/-!
# Environment files

Variables may be given in a file, one a line: a name, an equals sign and a value.  A value may be
quoted, may go over several lines within quotes, and may refer to other variables with a dollar sign.
Variables that are set already keep their values.

* `entries` — the file cut into entries, each a line or, where quotes are open, several;
* `readEntry?` — the variable that an entry sets, if it sets one;
* `Environment.withFile` — an environment with the variables of a file, up to the first bad entry.
-/

namespace LogWatch

namespace EnvironmentFile

open Text

/-! ## Entries -/

/-- How far quotes, backslashes and comments matter at some place of an entry. -/
inductive Quoting where
  | plain
  /-- After a blank, where a comment may start. -/
  | blank
  | escape
  | strong
  | strongEscape
  | weak
  | weakEscape
deriving DecidableEq, Repr

namespace Quoting

/-- What a character opens where nothing is open. -/
def opened (c : Char) : Quoting :=
  if c = '\\' then .escape
  else if c = '"' then .weak
  else if c = '\'' then .strong
  else .plain

/-- The place after a character. -/
def next (c : Char) : Quoting → Quoting
  | .plain => if isBlank c && c != '\n' && c != '\r' then .blank else opened c
  | .blank => opened c
  | .escape => .plain
  | .strong => if c = '\\' then .strongEscape else if c = '\'' then .plain else .strong
  | .strongEscape => .strong
  | .weak => if c = '\\' then .weakEscape else if c = '"' then .plain else .weak
  | .weakEscape => .weak

end Quoting

/-- What follows the end of the line. -/
def afterLine : List Char → List Char
  | [] => []
  | c :: cs => if c = '\n' then cs else afterLine cs

/-- The text up to the end of the line. -/
def thisLine (cs : List Char) : List Char :=
  cs.takeWhile (· ≠ '\n')

/-- An entry and what follows it, from a place within it; nothing if the text ends too early.  A comment
ends the entry and is dropped. -/
def takeEntry : Quoting → List Char → Option (List Char × List Char)
  | q, [] => if q = .plain then some ([], []) else none
  | q, c :: cs =>
    if q = .blank && c = '#' then some ([], afterLine cs)
    else
      let q := q.next c
      if c = '\n' && q = .plain then some ([], cs)
      else (takeEntry q cs).map fun (entry, rest) => (c :: entry, rest)

/-- The entries of a text, of which there are at most as many as lines.  Nothing stands for the rest of a
text that ends within an entry. -/
def entriesOf : Nat → List Char → List (Option (List Char))
  | 0, _ => []
  | _ + 1, [] => []
  | n + 1, c :: cs =>
    if (trimStart (thisLine (c :: cs))).head? = some '#' then entriesOf n (afterLine (c :: cs))
    else
      match takeEntry .plain (c :: cs) with
      | none => [none]
      | some (entry, rest) => some entry :: entriesOf n rest

/-- The entries of a text. -/
def entries (cs : List Char) : List (Option (List Char)) :=
  entriesOf (cs.length + 1) cs

/-! ## Names -/

/-- A character that a name may start with. -/
def isNameStart (c : Char) : Bool :=
  isLetter c || c == '_'

/-- A character of a name. -/
def isNameChar (c : Char) : Bool :=
  isLetter c || isDigit c || c == '_' || c == '.'

/-- A name and what follows it and the blanks after it. -/
def takeName? : List Char → Option (List Char × List Char)
  | [] => none
  | c :: cs =>
    if isNameStart c then
      some (c :: cs.takeWhile isNameChar, trimStart (cs.dropWhile isNameChar))
    else none

/-- The name that an entry sets, and its value.  The word for export may stand before the name. -/
def takeAssignment? (cs : List Char) : Option (List Char × List Char) :=
  match takeName? cs with
  | none => none
  | some (name, '=' :: value) => some (name, trimStart value)
  | some (name, rest) =>
    if name = "export".toList then
      match takeName? rest with
      | some (name, '=' :: value) => some (name, trimStart value)
      | _ => none
    else none

/-! ## Values -/

/-- Where in a value a character stands.  `quoted` tells whether weak quotes are open, and `name` holds
what has been read of a reference, in reverse. -/
inductive Place where
  | plain (quoted : Bool)
  | strong
  | escape (quoted : Bool)
  /-- After a dollar sign. -/
  | reference (quoted : Bool) (name : List Char)
  /-- After a dollar sign and a brace. -/
  | braced (quoted : Bool) (name : List Char)
  /-- After a blank, where only a comment may follow. -/
  | ended

/-- The characters that a backslash stands for with the one after it. -/
def escaped? (c : Char) : Option Char :=
  if c = '\\' || c = '\'' || c = '"' || c = '$' || c = ' ' then some c
  else if c = 'n' then some '\n'
  else none

/-- What a reference stands for; nothing if there is no such variable. -/
def referred (environment : Environment) (name : List Char) : List Char :=
  ((environment (String.ofList name.reverse)).getD "").toList

/-- A value as it is meant, from a place within it; nothing if it is malformed or ends too early. -/
def readValue? (environment : Environment) : Place → List Char → Option (List Char)
  | .plain quoted, [] => if quoted then none else some []
  | .strong, [] => none
  | .escape quoted, [] => if quoted then none else some []
  | .reference quoted name, [] => if quoted then none else some (referred environment name)
  | .braced _ _, [] => none
  | .ended, [] => some []
  | .ended, c :: cs =>
    if c = ' ' || c = '\t' then readValue? environment .ended cs
    else if c = '#' then some []
    else none
  | .escape quoted, c :: cs =>
    match escaped? c with
    | some d => (readValue? environment (.plain quoted) cs).map (d :: ·)
    | none => none
  | .strong, c :: cs =>
    if c = '\'' then readValue? environment (.plain false) cs
    else (readValue? environment .strong cs).map (c :: ·)
  | .reference quoted name, c :: cs =>
    if Unicode.isAlphanumeric c then readValue? environment (.reference quoted (c :: name)) cs
    else if c = '\x7b' && name.isEmpty then readValue? environment (.braced quoted []) cs
    else if c = '$' then
      (readValue? environment (.reference quoted []) cs).map (referred environment name ++ ·)
    else
      (readValue? environment (.plain quoted) cs).map (referred environment name ++ c :: ·)
  | .braced quoted name, c :: cs =>
    if c = '\x7d' then
      (readValue? environment (.plain quoted) cs).map (referred environment name ++ ·)
    else readValue? environment (.braced quoted (c :: name)) cs
  | .plain quoted, c :: cs =>
    if c = '$' then readValue? environment (.reference quoted []) cs
    else if c = '\\' then readValue? environment (.escape quoted) cs
    else if c = '"' then readValue? environment (.plain (!quoted)) cs
    else if quoted then (readValue? environment (.plain true) cs).map (c :: ·)
    else if c = '\'' then readValue? environment .strong cs
    else if c = ' ' || c = '\t' then readValue? environment .ended cs
    else (readValue? environment (.plain false) cs).map (c :: ·)

/-- What an entry says: nothing, a name with its value, or, as an error, that it is malformed. -/
def readEntry? (environment : Environment) (entry : List Char) :
    Option (Option (String × String)) :=
  let cs := trimStart (trimEnd entry)
  if cs.isEmpty || cs.head? = some '#' then some none
  else
    match takeAssignment? cs with
    | none => none
    | some (name, value) =>
      if value.isEmpty || value.head? = some '#' then some (some (String.ofList name, ""))
      else
        (readValue? environment (.plain false) value).map fun v =>
          some (String.ofList name, String.ofList v)

end EnvironmentFile

/-! ## Environments -/

namespace Environment

/-- The environment with one more variable, unless it is set already. -/
def withDefault (environment : Environment) (name value : String) : Environment := fun key =>
  (environment key).or (if key = name then some value else none)

/-- The environment with the variables of some entries, up to the first bad one. -/
def withEntries (environment : Environment) : List (Option (List Char)) → Environment
  | [] => environment
  | none :: _ => environment
  | some entry :: rest =>
    match EnvironmentFile.readEntry? environment entry with
    | none => environment
    | some none => withEntries environment rest
    | some (some (name, value)) => withEntries (environment.withDefault name value) rest

/-- The environment with the variables of a file.  A mark of byte order in front is no part of it. -/
def withFile (environment : Environment) (text : String) : Environment :=
  let cs := match text.toList with
    | '\uFEFF' :: cs => cs
    | cs => cs
  environment.withEntries (EnvironmentFile.entries cs)

end Environment

end LogWatch
