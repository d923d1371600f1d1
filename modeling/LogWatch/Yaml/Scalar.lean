import LogWatch.Text.Utf8
import LogWatch.Yaml.Place

/-!
# Scalars in a YAML text

How the text of a scalar is cut out and its lines are folded, for each of the styles: plain,
quoted once or twice, literal and folded blocks.  All functions take the place where the scalar
starts and give its text with the place after it, or none where it is not well formed.
-/

namespace LogWatch.Yaml

/-- How a scalar is written. -/
inductive Style where
  | plain
  | singleQuoted
  | doubleQuoted
  | literal
  | folded
deriving DecidableEq, Repr

/-! ## Folding -/

/-- Blanks and line breaks between two words of a scalar. -/
structure Gap where
  /-- Blanks on the line of the first word. -/
  blanks : List Char
  /-- Has a line ended? -/
  broken : Bool
  /-- The first line break. -/
  first : List Char
  /-- The breaks of the empty lines after it. -/
  others : List Char

/-- What a gap stands for: blanks stay, one line break becomes a space, and of several the first
one goes. -/
def Gap.folded (g : Gap) : List Char :=
  if g.broken then
    if g.first.head? = some '\n' then (if g.others.isEmpty then [' '] else g.others)
    else g.first ++ g.others
  else g.blanks

/-- The gap at a place.  A tab before column `indent` of a continued line is refused.  The first
argument bounds the number of steps. -/
def scanGap? (indent : Int) : Nat → Gap → Place → Option (Gap × Place)
  | 0, g, p => some (g, p)
  | fuel + 1, g, p =>
    match p.peek with
    | none => some (g, p)
    | some c =>
      if isGap c then
        if g.broken && (p.column : Int) < indent && c == '\t' then none
        else if g.broken then scanGap? indent fuel g (p.skip 1)
        else scanGap? indent fuel { g with blanks := g.blanks ++ [c] } (p.skip 1)
      else if isBreak c then
        let (br, p) := p.takeBreak
        if g.broken then scanGap? indent fuel { g with others := g.others ++ br } p
        else scanGap? indent fuel { g with blanks := [], broken := true, first := br } p
      else some (g, p)

/-- The gap at a place; no tab is refused. -/
def scanFold (broken : Bool) (p : Place) : Gap × Place :=
  (scanGap? 0 p.rest.length ⟨[], broken, [], []⟩ p).getD (⟨[], broken, [], []⟩, p)

/-! ## Quoted scalars -/

/-- The character that a letter after a backslash stands for. -/
def simpleEscape? : Char → Option Char
  | '0' => some '\x00'
  | 'a' => some '\x07'
  | 'b' => some '\x08'
  | 't' => some '\t'
  | '\t' => some '\t'
  | 'n' => some '\n'
  | 'v' => some '\x0b'
  | 'f' => some '\x0c'
  | 'r' => some '\r'
  | 'e' => some '\x1b'
  | ' ' => some ' '
  | '"' => some '"'
  | '/' => some '/'
  | '\\' => some '\\'
  | 'N' => some '\u0085'
  | '_' => some '\u00a0'
  | 'L' => some '\u2028'
  | 'P' => some '\u2029'
  | _ => none

/-- How many hexadecimal digits follow an escape by number. -/
def escapeDigits? : Char → Option Nat
  | 'x' => some 2
  | 'u' => some 4
  | 'U' => some 8
  | _ => none

/-- An escape: the place of the backslash, then the character and the place after it. -/
def scanEscape? (p : Place) : Option (Char × Place) :=
  match p.ahead 1 with
  | none => none
  | some e =>
    match simpleEscape? e with
    | some c => some (c, p.skip 2)
    | none => do
      let n ← escapeDigits? e
      let digits := (p.rest.drop 2).take n
      if digits.length ≠ n then none
      else
        let values ← digits.mapM Text.hexValue?
        let code := values.foldl (fun a d => a * 16 + d) 0
        if (0xD800 ≤ code ∧ code ≤ 0xDFFF) ∨ 0x10FFFF < code then none
        else some (Char.ofNat code, p.skip (2 + n))

/-- The text of a quoted scalar from a place inside it up to the closing quote; `text` is what
came before, in reverse.  The first argument bounds the number of steps. -/
def scanQuoted? (double : Bool) : Nat → List Char → Place → Option (List Char × Place)
  | 0, _, _ => none
  | fuel + 1, text, p =>
    if p.atDocumentMark then none
    else
      match p.peek with
      | none => none
      | some c =>
        if double && c == '"' then some (text.reverse, p.skip 1)
        else if !double && c == '\'' then
          if p.ahead 1 == some '\'' then scanQuoted? double fuel ('\'' :: text) (p.skip 2)
          else some (text.reverse, p.skip 1)
        else if double && c == '\\' then
          if (p.ahead 1).any isBreak then
            let (gap, p) := scanFold true (p.skip 1).skipBreak
            scanQuoted? double fuel (gap.folded.reverse ++ text) p
          else
            match scanEscape? p with
            | some (e, p) => scanQuoted? double fuel (e :: text) p
            | none => none
        else if isGap c || isBreak c then
          let (gap, p) := scanFold false p
          scanQuoted? double fuel (gap.folded.reverse ++ text) p
        else scanQuoted? double fuel (c :: text) (p.skip 1)

/-! ## Plain scalars -/

/-- The indicators that close a plain scalar inside brackets. -/
def closesFlow (c : Char) : Bool :=
  c == ',' || c == '[' || c == ']' || c == '\x7b' || c == '\x7d'

/-- A word of a plain scalar: up to a gap, a colon before a gap, or an indicator inside brackets.
A colon before an indicator is refused inside brackets. -/
def scanWord? (inFlow : Bool) : Nat → List Char → Place → Option (List Char × Place)
  | 0, word, p => some (word.reverse, p)
  | fuel + 1, word, p =>
    match p.peek with
    | none => some (word.reverse, p)
    | some c =>
      if isGap c || isBreak c then some (word.reverse, p)
      else if inFlow && c == ':' && (p.ahead 1).any (fun d => closesFlow d || d == '?') then none
      else if (c == ':' && endsWord (p.ahead 1)) || (inFlow && closesFlow c) then
        some (word.reverse, p)
      else scanWord? inFlow fuel (c :: word) (p.skip 1)

/-- A plain scalar cut out of a text. -/
structure PlainText where
  text : List Char
  /-- Does a line end after the last word? -/
  broken : Bool
  place : Place

/-- The text of a plain scalar; `indent` is the least column of continued lines, `text` what came
before, and `gap` the gap after it. -/
def scanPlain? (inFlow : Bool) (indent : Int) :
    Nat → List Char → Gap → Place → Option PlainText
  | 0, text, gap, p => some ⟨text, gap.broken, p⟩
  | fuel + 1, text, gap, p =>
    if p.atDocumentMark || p.sees '#' then some ⟨text, gap.broken, p⟩
    else
      match scanWord? inFlow p.rest.length [] p with
      | none => none
      | some (word, after) =>
        let text := if word.isEmpty then text else text ++ gap.folded ++ word
        let carried : Gap := if word.isEmpty then gap else ⟨[], false, [], []⟩
        if !(after.peek.any fun c => isGap c || isBreak c) then
          some ⟨text, carried.broken, after⟩
        else
          match scanGap? indent after.rest.length carried after with
          | none => none
          | some (next, p) =>
            if !inFlow && (p.column : Int) < indent then some ⟨text, next.broken, p⟩
            else scanPlain? inFlow indent fuel text next p

/-! ## Block scalars -/

/-- What happens to the line breaks at the end of a block scalar. -/
inductive Chomping where
  | strip
  | clip
  | keep
deriving DecidableEq

/-- The header of a block scalar after its indicator: chomping and indentation in either order. -/
def scanHeader? (p : Place) : Option (Chomping × Nat × Place) :=
  let chomping? : Option Char → Option Chomping
    | some '+' => some .keep
    | some '-' => some .strip
    | _ => none
  let digit? : Option Char → Option Nat
    | some c => if Text.isDigit c then some (Text.digitValue c) else none
    | none => none
  match chomping? p.peek with
  | some chomping =>
    let p := p.skip 1
    match digit? p.peek with
    | some 0 => none
    | some n => some (chomping, n, p.skip 1)
    | none => some (chomping, 0, p)
  | none =>
    match digit? p.peek with
    | some 0 => none
    | some n =>
      let p := p.skip 1
      match chomping? p.peek with
      | some chomping => some (chomping, n, p.skip 1)
      | none => some (.clip, n, p)
    | none => some (.clip, 0, p)

/-- Empty lines of a block scalar, with the deepest column that blanks reach.  An `indent` of zero
is not known yet.  A tab where the indentation should be is refused. -/
def scanEmptyLines? (indent : Nat) :
    Nat → Nat → List Char → Place → Option (Nat × List Char × Place)
  | 0, deepest, breaks, p => some (deepest, breaks, p)
  | fuel + 1, deepest, breaks, p =>
    let room := if indent = 0 then p.rest.length else indent - p.column
    let spaces := ((p.rest.take room).takeWhile (· == ' ')).length
    let p := p.skip spaces
    let deepest := max deepest p.column
    if (indent = 0 ∨ p.column < indent) ∧ p.sees '\t' then none
    else if p.peek.any isBreak then
      let (br, p) := p.takeBreak
      scanEmptyLines? indent fuel deepest (breaks ++ br) p
    else some (deepest, breaks, p)

/-- The lines of a block scalar at their indentation.  `text` is what came before, `first` the
break of the last line, `others` those of the empty lines after it, and `led` tells whether the
last line began with a blank. -/
def scanBlockLines? (literal : Bool) (chomping : Chomping) (indent : Nat) :
    Nat → List Char → List Char → List Char → Bool → Place → Option (List Char × Place)
  | 0, _, _, _, _, _ => none
  | fuel + 1, text, first, others, led, p =>
    if p.column = indent ∧ p.peek.isSome then
      let leads := p.peek.any isGap
      let joined :=
        if !literal && first.head? = some '\n' && !led && !leads then
          if others.isEmpty then [' '] else []
        else first
      let (line, p) := p.span (!isBreak ·)
      let text := text ++ joined ++ others ++ line
      let (br, p) := p.takeBreak
      match scanEmptyLines? indent (p.rest.length + 1) 0 [] p with
      | none => none
      | some (_, others, p) => scanBlockLines? literal chomping indent fuel text br others leads p
    else
      match chomping with
      | .strip => some (text, p)
      | .clip => some (text ++ first, p)
      | .keep => some (text ++ first ++ others, p)

/-- The text of a block scalar from its indicator on; `parent` is the column of the collection
around it. -/
def scanBlock? (literal : Bool) (parent : Int) (p : Place) : Option (List Char × Place) := do
  let (chomping, increment, p) ← scanHeader? (p.skip 1)
  let p ← p.skipLineTail?
  let given : Nat :=
    if increment = 0 then 0
    else if parent ≥ 0 then (parent + increment).toNat
    else increment
  let (deepest, breaks, p) ← scanEmptyLines? given (p.rest.length + 1) 0 [] p
  let indent : Nat := if given = 0 then max (max deepest (parent + 1).toNat) 1 else given
  scanBlockLines? literal chomping indent (p.rest.length + 2) [] [] breaks false p

/-! ## Tags and anchors -/

/-- The name of an anchor or an alias, after its indicator. -/
def scanAnchor? (p : Place) : Option (List Char × Place) :=
  let (name, p) := (p.skip 1).span isNameChar
  let closed := match p.peek with
    | some c =>
      isGap c || isBreak c || c == '?' || c == ':' || c == ',' || c == ']' || c == '\x7d' ||
        c == '%' || c == '@' || c == '\x60'
    | none => true
  if name.isEmpty || !closed then none else some (name, p)

/-- Characters of the address that a tag stands for. -/
def isUriChar (inAngles : Bool) (c : Char) : Bool :=
  isNameChar c || ";/?:@&=+$.!~*'()%".toList.contains c ||
    (inAngles && (c == ',' || c == '[' || c == ']'))

/-- Bytes written as a per cent sign and two hexadecimal digits, resolved. -/
def decodeEscapes? : Nat → List Char → Option (List Char)
  | 0, _ => some []
  | fuel + 1, cs =>
    match cs with
    | [] => some []
    | '%' :: _ =>
      match bytes fuel cs with
      | none => none
      | some (bs, rest) =>
        match Text.Utf8.decode bs with
        | .ok s => (decodeEscapes? fuel rest).map (s.toList ++ ·)
        | .error _ => none
    | c :: rest => (decodeEscapes? fuel rest).map (c :: ·)
where
  /-- A run of escaped bytes. -/
  bytes : Nat → List Char → Option (List UInt8 × List Char)
    | 0, rest => some ([], rest)
    | fuel + 1, '%' :: a :: b :: rest =>
      match Text.hexValue? a, Text.hexValue? b with
      | some a, some b => (bytes fuel rest).map fun (bs, r) => (UInt8.ofNat (a * 16 + b) :: bs, r)
      | _, _ => none
    | _, '%' :: _ => none
    | _, rest => some ([], rest)

/-- The address part of a tag. -/
def scanUri? (inAngles : Bool) (p : Place) : Option (List Char × Place) :=
  let (run, p) := p.span (isUriChar inAngles)
  (decodeEscapes? (run.length + 1) run).map (·, p)

/-- A tag as it is written: a handle and what follows it. -/
structure TagText where
  handle : List Char
  suffix : List Char

/-- The handle of a tag: an exclamation mark, or a name between two. -/
def scanHandle (p : Place) : List Char × Place :=
  let (name, after) := (p.skip 1).span isNameChar
  if after.sees '!' then ('!' :: name ++ ['!'], after.skip 1) else ('!' :: name, after)

/-- A tag from its exclamation mark on. -/
def scanTag? (inFlow : Bool) (p : Place) : Option (TagText × Place) := do
  let (tag, p) ←
    if p.ahead 1 == some '<' then do
      let (uri, p) ← scanUri? true (p.skip 2)
      if uri.isEmpty || !p.sees '>' then none else some (TagText.mk [] uri, p.skip 1)
    else
      let (handle, after) := scanHandle p
      if handle.length > 1 && handle.getLast? == some '!' then do
        let (uri, p) ← scanUri? false after
        if uri.isEmpty then none else some (TagText.mk handle uri, p)
      else do
        let (uri, p) ← scanUri? false after
        let suffix := handle.drop 1 ++ uri
        some (if suffix.isEmpty then TagText.mk [] ['!'] else TagText.mk ['!'] suffix, p)
  if endsWord p.peek || (inFlow && p.sees ',') then some (tag, p) else none

end LogWatch.Yaml
