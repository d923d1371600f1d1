import LogWatch.Yaml.Scalar

/-!
# Tokens of a YAML text

A YAML text is first cut into tokens: indicators, scalars, and the starts and ends of block
collections, which are not written but follow from the indentation.  A key is recognised only when
its colon is met, so the key token is then put in front of what was read before.

* `Token` — the tokens;
* `Token.scan?` — the tokens of a text, or none where it is not well formed.
-/

namespace LogWatch.Yaml

/-- The parts that a text is made of. -/
inductive Token where
  | versionDirective (major minor : Nat)
  | tagDirective (handle uri : List Char)
  | documentStart
  | documentEnd
  | blockSequenceStart
  | blockMappingStart
  | blockEnd
  | flowSequenceStart
  | flowSequenceEnd
  | flowMappingStart
  | flowMappingEnd
  | blockEntry
  | flowEntry
  | key
  | value
  | alias (name : List Char)
  | anchor (name : List Char)
  | tag (handle suffix : List Char)
  | scalar (style : Style) (text : List Char)

namespace Token

/-- A place where a key may have begun: the number of the token there, whether the indentation
demands a key, and where it is. -/
structure KeyStart where
  number : Nat
  required : Bool
  index : Nat
  line : Nat
  column : Nat

/-- What is known while tokens are cut. -/
structure State where
  place : Place
  tokens : Array Token
  /-- Columns of the open block collections, the innermost first; minus one when there is none. -/
  indents : List Int
  /-- May a key begin here? -/
  keyAllowed : Bool
  /-- The possible key of the current line, for each open bracket, the innermost first. -/
  keys : List (Option KeyStart)

/-- The column of the innermost block collection. -/
def State.indent (s : State) : Int :=
  s.indents.head?.getD (-1)

/-- Are we inside brackets? -/
def State.inFlow (s : State) : Bool :=
  s.keys.length > 1

/-- The state with a further token, at a later place. -/
def State.emit (s : State) (t : Token) (p : Place) : State :=
  { s with tokens := s.tokens.push t, place := p }

/-! ## Blanks, keys and indentation -/

/-- Blanks, comments and line breaks before a token. -/
def skipToToken : Nat → State → State
  | 0, s => s
  | fuel + 1, s =>
    let p := s.place
    let p := if p.index = 0 && p.sees '\ufeff' then p.skip 1 else p
    let tabs := s.inFlow || !s.keyAllowed
    let p := p.skipWhile fun c => c == ' ' || (tabs && c == '\t')
    let p := if p.sees '#' then p.skipWhile (!isBreak ·) else p
    if p.peek.any isBreak then
      skipToToken fuel
        { s with place := p.skipBreak, keyAllowed := if s.inFlow then s.keyAllowed else true }
    else { s with place := p }

/-- A key is written on one line and within 1024 characters; a demanded key that is not is a
fault. -/
def dropStaleKeys? (s : State) : Option State :=
  let stale (k : KeyStart) : Bool := k.line < s.place.line || k.index + 1024 < s.place.index
  if s.keys.any (·.any fun k => stale k && k.required) then none
  else
    some { s with keys := s.keys.map fun k => if k.any stale then none else k }

/-- No key can begin at the remembered place any more. -/
def forgetKey? (s : State) : Option State :=
  match s.keys with
  | some k :: rest => if k.required then none else some { s with keys := none :: rest }
  | _ => some s

/-- Remember that a key may begin here. -/
def rememberKey? (s : State) : Option State :=
  if !s.keyAllowed then some s
  else
    (forgetKey? s).map fun s =>
      let p := s.place
      let key : KeyStart :=
        ⟨s.tokens.size, !s.inFlow && s.indent == (p.column : Int), p.index, p.line, p.column⟩
      { s with keys := some key :: s.keys.drop 1 }

/-- Open a block collection at a column, if it lies deeper than the innermost one; its token goes
to the given position. -/
def openBlock (s : State) (column : Nat) (position : Nat) (t : Token) : State :=
  if !s.inFlow && s.indent < (column : Int) then
    { s with
      indents := (column : Int) :: s.indents
      tokens := s.tokens.insertIdxIfInBounds position t }
  else s

/-- Close the block collections that lie deeper than a column. -/
def closeBlocks (column : Int) (s : State) : State :=
  if s.inFlow then s
  else
    let deeper := s.indents.takeWhile (· > column)
    { s with
      indents := s.indents.drop deeper.length
      tokens := s.tokens ++ (Array.replicate deeper.length Token.blockEnd) }

/-! ## Single tokens -/

/-- A number of a version: at most nine digits. -/
def scanVersionNumber? (p : Place) : Option (Nat × Place) :=
  let (digits, p) := p.span Text.isDigit
  if digits.isEmpty || digits.length > 9 then none else some (Text.decimalValue digits, p)

/-- A directive, from its per cent sign to the end of its line. -/
def scanDirective? (p : Place) : Option (Token × Place) := do
  let (name, p) := (p.skip 1).span isNameChar
  if name.isEmpty || !endsWord p.peek then none
  else
    let (t, p) ←
      if name == "YAML".toList then do
        let (major, p) ← scanVersionNumber? (p.skipWhile isGap)
        if p.sees '.' then
          let (minor, p) ← scanVersionNumber? (p.skip 1)
          some (Token.versionDirective major minor, p)
        else none
      else if name == "TAG".toList then do
        let p := p.skipWhile isGap
        if !p.sees '!' then none
        else
          let (handle, p) := scanHandle p
          if handle ≠ ['!'] && !(handle.length > 1 && handle.getLast? == some '!') then none
          else if !p.peek.any isGap then none
          else
            let (uri, p) ← scanUri? true (p.skipWhile isGap)
            if uri.isEmpty || !endsWord p.peek then none
            else some (Token.tagDirective handle uri, p)
      else none
    let p ← p.skipLineTail?
    some (t, p)

/-- A directive or the mark of a document: all collections end. -/
def atMargin? (s : State) : Option State :=
  (forgetKey? (closeBlocks (-1) s)).map fun s => { s with keyAllowed := false }

/-- An opening bracket. -/
def openFlow? (s : State) (t : Token) : Option State :=
  (rememberKey? s).map fun s =>
    { s.emit t (s.place.skip 1) with keys := none :: s.keys, keyAllowed := true }

/-- A closing bracket. -/
def closeFlow? (s : State) (t : Token) : Option State :=
  (forgetKey? s).map fun s =>
    { s.emit t (s.place.skip 1) with
      keys := if s.inFlow then s.keys.drop 1 else s.keys
      keyAllowed := false }

/-- The hyphen of a block sequence. -/
def blockEntry? (s : State) : Option State := do
  let s ←
    if s.inFlow then some s
    else if !s.keyAllowed then none
    else some (openBlock s s.place.column s.tokens.size .blockSequenceStart)
  let s ← forgetKey? s
  some { s.emit .blockEntry (s.place.skip 1) with keyAllowed := true }

/-- The question mark of a key. -/
def explicitKey? (s : State) : Option State := do
  let s ←
    if s.inFlow then some s
    else if !s.keyAllowed then none
    else some (openBlock s s.place.column s.tokens.size .blockMappingStart)
  let s ← forgetKey? s
  some { s.emit .key (s.place.skip 1) with keyAllowed := !s.inFlow }

/-- The colon of a value; a key that was remembered gets its token now. -/
def value? (s : State) : Option State :=
  match s.keys with
  | some k :: rest =>
    let s := { s with tokens := s.tokens.insertIdxIfInBounds k.number Token.key }
    let s := openBlock s k.column k.number .blockMappingStart
    some { s.emit .value (s.place.skip 1) with keys := none :: rest, keyAllowed := false }
  | _ => do
    let s ←
      if s.inFlow then some s
      else if !s.keyAllowed then none
      else some (openBlock s s.place.column s.tokens.size .blockMappingStart)
    some { s.emit .value (s.place.skip 1) with keyAllowed := !s.inFlow }

/-- A token that a key may begin with. -/
def keyLike? (s : State) (scan : State → Option (Token × Place)) : Option State := do
  let s ← rememberKey? s
  let (t, p) ← scan s
  some { s.emit t p with keyAllowed := false }

/-- Can a plain scalar begin with these two characters? -/
def startsPlain (inFlow : Bool) (c : Char) (next : Option Char) : Bool :=
  let indicator := "-?:,[]\x7b\x7d#&*!|>'\"%@\x60".toList.contains c || isGap c || isBreak c
  !indicator || (c == '-' && !(next.any isGap)) ||
    (!inFlow && (c == '?' || c == ':') && !endsWord next)

/-- A plain scalar. -/
def plain? (s : State) : Option State := do
  let s ← rememberKey? s
  let r ← scanPlain? s.inFlow (s.indent + 1) (s.place.rest.length + 1) [] ⟨[], false, [], []⟩ s.place
  let s := s.emit (.scalar .plain r.text) r.place
  some { s with keyAllowed := r.broken }

/-- A block scalar. -/
def block? (s : State) (literal : Bool) : Option State := do
  let s ← forgetKey? s
  let (text, p) ← scanBlock? literal s.indent s.place
  some { s.emit (.scalar (if literal then .literal else .folded) text) p with keyAllowed := true }

/-- A quoted scalar. -/
def quoted? (s : State) (double : Bool) : Option State :=
  keyLike? s fun s =>
    (scanQuoted? double (2 * s.place.rest.length + 2) [] (s.place.skip 1)).map fun (text, p) =>
      (.scalar (if double then .doubleQuoted else .singleQuoted) text, p)

/-- The token at a place that holds the character `c`. -/
def next? (s : State) (c : Char) : Option State :=
  let p := s.place
  let following := p.ahead 1
  if p.column = 0 ∧ c = '%' then do
    let s ← atMargin? s
    let (t, p) ← scanDirective? s.place
    some (s.emit t p)
  else if p.marksDocument '-' then (atMargin? s).map fun s => s.emit .documentStart (p.skip 3)
  else if p.marksDocument '.' then (atMargin? s).map fun s => s.emit .documentEnd (p.skip 3)
  else if c = '[' then openFlow? s .flowSequenceStart
  else if c = '\x7b' then openFlow? s .flowMappingStart
  else if c = ']' then closeFlow? s .flowSequenceEnd
  else if c = '\x7d' then closeFlow? s .flowMappingEnd
  else if c = ',' then
    (forgetKey? s).map fun s => { s.emit .flowEntry (p.skip 1) with keyAllowed := true }
  else if c = '-' ∧ endsWord following then blockEntry? s
  else if c = '?' ∧ (s.inFlow ∨ endsWord following) then explicitKey? s
  else if c = ':' ∧ (s.inFlow ∨ endsWord following) then value? s
  else if c = '*' then
    keyLike? s fun s => (scanAnchor? s.place).map fun (name, p) => (.alias name, p)
  else if c = '&' then
    keyLike? s fun s => (scanAnchor? s.place).map fun (name, p) => (.anchor name, p)
  else if c = '!' then
    keyLike? s fun s =>
      (scanTag? s.inFlow s.place).map fun (t, p) => (.tag t.handle t.suffix, p)
  else if c = '|' ∧ !s.inFlow then block? s true
  else if c = '>' ∧ !s.inFlow then block? s false
  else if c = '\'' then quoted? s false
  else if c = '"' then quoted? s true
  else if startsPlain s.inFlow c following then plain? s
  else none

/-- The end of the text: all block collections end, and no key may be missing. -/
def finish? (s : State) : Option State :=
  forgetKey? (closeBlocks (-1) s)

/-- Tokens up to the end of the text; the first argument bounds their number. -/
def scanAll? : Nat → State → Option State
  | 0, _ => none
  | fuel + 1, s => do
    let s := skipToToken (s.place.rest.length + 1) s
    let s ← dropStaleKeys? s
    let s := closeBlocks s.place.column s
    match s.place.peek with
    | none => finish? s
    | some c => do
      let s ← next? s c
      scanAll? fuel s

/-- The tokens of a text. -/
def scan? (cs : List Char) : Option (List Token) :=
  if !cs.all isAllowed then none
  else
    (scanAll? (cs.length + 2) ⟨Place.start cs, #[], [], true, [none]⟩).map (·.tokens.toList)

end Token

end LogWatch.Yaml
