import LogWatch.Number.Reading
import LogWatch.Regex.Basic

/-!
# Regular expressions read from text

`Regex.Pattern.ofText` reads a pattern.  Patterns have no look-around and no back-references;
classes may be nested and combined, groups may be named, and flags may be set in the middle of a
pattern, up to the end of the group around them.
-/

namespace LogWatch.Regex

/-- Why a text is no pattern that can be used. -/
inductive PatternError where
  | malformed
  | tooLarge
deriving DecidableEq, Repr

/-- The error in words. -/
def PatternError.message : PatternError → String
  | .malformed => "regex parse error"
  | .tooLarge => "Compiled regex exceeds size limit of 10485760 bytes."

/-- A pattern that has been read: its expression and the names of its groups, which are numbered
from one. -/
structure Pattern where
  regex : Regex
  names : List (Option String)

/-! ## Flags -/

/-- The flags that govern how a part of a pattern is read. -/
structure Flags where
  ignoreCase : Bool
  multiLine : Bool
  dotAll : Bool
  swapGreed : Bool
  unicode : Bool
  anyReturn : Bool
  verbose : Bool

/-- The flags in force at the beginning of a pattern. -/
def Flags.initial : Flags :=
  ⟨false, false, false, false, true, false, false⟩

/-- The flags with one of them set or cleared. -/
def Flags.set? (f : Flags) (letter : Char) (on : Bool) : Option Flags :=
  match letter with
  | 'i' => some { f with ignoreCase := on }
  | 'm' => some { f with multiLine := on }
  | 's' => some { f with dotAll := on }
  | 'U' => some { f with swapGreed := on }
  | 'u' => some { f with unicode := on }
  | 'R' => some { f with anyReturn := on }
  | 'x' => some { f with verbose := on }
  | _ => none

/-- Blanks and comments, which do not count in verbose patterns. -/
def skipSpace (f : Flags) : Nat → List Char → List Char
  | 0, cs => cs
  | fuel + 1, cs =>
    if !f.verbose then cs
    else
      match cs with
      | '#' :: rest => skipSpace f fuel (rest.dropWhile (· != '\n'))
      | c :: rest => if Text.isBlank c then skipSpace f fuel rest else c :: rest
      | [] => []

/-- The text after blanks and comments. -/
def afterSpace (f : Flags) (cs : List Char) : List Char :=
  skipSpace f cs.length cs

/-- Flags between a question mark and a colon or a parenthesis: each letter once, letters after a
minus sign cleared.  Gives the flags, how many letters there were, the closing character and the
text after it. -/
def scanFlags? (f : Flags) (on : Bool) (seen : List Char) :
    List Char → Option (Flags × Nat × Char × List Char)
  | [] => none
  | c :: rest =>
    if c = ':' ∨ c = ')' then
      if !on && seen.head? == some '-' then none else some (f, seen.length, c, rest)
    else if c = '-' then
      if !on then none else scanFlags? f false ('-' :: seen) rest
    else if seen.contains c then none
    else
      match f.set? c on with
      | some f => scanFlags? f on (c :: seen) rest
      | none => none

/-! ## Escapes -/

/-- Characters that have a meaning of their own. -/
def isMeta (c : Char) : Bool :=
  "\\.+*?()|[]\x7b\x7d^$#&-~".toList.contains c

/-- What an escape stands for. -/
inductive Escape where
  | literal (c : Char)
  | set (s : CharSet)
  | look (l : Look)

/-- Hexadecimal digits of a character code, in braces or of a fixed number. -/
def scanCode? (count : Nat) (cs : List Char) : Option (Char × List Char) := do
  let (digits, rest) ← match cs with
    | '\x7b' :: rest =>
      let digits := rest.takeWhile (· != '\x7d')
      match rest.dropWhile (· != '\x7d') with
      | _ :: rest => if digits.isEmpty then none else some (digits, rest)
      | [] => none
    | _ => if cs.length < count then none else some (cs.take count, cs.drop count)
  let n ← Number.readDigits? 16 digits
  if n < 0xD800 ∨ (0xE000 ≤ n ∧ n ≤ 0x10FFFF) then some (Char.ofNat n, rest) else none

/-- The property after `\p`: one letter, or a name in braces, which a caret negates. -/
def scanProperty? (cs : List Char) : Option (CharSet × List Char) := do
  let (name, rest) ← match cs with
    | '\x7b' :: rest =>
      match rest.dropWhile (· != '\x7d') with
      | _ :: after => some (rest.takeWhile (· != '\x7d'), after)
      | [] => none
    | c :: rest => some ([c], rest)
    | [] => none
  let (negated, name) := match name with
    | '^' :: more => (true, more)
    | more => (false, more)
  let named (cs : List Char) : Option CharSet := CharSet.property? (String.ofList cs)
  let value? : Option (Bool × CharSet) :=
    match Text.splitOn '=' name with
    | [kind, value] =>
      let (unequal, kind) := if kind.getLast? == some '!' then (true, kind.dropLast) else (false, kind)
      let key := String.ofList ((kind.map Text.asciiLower).filter (· != '_'))
      if key == "gc" || key == "generalcategory" then (named value).map (unequal, ·) else none
    | _ =>
      match Text.splitOn ':' name with
      | [kind, value] =>
        let key := String.ofList ((kind.map Text.asciiLower).filter (· != '_'))
        if key == "gc" || key == "generalcategory" then (named value).map (false, ·) else none
      | _ => (named name).map (false, ·)
  let (unequal, s) ← value?
  some (if negated != unequal then .complement s else s, rest)

/-- A word boundary of a special kind, in braces. -/
def scanBoundary? (ascii : Bool) (cs : List Char) : Option (Look × List Char) :=
  match cs with
  | '\x7b' :: rest =>
    match rest with
    | c :: _ =>
      if Text.isLetter c || c == '-' then
        let name := rest.takeWhile fun c => Text.isLetter c || c == '-'
        match rest.drop name.length with
        | '\x7d' :: after =>
          match String.ofList name with
          | "start" => some (.wordStart ascii, after)
          | "end" => some (.wordEnd ascii, after)
          | "start-half" => some (.wordStartHalf ascii, after)
          | "end-half" => some (.wordEndHalf ascii, after)
          | _ => none
        | _ => none
      else some (.wordBoundary ascii, cs)
    | [] => none
  | _ => some (.wordBoundary ascii, cs)

/-- The class of a letter after a backslash, negated for capitals. -/
def letterClass? (f : Flags) (c : Char) : Option CharSet :=
  let pick (wide narrow : CharSet) : CharSet := if f.unicode then wide else narrow
  match c with
  | 'd' => some (pick .digit CharSet.asciiDigit)
  | 's' => some (pick .blank CharSet.asciiBlank)
  | 'w' => some (pick .word CharSet.asciiWord)
  | 'D' => if f.unicode then some (.complement .digit) else none
  | 'S' => if f.unicode then some (.complement .blank) else none
  | 'W' => if f.unicode then some (.complement .word) else none
  | _ => none

/-- An escape after its backslash. -/
def scanEscape? (f : Flags) (cs : List Char) : Option (Escape × List Char) :=
  match cs with
  | [] => none
  | c :: rest =>
    let literal (d : Char) : Option (Escape × List Char) := some (.literal d, rest)
    let look (l : Look) : Option (Escape × List Char) := some (.look l, rest)
    if Text.isDigit c then none
    else if c = 'x' then (scanCode? 2 rest).map fun (d, r) => (.literal d, r)
    else if c = 'u' then (scanCode? 4 rest).map fun (d, r) => (.literal d, r)
    else if c = 'U' then (scanCode? 8 rest).map fun (d, r) => (.literal d, r)
    else if c = 'p' then
      if f.unicode then (scanProperty? rest).map fun (s, r) => (.set s, r) else none
    else if c = 'P' then
      if f.unicode then (scanProperty? rest).map fun (s, r) => (.set (.complement s), r) else none
    else if "dswDSW".toList.contains c then (letterClass? f c).map fun s => (.set s, rest)
    else
      match c with
      | 'a' => literal '\x07'
      | 'f' => literal '\x0c'
      | 't' => literal '\t'
      | 'n' => literal '\n'
      | 'r' => literal '\r'
      | 'v' => literal '\x0b'
      | 'A' => look .textStart
      | 'z' => look .textEnd
      | 'B' => look (.noWordBoundary !f.unicode)
      | '<' => look (.wordStart !f.unicode)
      | '>' => look (.wordEnd !f.unicode)
      | 'b' => (scanBoundary? (!f.unicode) rest).map fun (l, r) => (.look l, r)
      | _ => if isMeta c || (c.toNat < 128 && !Text.isLetter c) then literal c else none

/-! ## Classes -/

/-- How two sets of a class are combined. -/
inductive SetOp where
  | inter
  | diff
  | symmDiff

/-- Two sets combined; where case is ignored each is completed first. -/
def SetOp.apply (f : Flags) (op : SetOp) (a b : CharSet) : CharSet :=
  let a := if f.ignoreCase then .folded a else a
  let b := if f.ignoreCase then .folded b else b
  match op with
  | .inter => .inter a b
  | .diff => .diff a b
  | .symmDiff => .symmDiff a b

/-- A named ASCII class in brackets and colons, after its bracket and colon. -/
def scanNamed? (cs : List Char) : Option (CharSet × List Char) :=
  let (negated, cs) := match cs with
    | '^' :: rest => (true, rest)
    | rest => (false, rest)
  let name := cs.takeWhile (· != ':')
  match cs.dropWhile (· != ':') with
  | ':' :: ']' :: rest =>
    (CharSet.named? (String.ofList name)).map fun s => (if negated then .complement s else s, rest)
  | _ => none

/-- An item of a class: a character, or a set by escape. -/
def scanItem? (f : Flags) (cs : List Char) : Option (Escape × List Char) :=
  match cs with
  | '\\' :: rest => scanEscape? f rest
  | c :: rest => some (.literal c, rest)
  | [] => none

/-- A range or a single item of a class. -/
def scanRange? (f : Flags) (cs : List Char) : Option (CharSet × List Char) := do
  let (first, rest) ← scanItem? f cs
  let rest := afterSpace f rest
  let next := match rest with
    | '-' :: more => (afterSpace f more).head?
    | _ => none
  let isRange := rest.head? == some '-' && next != some ']' && next != some '-'
  if isRange then
    let (last, rest) ← scanItem? f (afterSpace f (rest.drop 1))
    match first, last with
    | .literal a, .literal b =>
      if a ≤ b then some (.range a.toNat b.toNat, rest) else none
    | _, _ => none
  else if rest.isEmpty then none
  else
    match first with
    | .literal c => some (.single c, rest)
    | .set s => some (s, rest)
    | .look _ => none

/-- The sets of a class that is being read: what the operators so far have made, the operator that
waits for its right side, and the items of that side. -/
structure ClassState where
  left : Option (CharSet × SetOp)
  items : List CharSet

/-- The set of all items so far. -/
def ClassState.close (f : Flags) (s : ClassState) : CharSet :=
  let right := CharSet.unionAll s.items.reverse
  match s.left with
  | some (a, op) => op.apply f a right
  | none => right

/-- The opening of a class after its bracket: negation, and hyphens and a bracket that stand for
themselves because nothing comes before them. -/
def scanClassStart (f : Flags) (cs : List Char) : Bool × List CharSet × List Char :=
  let cs := afterSpace f cs
  let (negated, cs) := match cs with
    | '^' :: rest => (true, afterSpace f rest)
    | rest => (false, rest)
  let hyphens := cs.takeWhile (· == '-')
  let cs := afterSpace f (cs.drop hyphens.length)
  let items := hyphens.map CharSet.single
  match items, cs with
  | [], ']' :: rest => (negated, [CharSet.single ']'], afterSpace f rest)
  | _, _ => (negated, items, cs)

/-- A class after its opening: the set, how deep classes nest in it, and the text after it.  The
first argument bounds the number of steps. -/
def scanClass? (f : Flags) :
    Nat → Bool → Nat → ClassState → List Char → Option (CharSet × Nat × List Char)
  | 0, _, _, _, _ => none
  | fuel + 1, negated, nest, s, cs =>
    match afterSpace f cs with
    | [] => none
    | ']' :: rest =>
      let set := s.close f
      let set := if f.ignoreCase then .folded set else set
      some (if negated then .complement set else set, nest + 1, rest)
    | '[' :: rest =>
      let named := match rest with
        | ':' :: more => scanNamed? more
        | _ => none
      match named with
      | some (set, rest) =>
        scanClass? f fuel negated nest { s with items := set :: s.items } rest
      | none =>
        let (innerNegated, items, rest) := scanClassStart f rest
        match scanClass? f fuel innerNegated 0 ⟨none, items⟩ rest with
        | none => none
        | some (set, inner, rest) =>
          scanClass? f fuel negated (max nest inner) { s with items := set :: s.items } rest
    | '&' :: '&' :: rest =>
      scanClass? f fuel negated (nest + 1) ⟨some (s.close f, .inter), []⟩ rest
    | '-' :: '-' :: rest =>
      scanClass? f fuel negated (nest + 1) ⟨some (s.close f, .diff), []⟩ rest
    | '~' :: '~' :: rest =>
      scanClass? f fuel negated (nest + 1) ⟨some (s.close f, .symmDiff), []⟩ rest
    | cs =>
      match scanRange? f cs with
      | some (set, rest) =>
        scanClass? f fuel negated nest { s with items := set :: s.items } rest
      | none => none

/-! ## Repetitions -/

/-- A whole number of 32 bits with blanks around it. -/
def scanCount? (f : Flags) (cs : List Char) : Option (Option Nat × List Char) :=
  let cs := cs.dropWhile Text.isBlank
  let digits := cs.takeWhile Text.isDigit
  let rest := (afterSpace f (cs.drop digits.length)).dropWhile Text.isBlank
  if digits.isEmpty then some (none, rest)
  else
    let n := Text.decimalValue digits
    if n < 0x100000000 then some (some n, rest) else none

/-- The bounds of a counted repetition after its opening brace. -/
def scanBounds? (f : Flags) (cs : List Char) : Option (Nat × Option Nat × List Char) := do
  let (least, rest) ← scanCount? f cs
  let least ← least
  match rest with
  | '\x7d' :: rest => some (least, some least, rest)
  | ',' :: rest =>
    match afterSpace f rest with
    | '\x7d' :: rest => some (least, none, rest)
    | rest => do
      let (most, rest) ← scanCount? f rest
      let most ← most
      match rest with
      | '\x7d' :: rest => if least ≤ most then some (least, some most, rest) else none
      | _ => none
  | _ => none

/-- A question mark after a repetition makes it take as little as possible first. -/
def scanGreed (f : Flags) (cs : List Char) : Bool × List Char :=
  match cs with
  | '?' :: rest => (f.swapGreed, rest)
  | rest => (!f.swapGreed, rest)

/-! ## Patterns -/

/-- A part of a sequence: its expression, how deep it nests, and whether it may be repeated. -/
structure Part where
  regex : Regex
  nest : Nat
  repeatable : Bool

/-- Names of the groups so far, the latest first. -/
abbrev Names := List (Option String)

/-- A character that a name may begin with. -/
def isNameStart (c : Char) : Bool :=
  c == '_' || (Text.Unicode.isWord c && !Text.Unicode.isDecimalDigit c &&
    !((Text.Unicode.category c) matches .pc))

/-- A character that a name may go on with. -/
def isNameRest (c : Char) : Bool :=
  c == '_' || c == '.' || c == '[' || c == ']' || isNameStart c ||
    ((Text.Unicode.category c) matches .nd | .nl | .no)

/-- The name of a group up to its closing angle. -/
def scanName? (names : Names) (cs : List Char) : Option (String × List Char) :=
  let name := cs.takeWhile (· != '>')
  match cs.dropWhile (· != '>'), name with
  | _ :: rest, c :: more =>
    let s := String.ofList name
    if isNameStart c && more.all isNameRest && !names.contains (some s) then some (s, rest) else none
  | _, _ => none

/-- The parts of a sequence, latest first, as one part. -/
def joinParts (parts : List Part) : Part :=
  let parts := parts.reverse
  let nest := parts.foldl (fun n p => max n p.nest) 0
  ⟨seqAll (parts.map (·.regex)), if parts.length > 1 then nest + 1 else nest, true⟩

/-- Alternatives, latest first, as one part. -/
def joinAlternatives (alternatives : List Part) : Part :=
  let parts := alternatives.reverse
  let nest := parts.foldl (fun n p => max n p.nest) 0
  ⟨altAll (parts.map (·.regex)), if parts.length > 1 then nest + 1 else nest, true⟩

/-- A character that stands for itself. -/
def literalPart (f : Flags) (c : Char) : Part :=
  let s := CharSet.single c
  ⟨.chars (if f.ignoreCase then .folded s else s), 0, true⟩

/-- The part that an escape stands for. -/
def escapePart (f : Flags) : Escape → Part
  | .literal c => literalPart f c
  | .set s => ⟨.chars (if f.ignoreCase then .folded s else s), 0, true⟩
  | .look l => ⟨.look l, 0, true⟩

/-- The part that a point stands for. -/
def dotPart? (f : Flags) : Option Part :=
  if !f.unicode then none
  else if f.dotAll then some ⟨.chars .all, 0, true⟩
  else if f.anyReturn then some ⟨.chars (.allBut ['\r', '\n']), 0, true⟩
  else some ⟨.chars (.allBut ['\n']), 0, true⟩

/-- The condition that a caret stands for. -/
def startLook (f : Flags) : Look :=
  if !f.multiLine then .textStart else if f.anyReturn then .lineStartAnyReturn else .lineStart

/-- The condition that a dollar sign stands for. -/
def endLook (f : Flags) : Look :=
  if !f.multiLine then .textEnd else if f.anyReturn then .lineEndAnyReturn else .lineEnd

/-- The last part of a sequence repeated. -/
def repeatLast? (parts : List Part) (least : Nat) (most : Option Nat) (greedy : Bool) :
    Option (List Part) :=
  match parts with
  | p :: rest =>
    if p.repeatable then some (⟨.rep p.regex least most greedy, p.nest + 1, true⟩ :: rest) else none
  | [] => none

/-- A pattern up to the end of the text or of the group around it.  `parts` and `alternatives`
hold what came before in the group, the latest first.  The first argument bounds the number of
steps. -/
def scanGroup? :
    Nat → Flags → Names → List Part → List Part → List Char → Option (Part × Names × List Char)
  | 0, _, _, _, _, _ => none
  | fuel + 1, f, names, parts, alternatives, cs =>
    let close (rest : List Char) : Option (Part × Names × List Char) :=
      some (joinAlternatives (joinParts parts :: alternatives), names, rest)
    match afterSpace f cs with
    | [] => close []
    | ')' :: rest => close (')' :: rest)
    | '|' :: rest => scanGroup? fuel f names [] (joinParts parts :: alternatives) rest
    | '?' :: rest =>
      let (greedy, rest) := scanGreed f (afterSpace f rest)
      match repeatLast? parts 0 (some 1) greedy with
      | some parts => scanGroup? fuel f names parts alternatives rest
      | none => none
    | '*' :: rest =>
      let (greedy, rest) := scanGreed f (afterSpace f rest)
      match repeatLast? parts 0 none greedy with
      | some parts => scanGroup? fuel f names parts alternatives rest
      | none => none
    | '+' :: rest =>
      let (greedy, rest) := scanGreed f (afterSpace f rest)
      match repeatLast? parts 1 none greedy with
      | some parts => scanGroup? fuel f names parts alternatives rest
      | none => none
    | '\x7b' :: rest =>
      match scanBounds? f rest with
      | none => none
      | some (least, most, rest) =>
        let (greedy, rest) := scanGreed f (afterSpace f rest)
        match repeatLast? parts least most greedy with
        | some parts => scanGroup? fuel f names parts alternatives rest
        | none => none
    | '[' :: rest =>
      let (negated, items, rest) := scanClassStart f rest
      if !f.unicode && negated then none
      else
        match scanClass? f fuel negated 0 ⟨none, items⟩ rest with
        | none => none
        | some (set, nest, rest) =>
          scanGroup? fuel f names (⟨.chars set, nest, true⟩ :: parts) alternatives rest
    | '\\' :: rest =>
      match scanEscape? f rest with
      | none => none
      | some (e, rest) => scanGroup? fuel f names (escapePart f e :: parts) alternatives rest
    | '.' :: rest =>
      match dotPart? f with
      | some p => scanGroup? fuel f names (p :: parts) alternatives rest
      | none => none
    | '^' :: rest =>
      scanGroup? fuel f names (⟨.look (startLook f), 0, true⟩ :: parts) alternatives rest
    | '$' :: rest =>
      scanGroup? fuel f names (⟨.look (endLook f), 0, true⟩ :: parts) alternatives rest
    | '(' :: rest =>
      let inner (g : Flags) (names : Names) (wrap : Regex → Regex) (rest : List Char) :
          Option (Part × Names × List Char) :=
        match scanGroup? fuel g names [] [] rest with
        | some (p, names, ')' :: rest) => some (⟨wrap p.regex, p.nest + 1, true⟩, names, rest)
        | _ => none
      let capture (name : Option String) (rest : List Char) : Option (Part × Names × List Char) :=
        inner f (name :: names) (.group (names.length + 1)) rest
      match afterSpace f rest with
      | '?' :: more =>
        let named := match more with
          | 'P' :: '<' :: rest => some rest
          | '<' :: '=' :: _ => none
          | '<' :: '!' :: _ => none
          | '<' :: rest => some rest
          | _ => none
        match named with
        | some rest =>
          match scanName? names rest with
          | none => none
          | some (name, rest) =>
            match capture (some name) rest with
            | some (p, names, rest) => scanGroup? fuel f names (p :: parts) alternatives rest
            | none => none
        | none =>
          match scanFlags? f true [] more with
          | none => none
          | some (g, count, closing, rest) =>
            if closing = ')' then
              if count = 0 then none
              else scanGroup? fuel g names (⟨.empty, 0, false⟩ :: parts) alternatives rest
            else
              match inner g names id rest with
              | some (p, names, rest) => scanGroup? fuel f names (p :: parts) alternatives rest
              | none => none
      | rest =>
        match capture none rest with
        | some (p, names, rest) => scanGroup? fuel f names (p :: parts) alternatives rest
        | none => none
    | c :: rest => scanGroup? fuel f names (literalPart f c :: parts) alternatives rest

/-- How deep the parts of a pattern may nest. -/
def maxNest : Nat := 250

/-- The pattern that a text spells. -/
def Pattern.ofChars (cs : List Char) : Except PatternError Pattern :=
  match scanGroup? (cs.length + 1) Flags.initial [] [] [] cs with
  | some (p, names, []) =>
    if p.nest > maxNest then .error .malformed
    else if p.regex.weight > maxWeight then .error .tooLarge
    else .ok ⟨p.regex, names.reverse⟩
  | _ => .error .malformed

/-- The pattern that a text spells. -/
def Pattern.ofText (s : String) : Except PatternError Pattern :=
  Pattern.ofChars s.toList

end LogWatch.Regex
