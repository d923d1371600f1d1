import LogWatch.Text.Basic

/-!
# Places in a YAML text

A place is what is left of a text together with the line and the column it starts at.  This file
holds the classes of characters that the tokens are cut by and the steps from place to place.
-/

namespace LogWatch.Yaml

/-! ## Characters -/

/-- The characters that a text may hold. -/
def isAllowed (c : Char) : Bool :=
  let n := c.toNat
  n == 0x09 || n == 0x0A || n == 0x0D || (0x20 ≤ n && n ≤ 0x7E) || n == 0x85 ||
    (0xA0 ≤ n && n ≤ 0xD7FF) || (0xE000 ≤ n && n ≤ 0xFFFD) || 0x10000 ≤ n

/-- A character that ends a line. -/
def isBreak (c : Char) : Bool :=
  c == '\n' || c == '\r' || c == '\u0085' || c == '\u2028' || c == '\u2029'

/-- A space or a tab. -/
def isGap (c : Char) : Bool :=
  c == ' ' || c == '\t'

/-- The end of a line or of the text. -/
def endsLine : Option Char → Bool
  | some c => isBreak c
  | none => true

/-- A space, a tab, the end of a line or of the text. -/
def endsWord : Option Char → Bool
  | some c => isGap c || isBreak c
  | none => true

/-- Characters of names: letters, digits, underscore and hyphen. -/
def isNameChar (c : Char) : Bool :=
  Text.isLetter c || Text.isDigit c || c == '_' || c == '-'

/-! ## Places -/

/-- What is left of a text, and where it starts. -/
structure Place where
  rest : List Char
  index : Nat
  line : Nat
  column : Nat
deriving Inhabited

namespace Place

/-- The beginning of a text. -/
def start (cs : List Char) : Place :=
  ⟨cs, 0, 0, 0⟩

/-- The character at a place. -/
def peek (p : Place) : Option Char :=
  p.rest.head?

/-- The character some steps after a place. -/
def ahead (p : Place) (n : Nat) : Option Char :=
  p.rest[n]?

/-- Is this the character at a place? -/
def sees (p : Place) (c : Char) : Bool :=
  p.peek == some c

/-- The place some characters on, on the same line. -/
def skip (p : Place) (n : Nat) : Place :=
  ⟨p.rest.drop n, p.index + n, p.line, p.column + n⟩

/-- The characters of a kind that come next, and the place after them, on the same line. -/
def span (p : Place) (kind : Char → Bool) : List Char × Place :=
  let run := p.rest.takeWhile kind
  (run, p.skip run.length)

/-- The place after the characters of a kind, on the same line. -/
def skipWhile (p : Place) (kind : Char → Bool) : Place :=
  (p.span kind).2

/-- The line break at a place as it is kept, and the place after it: a line feed for all but the
two separators of Unicode, which stay as they are. -/
def takeBreak (p : Place) : List Char × Place :=
  match p.rest with
  | '\r' :: '\n' :: rest => (['\n'], ⟨rest, p.index + 2, p.line + 1, 0⟩)
  | c :: rest =>
    if isBreak c then
      (if c = '\u2028' ∨ c = '\u2029' then [c] else ['\n'], ⟨rest, p.index + 1, p.line + 1, 0⟩)
    else ([], p)
  | [] => ([], p)

/-- The place after a line break. -/
def skipBreak (p : Place) : Place :=
  p.takeBreak.2

/-- The place after the rest of a line that holds nothing but blanks and a comment. -/
def skipLineTail? (p : Place) : Option Place :=
  let p := p.skipWhile isGap
  let p := if p.sees '#' then p.skipWhile (!isBreak ·) else p
  if endsLine p.peek then some p.skipBreak else none

/-- Does a line start here with three of the given character and a gap? -/
def marksDocument (p : Place) (c : Char) : Bool :=
  p.column == 0 && p.ahead 0 == some c && p.ahead 1 == some c && p.ahead 2 == some c &&
    endsWord (p.ahead 3)

/-- Does a document start or end here? -/
def atDocumentMark (p : Place) : Bool :=
  p.marksDocument '-' || p.marksDocument '.'

end Place

end LogWatch.Yaml
