import LogWatch.Number.Reading
import LogWatch.Text.Basic

/-!
# Words of templates

A template is text with expressions between double braces, statements between braces and percent
signs, and comments between braces and number signs.  A hyphen at the inner side of a brace takes
away the blanks next to it on the outer side.

* `Token.scan?` — the words of a template, if it is well formed so far.
-/

namespace LogWatch.Template

/-- A word of a template. -/
inductive Token where
  | text (chars : List Char)
  | openExpr
  | closeExpr
  | openBlock
  | closeBlock
  | name (text : String)
  | str (text : String)
  | int (value : Nat)
  | float (value : Float)
  | mark (text : String)
deriving Inhabited

namespace Token

/-- A blank between the words of an expression. -/
def isSpace (c : Char) : Bool :=
  c == ' ' || c == '\t' || c == '\n' || c == '\r' || c.toNat == 12

/-- A character at the beginning of a name. -/
def startsName (c : Char) : Bool :=
  Text.isLetter c || c == '_'

/-- A character within a name. -/
def continuesName (c : Char) : Bool :=
  startsName c || Text.isDigit c

/-! ## Literals -/

/-- The character of four hexadecimal digits, if it is one. -/
def escapedCode? (a b c d : Char) : Option Nat := do
  return (((← Text.hexValue? a) * 16 + (← Text.hexValue? b)) * 16 + (← Text.hexValue? c)) * 16 +
    (← Text.hexValue? d)

/-- The characters of a string up to its closing quote, and what follows. -/
def scanString? (quote : Char) : Nat → List Char → Option (List Char × List Char)
  | 0, _ => none
  | _ + 1, [] => none
  | fuel + 1, '\\' :: 'u' :: a :: b :: c :: d :: rest => do
    let code ← escapedCode? a b c d
    let (chars, after) ← scanString? quote fuel rest
    return (Char.ofNat code :: chars, after)
  | fuel + 1, '\\' :: c :: rest => do
    let plain ← match c with
      | 'n' => some '\n'
      | 'r' => some '\r'
      | 't' => some '\t'
      | 'b' => some (Char.ofNat 8)
      | 'f' => some (Char.ofNat 12)
      | '\\' => some '\\'
      | '/' => some '/'
      | '"' => some '"'
      | '\'' => some '\''
      | _ => none
    let (chars, after) ← scanString? quote fuel rest
    return (plain :: chars, after)
  | fuel + 1, c :: rest =>
    if c = quote then some ([], rest)
    else do
      let (chars, after) ← scanString? quote fuel rest
      return (c :: chars, after)

/-- How far the writing of a number has come. -/
inductive NumberState where
  | whole
  | fraction
  | exponent
  | digits
deriving DecidableEq

/-- The further characters of a number, and whether they make it a double. -/
def scanNumber (state : NumberState) : List Char → List Char × Bool × List Char
  | [] => ([], state ≠ .whole, [])
  | c :: cs =>
    let next : Option NumberState :=
      if Text.isDigit c then some (if state = .exponent then .digits else state)
      else if c = '.' ∧ state = .whole then some .fraction
      else if (c = 'e' ∨ c = 'E') ∧ (state = .whole ∨ state = .fraction) then some .exponent
      else if (c = '+' ∨ c = '-') ∧ state = .exponent then some .digits
      else none
    match next with
    | some state =>
      let (chars, isFloat, rest) := scanNumber state cs
      (c :: chars, isFloat, rest)
    | none => ([], state ≠ .whole, c :: cs)

/-- The number at the beginning of a text, and what follows. -/
def number? (cs : List Char) : Option (Token × List Char) :=
  let (chars, isFloat, rest) := scanNumber .whole cs
  if isFloat then (Number.readFloat? chars).map fun x => (.float x, rest)
  else (Number.readNat? 0x100000000000000000000000000000000 chars).map fun n => (.int n, rest)

/-- The operators of two characters. -/
def longMarks : List (List Char) :=
  [['=', '='], ['!', '='], ['>', '='], ['<', '='], ['/', '/'], ['*', '*']]

/-- The operators of one character. -/
def shortMarks : List Char :=
  ['+', '-', '*', '/', '%', '.', ',', ':', '~', '|', '=', '>', '<', '(', ')', '[', ']', '\x7b', '\x7d']

/-- The next word of an expression, and what follows. -/
def word? (cs : List Char) : Option (Token × List Char) :=
  match cs with
  | [] => none
  | c :: rest =>
    if longMarks.contains (cs.take 2) then some (.mark (String.ofList (cs.take 2)), cs.drop 2)
    else if shortMarks.contains c then some (.mark (String.singleton c), rest)
    else if c = '\'' ∨ c = '"' then
      (scanString? c (rest.length + 1) rest).map fun (chars, after) =>
        (.str (String.ofList chars), after)
    else if Text.isDigit c then number? cs
    else if startsName c then
      let name := cs.takeWhile continuesName
      some (.name (String.ofList name), cs.drop name.length)
    else none

/-- How a word changes the number of open brackets. -/
def nesting (depth : Nat) : Token → Nat
  | .mark "(" | .mark "[" | .mark "\x7b" => depth + 1
  | .mark ")" | .mark "]" | .mark "\x7d" => depth - 1
  | _ => depth

/-! ## Text and braces -/

/-- What ends an expression or a statement. -/
def closing (isBlock : Bool) : List Char :=
  if isBlock then ['%', '\x7d'] else ['\x7d', '\x7d']

/-- What follows the end of an expression or a statement, and whether blanks are taken away. -/
def close? (isBlock : Bool) (cs : List Char) : Option (Bool × List Char) :=
  match Text.dropStart? (closing isBlock) cs with
  | some rest => some (false, rest)
  | none =>
    match Text.dropStart? ('-' :: closing isBlock) cs with
    | some rest => some (true, rest)
    | none =>
      match isBlock, Text.dropStart? ('+' :: closing isBlock) cs with
      | true, some rest => some (false, rest)
      | _, _ => none

/-- The text after a comment that has been opened, and whether blanks are taken away. -/
def afterComment? (before : Option Char) : List Char → Option (Bool × List Char)
  | '#' :: '\x7d' :: rest => some (before == some '-', rest)
  | c :: rest => afterComment? (some c) rest
  | [] => none

/-- The text of a template, held in reverse, as a token. -/
def textToken (trimEnd : Bool) (seen : List Char) : List Token :=
  let seen := if trimEnd then seen.dropWhile Text.isBlank else seen
  if seen.isEmpty then [] else [.text seen.reverse]

/-- Text without blanks in front where they are taken away. -/
def afterTrim (trim : Bool) (cs : List Char) : List Char :=
  if trim then Text.trimStart cs else cs

/-- What follows a sign for blanks at the beginning of an expression, and whether they are taken
away. -/
def afterSign : List Char → Bool × List Char
  | '-' :: rest => (true, rest)
  | '+' :: rest => (false, rest)
  | rest => (false, rest)

mutual

/-- The words of a text; `seen` is the text so far, in reverse. -/
def scanText? : Nat → List Char → List Char → Option (List Token)
  | 0, _, _ => none
  | _ + 1, seen, [] => some (textToken false seen)
  | fuel + 1, seen, '\x7b' :: '\x7b' :: rest => do
    let (trim, rest) := afterSign rest
    return textToken trim seen ++ .openExpr :: (← scanWords? fuel false 0 rest)
  | fuel + 1, seen, '\x7b' :: '%' :: rest => do
    let (trim, rest) := afterSign rest
    return textToken trim seen ++ .openBlock :: (← scanWords? fuel true 0 rest)
  | fuel + 1, seen, '\x7b' :: '#' :: rest => do
    let trim := rest.head? == some '-'
    let (trimNext, rest) ← afterComment? none rest
    return textToken trim seen ++ (← scanText? fuel [] (afterTrim trimNext rest))
  | fuel + 1, seen, c :: rest => scanText? fuel (c :: seen) rest

/-- The words of an expression or a statement with some brackets open, and of what follows it. -/
def scanWords? : Nat → Bool → Nat → List Char → Option (List Token)
  | 0, _, _, _ => none
  | fuel + 1, isBlock, depth, cs =>
    let cs := cs.dropWhile isSpace
    match if depth = 0 then close? isBlock cs else none with
    | some (trim, rest) => do
      return (if isBlock then .closeBlock else .closeExpr) ::
        (← scanText? fuel [] (afterTrim trim rest))
    | none =>
      match word? cs with
      | some (token, rest) => do
        return token :: (← scanWords? fuel isBlock (nesting depth token) rest)
      | none => none

end

/-- A template without the line end after its last line. -/
def dropFinalReturn (cs : List Char) : List Char :=
  let cs := if cs.getLast? = some '\n' then cs.dropLast else cs
  if cs.getLast? = some '\r' then cs.dropLast else cs

/-- The words of a template. -/
def scan? (cs : List Char) : Option (List Token) :=
  let cs := dropFinalReturn cs
  scanText? (2 * cs.length + 2) [] cs

end Token

end LogWatch.Template
