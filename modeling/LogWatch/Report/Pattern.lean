import LogWatch.Text.Basic
import LogWatch.Text.Unicode.Properties

/-!
# Patterns of messages

Messages that differ only in identifiers, addresses and counters are counted together: the pattern of
a message has `#UUID#`, `#EMAIL#`, `#IP#`, `#MAC#` and `#NUM#` in their places, which are filled in
that order.  A number counts only where it stands between blanks, brackets and punctuation apart.

* `matchUuid?`, `matchEmail?`, `matchIpv4?`, `matchMac?`, `isNumber` — what is replaced;
* `Pattern.normalize` — the pattern of a text.
-/

namespace LogWatch.Report.Pattern

open Text

/-! ## Classes of characters -/

/-- A hexadecimal digit. -/
def isHex (c : Char) : Bool :=
  isDigit c || ('a' ≤ c && c ≤ 'f') || ('A' ≤ c && c ≤ 'F')

/-- A character of the part of a mail address before its sign. -/
def isLocal (c : Char) : Bool :=
  isLetter c || isDigit c || c == '.' || c == '_' || c == '%' || c == '+' || c == '-'

/-- A character of the part of a mail address after its sign. -/
def isDomain (c : Char) : Bool :=
  isLetter c || isDigit c || c == '.' || c == '-'

/-- Is there no character of a word at a place? -/
def isFree : Option Char → Bool
  | some c => !Unicode.isWord c
  | none => true

/-! ## Recognisers

A recogniser is given the character before a place, if there is one, and the text from the place on,
and tells how many characters it matches there. -/

/-- A recogniser. -/
abbrev Recogniser := Option Char → List Char → Option Nat

/-- What follows exactly `n` characters of a class. -/
def dropExactly? (isIn : Char → Bool) : Nat → List Char → Option (List Char)
  | 0, cs => some cs
  | n + 1, c :: cs => if isIn c then dropExactly? isIn n cs else none
  | _ + 1, [] => none

/-- What follows a given character. -/
def dropChar? (mark : Char) : List Char → Option (List Char)
  | c :: cs => if c = mark then some cs else none
  | [] => none

/-- What follows groups of hexadecimal digits of the given sizes with a hyphen between them. -/
def dropGroups? : List Nat → List Char → Option (List Char)
  | [], cs => some cs
  | [n], cs => dropExactly? isHex n cs
  | n :: more, cs => do dropGroups? more (← dropChar? '-' (← dropExactly? isHex n cs))

/-- An identifier of 32 hexadecimal digits in five groups. -/
def matchUuid? : Recogniser := fun _ cs =>
  (dropGroups? [8, 4, 4, 4, 12] cs).map fun _ => 36

/-- The length of the longest beginning of a domain that ends in a dot and at least two letters.  `index`
characters have been passed. -/
def domainLength? : Nat → List Char → Option Nat
  | _, [] => none
  | index, c :: cs =>
    match domainLength? (index + 1) cs with
    | some n => some n
    | none =>
      let letters := (cs.takeWhile isLetter).length
      if c = '.' ∧ 0 < index ∧ 2 ≤ letters then some (index + 1 + letters) else none

/-- A mail address. -/
def matchEmail? : Recogniser := fun _ cs =>
  let front := (cs.takeWhile isLocal).length
  match cs.drop front with
  | '@' :: after =>
    if front = 0 then none
    else (domainLength? 0 (after.takeWhile isDomain)).map fun n => front + 1 + n
  | _ => none

/-- The number of digits at the beginning, if there are one to three. -/
def octetLength? (cs : List Char) : Option Nat :=
  let n := (cs.takeWhile isDigit).length
  if 1 ≤ n ∧ n ≤ 3 then some n else none

/-- The length of a number of octets with dots between them, and what follows. -/
def octets? : Nat → List Char → Option (Nat × List Char)
  | 0, cs => some (0, cs)
  | 1, cs => (octetLength? cs).map fun n => (n, cs.drop n)
  | more + 2, cs =>
    match octetLength? cs with
    | none => none
    | some n =>
      match dropChar? '.' (cs.drop n) with
      | none => none
      | some rest => (octets? (more + 1) rest).map fun (m, rest) => (n + 1 + m, rest)

/-- An address of four octets that is no part of a longer word. -/
def matchIpv4? : Recogniser := fun before cs =>
  match octets? 4 cs with
  | some (n, rest) => if isFree before && isFree rest.head? then some n else none
  | none => none

/-- What follows a number of pairs of hexadecimal digits with colons or hyphens between them. -/
def dropPairs? : Nat → List Char → Option (List Char)
  | 0, cs => some cs
  | 1, cs => dropExactly? isHex 2 cs
  | more + 2, cs =>
    match dropExactly? isHex 2 cs with
    | some (c :: rest) => if c = ':' ∨ c = '-' then dropPairs? (more + 1) rest else none
    | _ => none

/-- A hardware address that is no part of a longer word. -/
def matchMac? : Recogniser := fun before cs =>
  match dropPairs? 6 cs with
  | some rest => if isFree before && isFree rest.head? then some 17 else none
  | none => none

/-! ## Replacing -/

/-- A text in which all that is recognised has been replaced, from left to right.  `before` is the
character in front, and `skip` characters belong to what has just been replaced. -/
def replaceFrom (r : Recogniser) (token : List Char) :
    Option Char → Nat → List Char → List Char
  | _, _, [] => []
  | _, skip + 1, c :: cs => replaceFrom r token (some c) skip cs
  | before, 0, c :: cs =>
    match r before (c :: cs) with
    | some (n + 1) => token ++ replaceFrom r token (some c) n cs
    | _ => c :: replaceFrom r token (some c) 0 cs

/-- A text in which all that is recognised has been replaced. -/
def replaceAll (r : Recogniser) (token : String) (cs : List Char) : List Char :=
  replaceFrom r token.toList none 0 cs

/-! ## Numbers -/

/-- Digits, at least one. -/
def isDigits (cs : List Char) : Bool :=
  !cs.isEmpty && cs.all isDigit

/-- A number: a sign or none, digits, and a point with further digits or none. -/
def isNumber (cs : List Char) : Bool :=
  let body := match cs with
    | '+' :: rest => rest
    | '-' :: rest => rest
    | rest => rest
  let whole := body.takeWhile isDigit
  match body.drop whole.length with
  | [] => isDigits whole
  | '.' :: rest => isDigits rest
  | _ => false

/-- A bracket that may stand in front of a number. -/
def opensToken (c : Char) : Bool :=
  c == '(' || c == '['

/-- Punctuation that may stand behind a number. -/
def closesToken (c : Char) : Bool :=
  c == ',' || c == ';' || c == ':' || c == ')' || c == ']'

/-- A token in three parts: brackets in front, the core, punctuation behind. -/
def tokenParts (token : List Char) : List Char × List Char × List Char :=
  let front := token.takeWhile opensToken
  let rest := token.dropWhile opensToken
  let core := (rest.reverse.dropWhile closesToken).reverse
  (front, core, rest.drop core.length)

/-- The token that stands for a number. -/
def numberToken : String :=
  "#NUM#"

/-- A token whose core has been replaced if it is a number. -/
def replaceNumber (token : List Char) : List Char :=
  let (front, core, back) := tokenParts token
  if isNumber core then front ++ numberToken.toList ++ back else token

/-- A text in which numbers have been replaced; `token` is the token that is being read, in reverse. -/
def replaceNumbersFrom (token : List Char) : List Char → List Char
  | [] => replaceNumber token.reverse
  | c :: cs =>
    if isBlank c then replaceNumber token.reverse ++ c :: replaceNumbersFrom [] cs
    else replaceNumbersFrom (c :: token) cs

/-- A text in which numbers have been replaced. -/
def replaceNumbers (cs : List Char) : List Char :=
  replaceNumbersFrom [] cs

/-! ## Patterns -/

/-- The pattern of a text. -/
def normalizeChars (cs : List Char) : List Char :=
  let cs := replaceAll matchUuid? "#UUID#" cs
  let cs := replaceAll matchEmail? "#EMAIL#" cs
  let cs := replaceAll matchIpv4? "#IP#" cs
  let cs := replaceAll matchMac? "#MAC#" cs
  replaceNumbers cs

/-- The pattern of a message. -/
def normalize (s : String) : String :=
  String.ofList (normalizeChars s.toList)

end LogWatch.Report.Pattern
