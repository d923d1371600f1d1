/-!
# Text as lists of characters

The rules of this library read text character by character, so the working form of a text is a
`List Char`; `String` is the stored form.  This file holds the operations both need:

* `Text.isBlank` — the white space of Unicode, and `trim`, `words`, `lines` built on it;
* `Text.splitOn` — cutting at a separator, with `joinWith` as its inverse, of characters as of bytes;
* ASCII case: `asciiLower`, and equality that ignores it.
-/

namespace LogWatch.Text

/-! ## Blanks -/

/-- The characters with the Unicode property White_Space. -/
def isBlank (c : Char) : Bool :=
  let n := c.toNat
  (9 ≤ n && n ≤ 13) || n == 0x20 || n == 0x85 || n == 0xA0 || n == 0x1680 ||
    (0x2000 ≤ n && n ≤ 0x200A) || n == 0x2028 || n == 0x2029 || n == 0x202F ||
    n == 0x205F || n == 0x3000

/-- Text without its leading blanks. -/
def trimStart (cs : List Char) : List Char :=
  cs.dropWhile isBlank

/-- Text without its trailing blanks. -/
def trimEnd : List Char → List Char
  | [] => []
  | c :: cs =>
    match trimEnd cs with
    | [] => if isBlank c then [] else [c]
    | rest => c :: rest

/-- Text without the blanks at either end. -/
def trim (cs : List Char) : List Char :=
  trimEnd (trimStart cs)

/-! ## Cutting -/

section Cutting

variable {α : Type}

/-- Pieces between the occurrences of `sep`; a text without `sep` is one piece. -/
def splitOn [DecidableEq α] (sep : α) : List α → List (List α)
  | [] => [[]]
  | c :: cs =>
    if c = sep then [] :: splitOn sep cs
    else
      match splitOn sep cs with
      | [] => [[c]]
      | piece :: more => (c :: piece) :: more

/-- Pieces put back together with `sep` between them. -/
def joinWith (sep : List α) : List (List α) → List α
  | [] => []
  | [piece] => piece
  | piece :: more => piece ++ sep ++ joinWith sep more

/-- A text is cut in at least one piece. -/
theorem splitOn_ne_nil [DecidableEq α] (sep : α) (cs : List α) : splitOn sep cs ≠ [] := by
  cases cs with
  | nil => simp [splitOn]
  | cons c cs =>
    by_cases h : c = sep
    · simp [splitOn, h]
    · simp only [splitOn, h, if_false]
      split <;> simp

end Cutting

/-- The maximal runs of characters that are no blanks. -/
def words (cs : List Char) : List (List Char) :=
  (go cs []).filter (· ≠ [])
where
  /-- Runs of `cs`, the first of which is preceded by `run`, held in reverse. -/
  go : List Char → List Char → List (List Char)
    | [], run => [run.reverse]
    | c :: cs, run => if isBlank c then run.reverse :: go cs [] else go cs (c :: run)

/-- The line without the carriage return that ends it, if one does. -/
def dropReturn (line : List Char) : List Char :=
  if line.getLast? = some '\r' then line.dropLast else line

/-- Lines of a text: a line feed ends a line, a carriage return before it belongs to the end, and
nothing after the last line feed is no line. -/
def lines (cs : List Char) : List (List Char) :=
  let pieces := splitOn '\n' cs
  let closed := pieces.dropLast.map dropReturn
  match pieces.getLast? with
  | some [] => closed
  | some last => closed ++ [last]
  | none => closed

/-! ## Looking at the beginning and the end -/

/-- What follows `start` in a text that begins with it. -/
def dropStart? : List Char → List Char → Option (List Char)
  | [], cs => some cs
  | _ :: _, [] => none
  | p :: ps, c :: cs => if p = c then dropStart? ps cs else none

/-- Does the text begin with `start`? -/
def startsWith (start cs : List Char) : Bool :=
  (dropStart? start cs).isSome

/-- Does the text contain `part`? -/
def contains (part : List Char) : List Char → Bool
  | [] => startsWith part []
  | c :: cs => startsWith part (c :: cs) || contains part cs

/-! ## ASCII case -/

/-- Lower case of the letters A to Z; other characters stay. -/
def asciiLower (c : Char) : Char :=
  if 'A' ≤ c ∧ c ≤ 'Z' then Char.ofNat (c.toNat + 32) else c

/-- A string with its ASCII letters in lower case. -/
def asciiLowered (s : String) : String :=
  String.ofList (s.toList.map asciiLower)

/-- Equality up to the case of ASCII letters. -/
def sameIgnoringCase (a b : List Char) : Bool :=
  a.map asciiLower == b.map asciiLower

/-- A digit 0 to 9. -/
def isDigit (c : Char) : Bool :=
  '0' ≤ c && c ≤ '9'

/-- An ASCII letter. -/
def isLetter (c : Char) : Bool :=
  ('a' ≤ c && c ≤ 'z') || ('A' ≤ c && c ≤ 'Z')

/-- The value of a digit 0 to 9. -/
def digitValue (c : Char) : Nat :=
  c.toNat - '0'.toNat

/-- The value of a hexadecimal digit of either case. -/
def hexValue? (c : Char) : Option Nat :=
  if isDigit c then some (digitValue c)
  else if 'a' ≤ c ∧ c ≤ 'f' then some (c.toNat - 'a'.toNat + 10)
  else if 'A' ≤ c ∧ c ≤ 'F' then some (c.toNat - 'A'.toNat + 10)
  else none

/-- The number that a list of decimal digits writes. -/
def decimalValue (digits : List Char) : Nat :=
  digits.foldl (fun n c => n * 10 + digitValue c) 0

/-- The decimal digits of a number. -/
def decimal (n : Nat) : String :=
  Nat.repr n

/-- The decimal digits of a number, with zeros in front up to the given width. -/
def padded (width n : Nat) : String :=
  let digits := (decimal n).toList
  String.ofList (List.replicate (width - digits.length) '0' ++ digits)

/-- The digits of a number in base sixteen, in lower case. -/
def hexadecimal (n : Nat) : String :=
  String.ofList (Nat.toDigits 16 n)

end LogWatch.Text
