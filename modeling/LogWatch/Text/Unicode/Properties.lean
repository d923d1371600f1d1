import LogWatch.Text.Unicode.AlphabeticRuns
import LogWatch.Text.Unicode.CategoryRuns

/-!
# Properties of characters

The general category of a character, looked up in the table of runs, and the properties derived
from it: characters of words, decimal digits, what can be shown as it is.  All of them are those of
version 14 of Unicode; a character that a later version assigns counts as unassigned.
-/

namespace LogWatch.Text.Unicode

/-- Index of the last run that does not start after a code point, between `low` and `high`. -/
def findRun (runs : Array Nat) (code : Nat) (low high : Nat) : Nat :=
  if h : low + 1 < high then
    let middle := (low + high) / 2
    if runs.getD middle 0 / 32 ≤ code then findRun runs code middle high
    else findRun runs code low middle
  else low
termination_by high - low

/-- The general category of a code point. -/
def categoryAt (code : Nat) : Category :=
  let runs := categoryRuns
  let run := runs.getD (findRun runs code 0 runs.size) 0
  Category.all.getD (run % 32) .cn

/-- The general category of a character. -/
def category (c : Char) : Category :=
  categoryAt c.toNat

/-- Letters of any kind. -/
def Category.isLetter (g : Category) : Bool :=
  g matches .lu | .ll | .lt | .lm | .lo

/-- Marks of any kind. -/
def Category.isMark (g : Category) : Bool :=
  g matches .mn | .mc | .me

/-- Enclosed letters, which are symbols by category and alphabetic all the same. -/
def isEnclosedLetter (n : Nat) : Bool :=
  (0x24B6 ≤ n && n ≤ 0x24E9) || (0x1F130 ≤ n && n ≤ 0x1F149) || (0x1F150 ≤ n && n ≤ 0x1F169) ||
    (0x1F170 ≤ n && n ≤ 0x1F189)

/-- Characters of words: letters, marks, decimal digits, letter numbers, connectors such as the
underscore, and the two joiners. -/
def isWord (c : Char) : Bool :=
  let n := c.toNat
  if n < 128 then
    (48 ≤ n && n ≤ 57) || (65 ≤ n && n ≤ 90) || n == 95 || (97 ≤ n && n ≤ 122)
  else
    let g := category c
    g.isLetter || g.isMark || g matches .nd | .nl | .pc || n == 0x200C || n == 0x200D ||
      isEnclosedLetter n

/-- Is a code point in one of some runs? -/
def isInRuns (runs : List (Nat × Nat)) (n : Nat) : Bool :=
  runs.any fun run => run.1 ≤ n && n ≤ run.2

/-- Letters, numbers of any kind, and what else is alphabetic. -/
def isAlphanumeric (c : Char) : Bool :=
  let n := c.toNat
  if n < 128 then (48 ≤ n && n ≤ 57) || (65 ≤ n && n ≤ 90) || (97 ≤ n && n ≤ 122)
  else
    let g := category c
    g.isLetter || g matches .nd | .nl | .no || isInRuns alphabeticRuns n

/-- Decimal digits of any script. -/
def isDecimalDigit (c : Char) : Bool :=
  let n := c.toNat
  if n < 128 then 48 ≤ n && n ≤ 57 else category c == .nd

/-- Code points with case that are neither capital, small nor title letters by category: ordinals,
modifiers, Roman numerals and enclosed letters. -/
def otherCasedRuns : List (Nat × Nat) :=
  [(0xAA, 0xAA), (0xBA, 0xBA), (0x2B0, 0x2B8), (0x2C0, 0x2C1), (0x2E0, 0x2E4), (0x345, 0x345),
    (0x37A, 0x37A), (0x10FC, 0x10FC), (0x1D2C, 0x1D6A), (0x1D78, 0x1D78), (0x1D9B, 0x1DBF),
    (0x2071, 0x2071), (0x207F, 0x207F), (0x2090, 0x209C), (0x2160, 0x217F), (0x24B6, 0x24E9),
    (0x2C7C, 0x2C7D), (0xA69C, 0xA69D), (0xA770, 0xA770), (0xA7F2, 0xA7F4), (0xA7F8, 0xA7F9),
    (0xAB5C, 0xAB5F), (0xAB69, 0xAB69), (0x10780, 0x10780), (0x10783, 0x10785),
    (0x10787, 0x107B0), (0x107B2, 0x107BA), (0x1F130, 0x1F149), (0x1F150, 0x1F169),
    (0x1F170, 0x1F189)]

/-- Letters with case. -/
def isCased (c : Char) : Bool :=
  category c matches .lu | .ll | .lt || isInRuns otherCasedRuns c.toNat

/-- Punctuation in the middle of words, in all its widths. -/
def innerPunctuation : List Nat :=
  [0x27, 0x2E, 0x3A, 0xB7, 0x387, 0x55F, 0x5F4, 0x2018, 0x2019, 0x2024, 0x2027, 0xFE13, 0xFE52,
    0xFE55, 0xFF07, 0xFF0E, 0xFF1A]

/-- Characters that casing looks past: marks, format characters, modifiers and the punctuation in the
middle of words. -/
def isCaseIgnorable (c : Char) : Bool :=
  category c matches .mn | .me | .cf | .lm | .sk || innerPunctuation.contains c.toNat

/-- Spacing marks and others that extend the character before them. -/
def isOtherExtend (n : Nat) : Bool :=
  [0x9BE, 0x9D7, 0xB3E, 0xB57, 0xBBE, 0xBD7, 0xCC2, 0xCD5, 0xCD6, 0xD3E, 0xD57, 0xDCF, 0xDDF,
    0x1B35, 0x200C, 0x302E, 0x302F, 0xFF9E, 0xFF9F, 0x1133E, 0x11357, 0x114B0, 0x114BD, 0x115AF,
    0x11930, 0x1D165].contains n ||
    (0x1D16E ≤ n && n ≤ 0x1D172) || (0xE0020 ≤ n && n ≤ 0xE007F)

/-- Characters that extend the one before them. -/
def isExtend (c : Char) : Bool :=
  category c matches .mn | .me || isOtherExtend c.toNat

/-- Characters that show: no controls, no unassigned code points, no blanks but the space. -/
def isPrintable (c : Char) : Bool :=
  if c = ' ' then true
  else !(category c matches .cc | .cf | .cs | .co | .cn | .zl | .zp | .zs)

end LogWatch.Text.Unicode
