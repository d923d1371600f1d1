import LogWatch.Text.Basic
import LogWatch.Text.Unicode.Case

/-!
# Sets of characters

The sets that classes in regular expressions denote, kept as expressions over ranges and Unicode
properties; `CharSet.has` decides membership.
-/

namespace LogWatch

/-- A set of characters. -/
inductive CharSet where
  /-- Code points from the first to the second, both included. -/
  | range (first last : Nat)
  /-- Characters of words. -/
  | word
  /-- Decimal digits of any script. -/
  | digit
  /-- White space. -/
  | blank
  /-- Characters of the given general categories. -/
  | categories (list : List Text.Unicode.Category)
  | complement (s : CharSet)
  | union (s t : CharSet)
  | inter (s t : CharSet)
  | diff (s t : CharSet)
  | symmDiff (s t : CharSet)
  /-- All characters that differ from a member in case only. -/
  | folded (s : CharSet)
  | nothing

namespace CharSet

/-- Is the code point a member?  Code points that are no characters are never asked for. -/
def hasCode : CharSet → Nat → Bool
  | .range first last, n => first ≤ n && n ≤ last
  | .word, n => Text.Unicode.isWord (Char.ofNat n)
  | .digit, n => Text.Unicode.isDecimalDigit (Char.ofNat n)
  | .blank, n => Text.isBlank (Char.ofNat n)
  | .categories list, n => list.contains (Text.Unicode.categoryAt n)
  | .complement s, n => !s.hasCode n
  | .union s t, n => s.hasCode n || t.hasCode n
  | .inter s t, n => s.hasCode n && t.hasCode n
  | .diff s t, n => s.hasCode n && !t.hasCode n
  | .symmDiff s t, n => s.hasCode n != t.hasCode n
  | .folded s, n => s.hasCode n || (Text.Unicode.caseVariants n).any s.hasCode
  | .nothing, _ => false

/-- Is the character a member? -/
def has (s : CharSet) (c : Char) : Bool :=
  s.hasCode c.toNat

/-- The set of one character. -/
def single (c : Char) : CharSet :=
  .range c.toNat c.toNat

/-- The union of a list of sets. -/
def unionAll : List CharSet → CharSet
  | [] => .nothing
  | [s] => s
  | s :: rest => .union s (unionAll rest)

/-- Every character. -/
def all : CharSet :=
  .range 0 0x10FFFF

/-- Every character but the given ones. -/
def allBut (cs : List Char) : CharSet :=
  .complement (unionAll (cs.map single))

/-- ASCII characters of words. -/
def asciiWord : CharSet :=
  unionAll [.range 48 57, .range 65 90, .range 95 95, .range 97 122]

/-- ASCII digits. -/
def asciiDigit : CharSet :=
  .range 48 57

/-- ASCII white space. -/
def asciiBlank : CharSet :=
  unionAll [.range 9 13, .range 32 32]

/-- The ASCII classes that a name in brackets and colons denotes. -/
def named? (name : String) : Option CharSet :=
  match name with
  | "alnum" => some (unionAll [.range 48 57, .range 65 90, .range 97 122])
  | "alpha" => some (unionAll [.range 65 90, .range 97 122])
  | "ascii" => some (.range 0 127)
  | "blank" => some (unionAll [.range 9 9, .range 32 32])
  | "cntrl" => some (unionAll [.range 0 31, .range 127 127])
  | "digit" => some asciiDigit
  | "graph" => some (.range 33 126)
  | "lower" => some (.range 97 122)
  | "print" => some (.range 32 126)
  | "punct" => some (unionAll [.range 33 47, .range 58 64, .range 91 96, .range 123 126])
  | "space" => some asciiBlank
  | "upper" => some (.range 65 90)
  | "word" => some asciiWord
  | "xdigit" => some (unionAll [.range 48 57, .range 65 70, .range 97 102])
  | _ => none

/-- The categories that the name of a property of characters stands for. -/
def property? (name : String) : Option CharSet :=
  let key := String.ofList
    ((name.toList.map Text.asciiLower).filter fun c => c != ' ' && c != '_' && c != '-')
  match key with
  | "any" => some all
  | "ascii" => some (.range 0 127)
  | "assigned" => some (.complement (.categories [.cn]))
  | "l" | "letter" => some (.categories [.lu, .ll, .lt, .lm, .lo])
  | "lc" | "casedletter" => some (.categories [.lu, .ll, .lt])
  | "lu" | "uppercaseletter" => some (.categories [.lu])
  | "ll" | "lowercaseletter" => some (.categories [.ll])
  | "lt" | "titlecaseletter" => some (.categories [.lt])
  | "lm" | "modifierletter" => some (.categories [.lm])
  | "lo" | "otherletter" => some (.categories [.lo])
  | "m" | "mark" | "combiningmark" => some (.categories [.mn, .mc, .me])
  | "mn" | "nonspacingmark" => some (.categories [.mn])
  | "mc" | "spacingmark" => some (.categories [.mc])
  | "me" | "enclosingmark" => some (.categories [.me])
  | "n" | "number" => some (.categories [.nd, .nl, .no])
  | "nd" | "decimalnumber" | "digit" => some (.categories [.nd])
  | "nl" | "letternumber" => some (.categories [.nl])
  | "no" | "othernumber" => some (.categories [.no])
  | "p" | "punctuation" | "punct" => some (.categories [.pc, .pd, .ps, .pe, .pi, .pf, .po])
  | "pc" | "connectorpunctuation" => some (.categories [.pc])
  | "pd" | "dashpunctuation" => some (.categories [.pd])
  | "ps" | "openpunctuation" => some (.categories [.ps])
  | "pe" | "closepunctuation" => some (.categories [.pe])
  | "pi" | "initialpunctuation" => some (.categories [.pi])
  | "pf" | "finalpunctuation" => some (.categories [.pf])
  | "po" | "otherpunctuation" => some (.categories [.po])
  | "s" | "symbol" => some (.categories [.sm, .sc, .sk, .so])
  | "sm" | "mathsymbol" => some (.categories [.sm])
  | "sc" | "currencysymbol" => some (.categories [.sc])
  | "sk" | "modifiersymbol" => some (.categories [.sk])
  | "so" | "othersymbol" => some (.categories [.so])
  | "z" | "separator" => some (.categories [.zs, .zl, .zp])
  | "zs" | "spaceseparator" => some (.categories [.zs])
  | "zl" | "lineseparator" => some (.categories [.zl])
  | "zp" | "paragraphseparator" => some (.categories [.zp])
  | "c" | "other" => some (.categories [.cc, .cf, .cs, .co, .cn])
  | "cc" | "control" | "cntrl" => some (.categories [.cc])
  | "cf" | "format" => some (.categories [.cf])
  | "co" | "privateuse" => some (.categories [.co])
  | "cn" | "unassigned" => some (.categories [.cn])
  | "alphabetic" | "alpha" =>
    some (.diff .word (unionAll [.categories [.nd, .pc], .range 0x200C 0x200D]))
  | "lowercase" | "lower" => some (.categories [.ll])
  | "uppercase" | "upper" => some (.categories [.lu])
  | "whitespace" | "space" | "wspace" => some .blank
  | _ => none

end CharSet

end LogWatch
