import LogWatch.Text.Basic

/-!
# Wildcard patterns

A pattern in which an asterisk stands for any text and a question mark for any one character.  A
backslash takes the special meaning from an asterisk, a question mark or another backslash after
it; elsewhere it stands for itself.

* `Glob.ofText` — the parts of a pattern;
* `Glob.unescaped` — the text that a pattern without wildcards stands for;
* `Glob.isFound` — does a text match, at either end or anywhere?
-/

namespace LogWatch.Rule

/-- A part of a pattern. -/
inductive Glob.Part where
  | char (c : Char)
  | anyOne
  | anyText
deriving DecidableEq, Repr

/-- A wildcard pattern. -/
abbrev Glob := List Glob.Part

/-- Which ends of a text a pattern has to reach. -/
inductive Glob.Anchor where
  | both
  | neither
  | start
  | finish
deriving DecidableEq, Repr

namespace Glob

/-- The characters from which a backslash takes the meaning. -/
def isEscapable (c : Char) : Bool :=
  c == '*' || c == '?' || c == '\\'

/-- The part of a character that no backslash precedes. -/
def partOf (c : Char) : Part :=
  if c = '*' then .anyText else if c = '?' then .anyOne else .char c

/-- The parts of a pattern. -/
def ofChars : List Char → Glob
  | [] => []
  | [c] => [partOf c]
  | c :: d :: rest =>
    if c = '\\' ∧ isEscapable d then .char d :: ofChars rest
    else partOf c :: ofChars (d :: rest)

/-- The parts of the pattern that a string spells. -/
def ofText (s : String) : Glob :=
  ofChars s.toList

/-- A pattern without the backslashes that take a meaning. -/
def unescaped : List Char → List Char
  | [] => []
  | [c] => [c]
  | c :: d :: rest =>
    if c = '\\' ∧ isEscapable d then d :: unescaped rest
    else c :: unescaped (d :: rest)

/-- Does the pattern have a wildcard? -/
def hasWildcard (g : Glob) : Bool :=
  g.any fun
    | .char _ => false
    | _ => true

/-! ## Matching -/

/-- For each place of a list of answers, whether there or later one is positive. -/
def orLater : List Bool → List Bool
  | [] => []
  | b :: rest =>
    let later := orLater rest
    (b || later.headD false) :: later

/-- For each place of a text, from the beginning to the end: does the pattern match from there, so
that it stops at the end of the text or, unless `toEnd`, anywhere? -/
def matchesFrom (toEnd : Bool) (text : List Char) : Glob → List Bool
  | [] => text.map (fun _ => !toEnd) ++ [true]
  | .anyText :: rest => orLater (matchesFrom toEnd text rest)
  | .anyOne :: rest => (matchesFrom toEnd text rest).drop 1 ++ [false]
  | .char c :: rest =>
    List.zipWith (fun d after => d == c && after) text ((matchesFrom toEnd text rest).drop 1) ++
      [false]

/-- Does a text match a pattern that has to reach the given ends of it? -/
def isFound (g : Glob) (anchor : Anchor) (text : List Char) : Bool :=
  match anchor with
  | .both => (matchesFrom true text g).headD false
  | .start => (matchesFrom false text g).headD false
  | .finish => (matchesFrom true text g).any id
  | .neither => (matchesFrom false text g).any id

end Glob

end LogWatch.Rule
