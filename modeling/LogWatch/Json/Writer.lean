import LogWatch.Number.Decimal
import LogWatch.Json.Basic

/-!
# JSON texts written

`Json.toText` writes a value without blanks, members in their order.  A double is written in its
shortest form; one that is infinite or undefined has no form and becomes `null`.
-/

namespace LogWatch.Json

/-- A character as it stands in a string literal. -/
def escapeChar (c : Char) : List Char :=
  if c = '"' then ['\\', '"']
  else if c = '\\' then ['\\', '\\']
  else if c.toNat < 0x20 then
    let code := Nat.toDigits 16 c.toNat
    ['\\', 'u'] ++ List.replicate (4 - code.length) '0' ++ code
  else [c]

/-- A string literal. -/
def literal (s : String) : String :=
  String.ofList ('"' :: s.toList.flatMap escapeChar ++ ['"'])

mutual

/-- The text of a value. -/
def toText : Json → String
  | .null => "null"
  | .bool b => if b then "true" else "false"
  | .int n => toString n
  | .float f =>
    match Number.magnitude f with
    | .finite b => Number.scientific b
    | _ => "null"
  | .str s => literal s
  | .arr items => "[" ++ itemsText items ++ "]"
  | .obj members => "\x7b" ++ membersText members ++ "\x7d"
  | .unreadable => "null"

/-- Items with commas between them. -/
def itemsText : List Json → String
  | [] => ""
  | [j] => toText j
  | j :: rest => toText j ++ "," ++ itemsText rest

/-- Members with commas between them. -/
def membersText : List (String × Json) → String
  | [] => ""
  | [(name, j)] => literal name ++ ":" ++ toText j
  | (name, j) :: rest => literal name ++ ":" ++ toText j ++ "," ++ membersText rest

end

end LogWatch.Json
