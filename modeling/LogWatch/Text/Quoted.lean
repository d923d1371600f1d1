import LogWatch.Text.Basic
import LogWatch.Text.Unicode.Properties

/-!
# Quoted text

Text in double quotes as messages show it: quotes and backslashes are escaped, tabs and line ends
are written by letter, and characters that do not show on their own by number.
-/

namespace LogWatch.Text

/-- A character as it stands between quotes. -/
def quoteChar (c : Char) : List Char :=
  if c = '"' then ['\\', '"']
  else if c = '\\' then ['\\', '\\']
  else if c = '\n' then ['\\', 'n']
  else if c = '\r' then ['\\', 'r']
  else if c = '\t' then ['\\', 't']
  else if c.toNat = 0 then ['\\', '0']
  else if Unicode.isExtend c || !Unicode.isPrintable c then
    "\\u\x7b".toList ++ (hexadecimal c.toNat).toList ++ ['\x7d']
  else [c]

/-- A text in double quotes. -/
def quoted (s : String) : String :=
  String.ofList ('"' :: s.toList.flatMap quoteChar ++ ['"'])

end LogWatch.Text
