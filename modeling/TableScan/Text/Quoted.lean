/-
  TableScan.Text.Quoted — text as messages quote it: in double quotes, on one line, with
  nothing invisible left in it. A quote and a backslash are escaped by a backslash; tab,
  line feed, carriage return and NUL have a letter; every other character of `escapedRanges`
  is written as its code point in hexadecimal. All others stand for themselves.
-/

import TableScan.Text.Lowercase
import TableScan.Text.EscapedTable

namespace TableScan.Text

def quotedChar (c : Char) : List Char :=
  if c = '"' then ['\\', '"']
  else if c = '\\' then ['\\', '\\']
  else if c = '\t' then ['\\', 't']
  else if c = '\n' then ['\\', 'n']
  else if c = '\r' then ['\\', 'r']
  else if c = '\x00' then ['\\', '0']
  else if inRanges escapedRanges c then
    ['\\', 'u', '\x7b'] ++ Nat.toDigits 16 c.toNat ++ ['\x7d']
  else [c]

def quoted (s : String) : String :=
  String.ofList ('"' :: s.toList.flatMap quotedChar ++ ['"'])

end TableScan.Text
