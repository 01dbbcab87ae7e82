/-
  TableScan.Json.Printer — JSON values as text: compact, or laid out one member a line. A text
  escapes the quote, the backslash and the controls below U+0020, and nothing else.
-/

import TableScan.Json.Value
import TableScan.Number.Shortest

namespace TableScan.Json

open TableScan.Text TableScan.Number

def escapedChar (c : Char) : List Char :=
  if c = '"' then ['\\', '"']
  else if c = '\\' then ['\\', '\\']
  else if c = '\x08' then ['\\', 'b']
  else if c = '\x0c' then ['\\', 'f']
  else if c = '\n' then ['\\', 'n']
  else if c = '\r' then ['\\', 'r']
  else if c = '\t' then ['\\', 't']
  else if c.toNat < 0x20 then
    ['\\', 'u', '0', '0', Nat.digitChar (c.toNat / 16), Nat.digitChar (c.toNat % 16)]
  else [c]

def textChars (s : String) : List Char := '"' :: s.toList.flatMap escapedChar ++ ['"']

def intChars : Int → List Char
  | .ofNat n => numeral n
  | .negSucc n => '-' :: numeral (n + 1)

mutual

def Value.chars : Value → List Char
  | .null => ['n', 'u', 'l', 'l']
  | .bool true => ['t', 'r', 'u', 'e']
  | .bool false => ['f', 'a', 'l', 's', 'e']
  | .int n => intChars n
  | .float x => x.render
  | .text s => textChars s
  | .array items => '[' :: Value.itemsChars items ++ [']']
  | .object members => '\x7b' :: Value.membersChars members ++ ['\x7d']

def Value.itemsChars : List Value → List Char
  | [] => []
  | [v] => v.chars
  | v :: rest => v.chars ++ ',' :: Value.itemsChars rest

def Value.membersChars : List (String × Value) → List Char
  | [] => []
  | [(k, v)] => textChars k ++ ':' :: v.chars
  | (k, v) :: rest => textChars k ++ ':' :: v.chars ++ ',' :: Value.membersChars rest

end

/-- The compact text of a value. -/
def Value.render (v : Value) : String := String.ofList v.chars

/-- A line break and the indentation of two spaces a level. -/
def newline (depth : Nat) : List Char := '\n' :: List.replicate (2 * depth) ' '

mutual

def Value.prettyChars (depth : Nat) : Value → List Char
  | .array (v :: rest) =>
    '[' :: Value.prettyItems (depth + 1) (v :: rest) ++ newline depth ++ [']']
  | .object (m :: rest) =>
    '\x7b' :: Value.prettyMembers (depth + 1) (m :: rest) ++ newline depth ++ ['\x7d']
  | v => v.chars

def Value.prettyItems (depth : Nat) : List Value → List Char
  | [] => []
  | [v] => newline depth ++ v.prettyChars depth
  | v :: rest => newline depth ++ v.prettyChars depth ++ ',' :: Value.prettyItems depth rest

def Value.prettyMembers (depth : Nat) : List (String × Value) → List Char
  | [] => []
  | [(k, v)] => newline depth ++ textChars k ++ ':' :: ' ' :: v.prettyChars depth
  | (k, v) :: rest =>
    newline depth ++ textChars k ++ ':' :: ' ' :: v.prettyChars depth
      ++ ',' :: Value.prettyMembers depth rest

end

/-- The text of a value with every item and member on a line of its own. -/
def Value.renderPretty (v : Value) : String := String.ofList (v.prettyChars 0)

end TableScan.Json
