/-
  TableScan.ColumnType.Token — the tokens of a type expression: the symbols `<>(),:;`, runs
  of digits whose value fits 32 bits, and words over ASCII letters, digits and
  underscore, point, dollar and backtick that do not start with a digit. ASCII white space
  between tokens is skipped. Each token comes with the byte offset at which it starts.
-/

import TableScan.Text.Numeral

namespace TableScan.ColumnType

open TableScan.Text

inductive Symbol
  | openAngle | closeAngle | openParen | closeParen | comma | colon | semicolon
  deriving DecidableEq, Repr

inductive Token
  | word (name : List Char)
  | number (n : UInt32)
  | symbol (s : Symbol)
  deriving DecidableEq, Repr

def Symbol.char : Symbol → Char
  | .openAngle => '<'
  | .closeAngle => '>'
  | .openParen => '('
  | .closeParen => ')'
  | .comma => ','
  | .colon => ':'
  | .semicolon => ';'

def Symbol.ofChar? : Char → Option Symbol
  | '<' => some .openAngle
  | '>' => some .closeAngle
  | '(' => some .openParen
  | ')' => some .closeParen
  | ',' => some .comma
  | ':' => some .colon
  | ';' => some .semicolon
  | _ => none

/-- The token as a type is written with it: a number without leading zeros. -/
def Token.chars : Token → List Char
  | .word name => name
  | .number n => numeral n.toNat
  | .symbol s => [s.char]

/-- Space, tab, line feed, form feed and carriage return. -/
def isSpace (c : Char) : Bool :=
  c == ' ' || c == '\t' || c == '\n' || c == '\x0c' || c == '\r'

def isWordChar (c : Char) : Bool :=
  c.isAlphanum || c == '_' || c == '.' || c == '$' || c == '\x60'

/-- What stands at `offset` is no token. -/
structure Stray where
  offset : Nat
  found : List Char
  deriving DecidableEq, Repr

/-- A character outside the alphabet is reported by the first byte of its UTF-8 form. -/
def firstByte (c : Char) : Char :=
  match String.utf8EncodeChar c with
  | b :: _ => Char.ofNat b.toNat
  | [] => c

/-- The tokens of `cs`, which starts at `offset`. -/
def scan (offset : Nat) : List Char → Except Stray (List (Nat × Token))
  | [] => .ok []
  | c :: rest =>
    if isSpace c then scan (offset + 1) rest
    else match Symbol.ofChar? c with
      | some s => do return (offset, .symbol s) :: (← scan (offset + 1) rest)
      | none =>
        if c.isDigit then
          let run := c :: rest.takeWhile Char.isDigit
          if numeralValue run < UInt32.size then do
            let more ← scan (offset + run.length) (rest.dropWhile Char.isDigit)
            return (offset, .number (UInt32.ofNat (numeralValue run))) :: more
          else .error ⟨offset, run⟩
        else if isWordChar c then do
          let run := c :: rest.takeWhile isWordChar
          let more ← scan (offset + run.length) (rest.dropWhile isWordChar)
          return (offset, .word run) :: more
        else .error ⟨offset, [firstByte c]⟩
termination_by cs => cs.length
decreasing_by
  · simp
  · simp
  · exact Nat.lt_succ_of_le (List.dropWhile_sublist _).length_le
  · exact Nat.lt_succ_of_le (List.dropWhile_sublist _).length_le

end TableScan.ColumnType
