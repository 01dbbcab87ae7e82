/-
  TableScan.ColumnType.Reader — type expressions, and lists of them, read token by token.

  The reader is a machine with a stack of the types around the one being read (`Around`).
  It judges every token as it comes, so an expression that is cut short fails only by its
  end, never by what it says before. Names of types are read in any case. A decimal is
  judged at its closing parenthesis.

  `double` may be followed by the word `precision`, and `decimal` by its parameters; until
  the next token shows which, the reader stands after a type that may still grow.
-/

import TableScan.ColumnType.Basic
import TableScan.ColumnType.Token
import TableScan.Text.Quoted

namespace TableScan.ColumnType

open TableScan.Text

def defaultPrecision : UInt8 := 10

def maxPrecision : Nat := 38

inductive DecimalFault
  | precisionOutOfRange
  | scaleAbovePrecision
  deriving DecidableEq, Repr

def DecimalFault.message : DecimalFault → String
  | .precisionOutOfRange => "precision must be between 1 and " ++ Text.decimal maxPrecision
  | .scaleAbovePrecision => "scale must be <= precision"

/-- Why a text is no type, or no list of types. -/
inductive Fault
  | endsEarly
  | unexpected (offset : Nat) (found : String)
  | unknown (name : String)
  | unsupported (name : String)
  | badDecimal (precision scale : UInt32) (fault : DecimalFault)
  deriving DecidableEq, Repr

/-- A fault together with the text in which it was found. -/
structure ReadError where
  input : String
  fault : Fault
  deriving DecidableEq, Repr

def ReadError.message (e : ReadError) : String :=
  match e.fault with
  | .endsEarly => "Unexpected end of type string " ++ quoted e.input
  | .unexpected offset found =>
    "Unexpected " ++ quoted found ++ " at offset " ++ Text.decimal offset ++ " in type string "
      ++ quoted e.input
  | .unknown name => "Unknown Hive type " ++ name
  | .unsupported name => "Hive type " ++ name ++ " is not supported"
  | .badDecimal p s fault =>
    "Invalid decimal(" ++ Text.decimal p.toNat ++ "," ++ Text.decimal s.toNat ++ "): "
      ++ fault.message

/-- What the name at the head of a type expression announces. -/
inductive Head
  | plain (t : ColumnType)
  | double
  | decimal
  | sized (make : UInt32 → ColumnType)
  | array
  | map
  | struct
  | unsupported

def Head.ofName? (name : List Char) : Option Head :=
  match String.ofList (name.map Char.toLower) with
  | "void" => some (.plain .void)
  | "boolean" => some (.plain .boolean)
  | "tinyint" => some (.plain .tinyint)
  | "smallint" => some (.plain .smallint)
  | "int" | "integer" => some (.plain .int)
  | "bigint" => some (.plain .bigint)
  | "float" => some (.plain .float)
  | "double" => some .double
  | "string" => some (.plain .string)
  | "binary" => some (.plain .binary)
  | "date" => some (.plain .date)
  | "timestamp" => some (.plain .timestamp)
  | "varchar" => some (.sized .varchar)
  | "char" => some (.sized .char)
  | "decimal" => some .decimal
  | "array" => some .array
  | "map" => some .map
  | "struct" => some .struct
  | "uniontype" | "interval_year_month" | "interval_day_time" | "timestamp_local_tz" =>
    some .unsupported
  | _ => none

/-- The type around one that is being read. The fields of a struct are kept latest first. -/
inductive Around
  | array
  | mapKey
  | mapValue (key : ColumnType)
  | field (fields : List (String × ColumnType)) (name : String)

/-- What the reader waits for; in every case the types around, innermost first. -/
inductive Reader
  | start (around : List Around)
  | arrayOpen (around : List Around)
  | mapOpen (around : List Around)
  | structOpen (around : List Around)
  | firstField (around : List Around)
  | nextField (fields : List (String × ColumnType)) (around : List Around)
  | fieldColon (fields : List (String × ColumnType)) (name : String) (around : List Around)
  | sizedOpen (make : UInt32 → ColumnType) (around : List Around)
  | size (make : UInt32 → ColumnType) (around : List Around)
  | sizedClose (t : ColumnType) (around : List Around)
  | precision (around : List Around)
  | scaleOrClose (precision : UInt32) (around : List Around)
  | scale (precision : UInt32) (around : List Around)
  | decimalClose (precision scale : UInt32) (around : List Around)
  | afterDouble (around : List Around)
  | afterDecimal (around : List Around)
  | finished (t : ColumnType) (around : List Around)

/-- Why a token was refused; where it stands is the caller's to say. -/
inductive Refusal
  | unexpected
  | unknown
  | unsupported
  | badDecimal (precision scale : UInt32) (fault : DecimalFault)
  deriving DecidableEq, Repr

def bareDecimal : ColumnType := .decimal defaultPrecision 0

/-- A decimal has 1 to 38 digits, and no more of them behind the point than there are. -/
def checkDecimal (precision scale : UInt32) : Except Refusal ColumnType :=
  if precision = 0 ∨ maxPrecision < precision.toNat then
    .error (.badDecimal precision scale .precisionOutOfRange)
  else if precision < scale then .error (.badDecimal precision scale .scaleAbovePrecision)
  else .ok (.decimal precision.toUInt8 scale.toUInt8)

/-- Backticks around a field name are no part of it. -/
def unquoteName (name : List Char) : List Char :=
  ((name.dropWhile (· == '\x60')).reverse.dropWhile (· == '\x60')).reverse

namespace Reader

def stepHead (around : List Around) (name : List Char) : Except Refusal Reader :=
  match Head.ofName? name with
  | some (.plain t) => .ok (.finished t around)
  | some .double => .ok (.afterDouble around)
  | some .decimal => .ok (.afterDecimal around)
  | some (.sized make) => .ok (.sizedOpen make around)
  | some .array => .ok (.arrayOpen around)
  | some .map => .ok (.mapOpen around)
  | some .struct => .ok (.structOpen around)
  | some .unsupported => .error .unsupported
  | none => .error .unknown

/-- A field name is a word or a number. -/
def stepField (fields : List (String × ColumnType)) (around : List Around) :
    Token → Except Refusal Reader
  | .word name => .ok (.fieldColon fields (String.ofList (unquoteName name)) around)
  | .number n => .ok (.fieldColon fields (Text.decimal n.toNat) around)
  | .symbol _ => .error .unexpected

/-- A token behind a finished type goes on with the type around it. -/
def stepFinished (t : ColumnType) : List Around → Symbol → Except Refusal Reader
  | .array :: around, .closeAngle => .ok (.finished (.array t) around)
  | .mapKey :: around, .comma => .ok (.start (.mapValue t :: around))
  | .mapValue k :: around, .closeAngle => .ok (.finished (.map k t) around)
  | .field fields name :: around, .comma => .ok (.nextField ((name, t) :: fields) around)
  | .field fields name :: around, .closeAngle =>
    .ok (.finished (.struct ((name, t) :: fields).reverse) around)
  | _, _ => .error .unexpected

def step : Reader → Token → Except Refusal Reader
  | start around, .word name => stepHead around name
  | arrayOpen around, .symbol .openAngle => .ok (.start (.array :: around))
  | mapOpen around, .symbol .openAngle => .ok (.start (.mapKey :: around))
  | structOpen around, .symbol .openAngle => .ok (.firstField around)
  | firstField around, .symbol .closeAngle => .ok (.finished (.struct []) around)
  | firstField around, t => stepField [] around t
  | nextField fields around, t => stepField fields around t
  | fieldColon fields name around, .symbol .colon => .ok (.start (.field fields name :: around))
  | sizedOpen make around, .symbol .openParen => .ok (.size make around)
  | size make around, .number n => .ok (.sizedClose (make n) around)
  | sizedClose t around, .symbol .closeParen => .ok (.finished t around)
  | precision around, .number p => .ok (.scaleOrClose p around)
  | scaleOrClose p around, .symbol .comma => .ok (.scale p around)
  | scaleOrClose p around, .symbol .closeParen => do return .finished (← checkDecimal p 0) around
  | scale p around, .number s => .ok (.decimalClose p s around)
  | decimalClose p s around, .symbol .closeParen => do
    return .finished (← checkDecimal p s) around
  | afterDouble around, .word name =>
    if name.map Char.toLower = "precision".toList then .ok (.finished .double around)
    else .error .unexpected
  | afterDouble around, .symbol s => stepFinished .double around s
  | afterDecimal around, .symbol .openParen => .ok (.precision around)
  | afterDecimal around, .symbol s => stepFinished bareDecimal around s
  | finished t around, .symbol s => stepFinished t around s
  | _, _ => .error .unexpected

/-- The type that is complete if nothing more belongs to it. -/
def complete? : Reader → Option ColumnType
  | .finished t [] => some t
  | .afterDouble [] => some .double
  | .afterDecimal [] => some bareDecimal
  | _ => none

end Reader

/-- The fault that a refusal is at a token. -/
def Refusal.fault (at_ : Nat × Token) : Refusal → Fault
  | .unexpected => .unexpected at_.1 (String.ofList at_.2.chars)
  | .unknown => .unknown (String.ofList at_.2.chars)
  | .unsupported => .unsupported (String.ofList at_.2.chars)
  | .badDecimal p s fault => .badDecimal p s fault

def Reader.run (r : Reader) : List (Nat × Token) → Except Fault Reader
  | [] => .ok r
  | t :: ts =>
    match r.step t.2 with
    | .ok r => r.run ts
    | .error refusal => .error (refusal.fault t)

def ofTokens (ts : List (Nat × Token)) : Except Fault ColumnType := do
  match (← (Reader.start []).run ts).complete? with
  | some t => .ok t
  | none => .error .endsEarly

def isSeparator (t : Token) : Bool :=
  t == .symbol .colon || t == .symbol .comma || t == .symbol .semicolon

/-- Types separated at the top level. `before` are the finished ones, latest first. -/
def runList (before : List ColumnType) (r : Reader) :
    List (Nat × Token) → Except Fault (List ColumnType)
  | [] =>
    match r.complete? with
    | some t => .ok (t :: before).reverse
    | none => .error .endsEarly
  | t :: ts =>
    match r.complete?, isSeparator t.2 with
    | some u, true => runList (u :: before) (.start []) ts
    | _, _ =>
      match r.step t.2 with
      | .ok r => runList before r ts
      | .error refusal => .error (refusal.fault t)

def listOfTokens : List (Nat × Token) → Except Fault (List ColumnType)
  | [] => .ok []
  | ts => runList [] (.start []) ts

def scanString (s : String) : Except Fault (List (Nat × Token)) :=
  (scan 0 s.toList).mapError fun e => .unexpected e.offset (String.ofList e.found)

/-- The type that a text spells. -/
def ofString (s : String) : Except ReadError ColumnType :=
  (scanString s >>= ofTokens).mapError (⟨s, ·⟩)

/-- The types that a text lists; blank text lists none. -/
def listOfString (s : String) : Except ReadError (List ColumnType) :=
  (scanString s >>= listOfTokens).mapError (⟨s, ·⟩)

end TableScan.ColumnType
