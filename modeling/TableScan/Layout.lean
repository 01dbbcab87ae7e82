/-
  TableScan.Layout — the columns of the rows that a table or partition holds, derived from its
  properties.

  Names come from one property and types from another, matched by position; a table without
  types holds strings. Names are trimmed and in lower case, and must differ. Types are read
  before anything is said about names. Two layouts that differ in any way have drifted.
-/

import TableScan.AvroSchema
import TableScan.ColumnType.DataType
import TableScan.ColumnType.Reader
import TableScan.Properties
import TableScan.Text.Split

namespace TableScan

open TableScan.Text

/-- The columns of a row, in order. -/
structure Layout where
  columns : List Field
  deriving DecidableEq, Inhabited

namespace Layout

def columnsKey : String := "columns"

def columnTypesKey : String := "columns.types"

def delimiterKey : String := "column.name.delimiter"

def avroLiteralKey : String := "avro.schema.literal"

/-- Why properties give no layout. -/
inductive Fault
  | columnTypes (cause : ColumnType.ReadError)
  | countMismatch (names types : Nat)
  | missingNames
  | duplicateColumn (name : String)
  | avroLiteral (cause : AvroSchema.Fault)

def Fault.message : Fault → String
  | .columnTypes cause => "Invalid columns.types: " ++ cause.message
  | .countMismatch names types =>
    "columns lists " ++ decimal names ++ " columns but columns.types lists " ++ decimal types
  | .missingNames => "columns.types is set but columns is missing"
  | .duplicateColumn name => "Duplicate column name " ++ name
  | .avroLiteral cause => "Invalid avro.schema.literal: " ++ cause.message

def empty : Layout := ⟨[]⟩

def names (l : Layout) : List String := l.columns.map (·.name)

/-- The first name that stands in a list for the second time. -/
def firstRepeated? (before : List String) : List String → Option String
  | [] => none
  | n :: rest => if before.contains n then some n else firstRepeated? (n :: before) rest

/-- The layout with these columns, whose names must differ. -/
def ofColumns (columns : List Field) : Except Fault Layout :=
  match firstRepeated? [] (columns.map (·.name)) with
  | some name => .error (.duplicateColumn name)
  | none => .ok ⟨columns⟩

/-- What stands between column names. -/
def delimiter (p : Properties) : String :=
  match p.get? delimiterKey with
  | some d => if d = "" then "," else d
  | none => ","

/-- The column names of a property, trimmed, in lower case, and without empty ones. -/
def columnNames (p : Properties) : List String :=
  match p.get? columnsKey with
  | none => []
  | some raw =>
    ((splitChars (delimiter p).toList raw.toList).map fun piece =>
      String.ofList (lowerChars (trimChars piece))).filter (· ≠ "")

def columnTypes (p : Properties) : Except ColumnType.ReadError (List ColumnType) :=
  match p.get? columnTypesKey with
  | none => .ok []
  | some raw => ColumnType.listOfString raw

def column (name : String) (type : ColumnType) : Field := ⟨name, type.dataType, true⟩

/-- Columns as the properties for names and types list them. -/
def ofColumnProperties (p : Properties) : Except Fault Layout := do
  let types ← (columnTypes p).mapError .columnTypes
  let names := columnNames p
  if names = [] ∧ types ≠ [] then throw .missingNames
  let types := if types = [] then names.map fun _ => .string else types
  if names.length ≠ types.length then throw (.countMismatch names.length types.length)
  ofColumns (names.zipWith column types)

/-- Every named column holds strings, whatever its declared type. -/
def allStrings (p : Properties) : Except Fault Layout :=
  ofColumns ((columnNames p).map (column · .string))

/-- The fields of the Avro record schema, if there is one. -/
def ofAvroProperties (p : Properties) : Except Fault Layout :=
  match p.get? avroLiteralKey with
  | some literal => do ofColumns (← (AvroSchema.recordFields literal).mapError .avroLiteral)
  | none => ofColumnProperties p

def driftsFrom (a b : Layout) : Bool := a ≠ b

/-- The columns on one line, if all their types are flat. -/
def describe? (l : Layout) : Option String := do
  let parts ← l.columns.mapM fun f => do return f.name ++ ": " ++ (← f.type.flatName?)
  return "struct<" ++ ", ".intercalate parts ++ ">"

end Layout

end TableScan
