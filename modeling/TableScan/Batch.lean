/-
  TableScan.Batch — batches of rows, column by column, and whether a batch fits the fields that
  a reader declared.
-/

import TableScan.DataType

namespace TableScan

/-- A value in a column. -/
inductive Cell
  | null
  | int (n : Int)
  | text (s : String)
  deriving DecidableEq, Repr, Inhabited

/-- Rows, kept as one list of cells for each field. The count stands by itself, since rows without columns
can still be counted. -/
structure Batch where
  fields : List Field
  columns : List (List Cell)
  rows : Nat
  deriving DecidableEq

namespace Batch

/-- A column of a type has the type of the field, and no null where none may be. Names do not count. -/
def columnFits (declared : Field) (type : DataType) (cells : List Cell) : Bool :=
  declared.type = type && (declared.nullable || !cells.contains .null)

/-- Column by column, and no column more or less. -/
def columnsFit : List Field → List Field → List (List Cell) → Bool
  | [], [], [] => true
  | d :: declared, f :: fields, c :: columns =>
    columnFits d f.type c && columnsFit declared fields columns
  | _, _, _ => false

def fits (b : Batch) (declared : List Field) : Bool := columnsFit declared b.fields b.columns

end Batch

end TableScan
