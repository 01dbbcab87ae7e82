/-
  TableScan.Composite — the columns of a scan that data files do not hold. Partition columns are
  not read but appended, each with the one value that the split has for it.

  Selected columns are told apart by name, without regard to the case of A to Z, and keep
  their order. A widened reader answers as the one inside it does (`pull_widen`), with the
  appended columns behind those of every batch.
-/

import TableScan.Reader
import TableScan.Split
import TableScan.Text.Lowercase

namespace TableScan

open TableScan.Text

/-- How the readers of a scan are asked for columns, and what is done with a reader once it is there. -/
structure Composite where
  innerColumns : List String
  /-- Takes the split, the name of its allocator and its reader; on failure the reader is left to whoever
  asked. -/
  wrap : Split → String → Reader → Except String Reader

namespace Composite

def isPartitionColumn (partitionColumns : List String) (column : String) : Bool :=
  partitionColumns.any fun p => sameIgnoringCase p column

/-- The selected columns that readers produce. -/
def inner (selected partitionColumns : List String) : List String :=
  selected.filter (!isPartitionColumn partitionColumns ·)

/-- The selected columns that come from the split. -/
def appended (selected partitionColumns : List String) : List String :=
  selected.filter (isPartitionColumn partitionColumns ·)

/-- The value of the first partition value of this name. -/
def valueFor (s : Split) (column : String) : Option String :=
  (s.values.find? fun v => sameIgnoringCase v.column column).bind (·.value)

def appendedField (column : String) : Field := ⟨column, .utf8, true⟩

def cell : Option String → Cell
  | none => .null
  | some s => .text s

/-- A batch with constant columns behind its own. -/
def widenBatch (declared : List Field) (columns : List String) (values : List (Option String))
    (b : Batch) : Except ReaderFault Batch :=
  if b.fits declared then
    .ok ⟨declared ++ columns.map appendedField,
      b.columns ++ values.map fun v => List.replicate b.rows (cell v), b.rows⟩
  else .error .batchMismatch

/-- A reader whose batches carry the values of a split as further columns. -/
def widen (columns : List String) (s : Split) (r : Reader) : Reader :=
  { fields := r.fields ++ columns.map appendedField
    pulls := r.pulls.map fun answer =>
      answer.bind (widenBatch r.fields columns (columns.map (valueFor s)))
    closeFault := r.closeFault }

/-- Appends the partition columns that are selected; a reader to which none are stays as it is. -/
def ofColumns (selected partitionColumns : List String) : Composite where
  innerColumns := inner selected partitionColumns
  wrap s _ r :=
    let columns := appended selected partitionColumns
    .ok (if columns.isEmpty then r else widen columns s r)

end Composite

/-- The name of the allocator below one, for a split. -/
def allocatorBelow (allocator key : String) : String := allocator ++ ":" ++ key

end TableScan
