/-
  TableScan.Split — the units of scan work. A split has a key, a payload that only the scan
  itself decodes, and the values of the partition columns. The payload tells the partition
  and where the rows are stored: in a range of a file, or in a transactional directory whose
  recent writes may still lie beside it as deltas.

  Fields that are empty are left out of documents where a reader supplies them again.
-/

import TableScan.Json.Decoder
import TableScan.Json.Printer

namespace TableScan

open TableScan.Json

abbrev PartitionId := Int32

/-- The value of a partition column; a missing value is that of the default partition. -/
structure PartitionValue where
  column : String
  value : Option String
  deriving DecidableEq, Repr, Inhabited

/-- A member that is left out when it is absent. -/
def optionalMember {α : Type} (name : String) (toJson : α → Value) : Option α → List (String × Value)
  | none => []
  | some a => [(name, toJson a)]

/-- A list that is left out when it is empty. -/
def listMember {α : Type} (name : String) (toJson : α → Value) (items : List α) :
    List (String × Value) :=
  if items.isEmpty then [] else [(name, .array (items.map toJson))]

def textOrNull : Option String → Value
  | none => .null
  | some s => .text s

def wordJson (n : UInt64) : Value := .int n.toNat

namespace PartitionValue

def toJson (v : PartitionValue) : Value :=
  .object [("column", .text v.column), ("value", textOrNull v.value)]

def decoder : Decoder PartitionValue :=
  Decoder.record ["column", "value"] fun m => do
    return ⟨← m.required "column" .text, ← m.getD "value" (.optional .text) none⟩

end PartitionValue

/-- A range of bytes of a file. -/
structure FileRange where
  path : String
  start : UInt64
  length : UInt64
  deriving DecidableEq, Repr, Inhabited

namespace FileRange

def members (r : FileRange) : List (String × Value) :=
  [("path", .text r.path), ("start", wordJson r.start), ("length", wordJson r.length)]

def toJson (r : FileRange) : Value := .object r.members

def decoder : Decoder FileRange :=
  Decoder.record ["path", "start", "length"] fun m => do
    return ⟨← m.required "path" .text, ← m.getD "start" .uint64 0, ← m.getD "length" .uint64 0⟩

end FileRange

/-- The writes that a delta holds: a range of write ids, or, of each statement, a delta of its own. -/
structure DeltaRange where
  first : UInt64
  last : UInt64
  statements : List UInt32
  deriving DecidableEq, Repr, Inhabited

namespace DeltaRange

def toJson (d : DeltaRange) : Value :=
  .object ([("min_write_id", wordJson d.first), ("max_write_id", wordJson d.last)]
    ++ listMember "statement_ids" (fun (n : UInt32) => .int n.toNat) d.statements)

def decoder : Decoder DeltaRange :=
  Decoder.record ["min_write_id", "max_write_id", "statement_ids"] fun m => do
    return ⟨← m.required "min_write_id" .uint64, ← m.required "max_write_id" .uint64,
      ← m.getD "statement_ids" (.list .uint32) []⟩

end DeltaRange

/-- Rows of a transactional table. -/
structure TransactionalRange where
  /-- The base file, or the transactional root where there is no base. -/
  path : String
  start : UInt64
  length : UInt64
  hasBase : Bool
  /-- The base lies in the root itself, not in a directory of its own. -/
  baseInRoot : Bool
  deltas : List DeltaRange
  deriving DecidableEq, Repr, Inhabited

namespace TransactionalRange

def members (r : TransactionalRange) : List (String × Value) :=
  [("path", .text r.path), ("start", wordJson r.start), ("length", wordJson r.length),
    ("has_base", .bool r.hasBase), ("is_original", .bool r.baseInRoot)]
    ++ listMember "deltas" DeltaRange.toJson r.deltas

def toJson (r : TransactionalRange) : Value := .object r.members

def decoder : Decoder TransactionalRange :=
  Decoder.record ["path", "start", "length", "has_base", "is_original", "deltas"] fun m => do
    return ⟨← m.required "path" .text, ← m.getD "start" .uint64 0, ← m.getD "length" .uint64 0,
      ← m.required "has_base" .bool, ← m.getD "is_original" .bool false,
      ← m.getD "deltas" (.list DeltaRange.decoder) []⟩

end TransactionalRange

/-- Where the rows of a split are stored. -/
inductive Storage
  | file (range : FileRange)
  | transactional (range : TransactionalRange)
  deriving DecidableEq, Repr, Inhabited

namespace Storage

def path : Storage → String
  | file r => r.path
  | transactional r => r.path

def transactional? : Storage → Option TransactionalRange
  | file _ => none
  | transactional r => some r

def toJson : Storage → Value
  | file r => .object (("kind", .text "file") :: r.members)
  | transactional r => .object (("kind", .text "acid") :: r.members)

def decoder : Decoder Storage :=
  Decoder.tagged "kind"
    [("file", fun room t => (FileRange.decoder room t).map file),
      ("acid", fun room t => (TransactionalRange.decoder room t).map transactional)]

end Storage

/-- What the payload of a split says. -/
structure SplitDetails where
  /-- The partition; absent in tables without partitions. -/
  partition : Option PartitionId
  storage : Storage
  deriving DecidableEq, Repr, Inhabited

namespace SplitDetails

def toJson (d : SplitDetails) : Value :=
  .object (optionalMember "partition_id" (fun (i : PartitionId) => .int i.toInt) d.partition
    ++ [("input_split", d.storage.toJson)])

def decoder : Decoder SplitDetails :=
  Decoder.record ["partition_id", "input_split"] fun m => do
    return ⟨← m.getD "partition_id" (.optional .int32) none,
      ← m.required "input_split" Storage.decoder⟩

end SplitDetails

/-- A unit of scan work. -/
structure Split where
  key : String
  payload : List UInt8
  values : List PartitionValue
  deriving DecidableEq, Repr, Inhabited

namespace Split

/-- The split with these details as its payload. -/
def ofDetails (key : String) (d : SplitDetails) (values : List PartitionValue) : Split :=
  ⟨key, d.toJson.render.toUTF8.toList, values⟩

def details? (s : Split) : Option SplitDetails := SplitDetails.decoder.ofBytes? s.payload

/-- The first value recorded for a column of exactly this name. -/
def value? (s : Split) (column : String) : Option PartitionValue :=
  s.values.find? (·.column = column)

def toJson (s : Split) : Value :=
  .object ([("split_key", .text s.key),
      ("extended_property", .array (s.payload.map fun b => .int b.toNat))]
    ++ listMember "partition_values" PartitionValue.toJson s.values)

def decoder : Decoder Split :=
  Decoder.record ["split_key", "extended_property", "partition_values"] fun m => do
    return ⟨← m.required "split_key" .text, ← m.required "extended_property" (.list .uint8),
      ← m.getD "partition_values" (.list PartitionValue.decoder) []⟩

end Split

end TableScan
