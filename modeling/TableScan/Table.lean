/-
  TableScan.Table — what a scan knows about its table: how rows are serialized and stored, the
  properties, the partition columns, and for each partition what it does differently. A
  partition takes from the table whatever it does not say itself, and its properties lie over
  those of the table.
-/

import TableScan.Properties
import TableScan.Split

namespace TableScan

open TableScan.Json

/-- What a partition does differently from its table. -/
structure PartitionOverride where
  library : Option String
  format : Option String
  properties : Properties
  deriving DecidableEq

namespace PartitionOverride

def none : PartitionOverride := ⟨.none, .none, .empty⟩

def toJson (p : PartitionOverride) : Value :=
  .object (optionalMember "serialization_lib" .text p.library
    ++ optionalMember "input_format" .text p.format
    ++ (if p.properties.isEmpty then [] else [("properties", p.properties.toJson)]))

def decoder : Decoder PartitionOverride :=
  Decoder.record ["serialization_lib", "input_format", "properties"] fun m => do
    return ⟨← m.getD "serialization_lib" (.optional .text) .none,
      ← m.getD "input_format" (.optional .text) .none,
      ← m.getD "properties" Properties.decoder .empty⟩

end PartitionOverride

structure Table where
  /-- The serialization library of the rows. -/
  library : Option String
  /-- The input format of the files. -/
  format : Option String
  properties : Properties
  partitionColumns : List String
  partitions : Dict PartitionId PartitionOverride
  deriving DecidableEq

namespace Table

def blank : Table := ⟨none, none, .empty, [], .empty⟩

instance : Inhabited Table := ⟨blank⟩

def ofFormat (library format : String) : Table :=
  { blank with library := some library, format := some format }

def withProperty (t : Table) (key value : String) : Table :=
  { t with properties := t.properties.insert key value }

def withPartitionColumn (t : Table) (column : String) : Table :=
  { t with partitionColumns := t.partitionColumns ++ [column] }

def withPartition (t : Table) (id : PartitionId) (p : PartitionOverride) : Table :=
  { t with partitions := t.partitions.insert id p }

def isPartitioned (t : Table) : Bool := !t.partitionColumns.isEmpty

def partition? (t : Table) (id : PartitionId) : Option PartitionOverride := t.partitions.get? id

def partitionLibrary? (t : Table) (id : PartitionId) : Option String :=
  ((t.partition? id).bind (·.library)).or t.library

def partitionFormat? (t : Table) (id : PartitionId) : Option String :=
  ((t.partition? id).bind (·.format)).or t.format

/-- The properties of the table with those of the partition over them. -/
def partitionProperties (t : Table) (id : PartitionId) : Properties :=
  match t.partition? id with
  | none => t.properties
  | some p => t.properties.overlay p.properties

def toJson (t : Table) : Value :=
  .object
    [("serialization_lib", textOrNull t.library), ("input_format", textOrNull t.format),
      ("properties", t.properties.toJson),
      ("partition_columns", .array (t.partitionColumns.map .text)),
      ("partitions", .object (t.partitions.entries.map fun e =>
        (Text.signedDecimal e.1.toInt, e.2.toJson)))]

def decoder : Decoder Table :=
  Decoder.record
    ["serialization_lib", "input_format", "properties", "partition_columns", "partitions"]
    fun m => do
      return ⟨← m.getD "serialization_lib" (.optional .text) none,
        ← m.getD "input_format" (.optional .text) none,
        ← m.getD "properties" Properties.decoder .empty,
        ← m.getD "partition_columns" (.list .text) [],
        ← m.getD "partitions" (.dict Decoder.int32Key PartitionOverride.decoder) .empty⟩

end Table

end TableScan
