/-
  TableScan.Serde — serialization libraries: the named code that turns stored rows into
  columns. A handle is a library with the properties it was set up with, and a library decides
  how the layout of its rows is derived from those.
-/

import TableScan.Layout

namespace TableScan

namespace Serde

def lazySimple : String := "org.apache.hadoop.hive.serde2.lazy.LazySimpleSerDe"

def orc : String := "org.apache.hadoop.hive.ql.io.orc.OrcSerde"

def parquet : String := "org.apache.hadoop.hive.ql.io.parquet.serde.ParquetHiveSerDe"

def avro : String := "org.apache.hadoop.hive.serde2.avro.AvroSerDe"

def columnar : String := "org.apache.hadoop.hive.serde2.columnar.ColumnarSerDe"

def lazyBinaryColumnar : String :=
  "org.apache.hadoop.hive.serde2.columnar.LazyBinaryColumnarSerDe"

def openCsv : String := "org.apache.hadoop.hive.serde2.OpenCSVSerde"

/-- The libraries that come with the engine. -/
def known : List String :=
  [lazySimple, orc, parquet, avro, columnar, lazyBinaryColumnar, openCsv]

/-- A library and the properties it was set up with. -/
structure Handle where
  library : String
  properties : Properties
  deriving DecidableEq, Inhabited

/-- The library is not known to whoever sets up handles. -/
structure UnknownLibrary where
  library : String

def UnknownLibrary.message (e : UnknownLibrary) : String :=
  "Unknown serialization library " ++ e.library

/-- Sets up a library for a job with properties. -/
abbrev Factory := Properties → String → Properties → Except UnknownLibrary Handle

/-- Knows the libraries that come with the engine. -/
def Factory.builtIn : Factory := fun _ library properties =>
  if library ∈ known then .ok ⟨library, properties⟩ else .error ⟨library⟩

/-- Accepts every library. -/
def Factory.permissive : Factory := fun _ library properties => .ok ⟨library, properties⟩

/-- Avro rows follow their schema, CSV rows are strings, and all others have the declared columns. -/
def Handle.layout (h : Handle) : Except Layout.Fault Layout :=
  if h.library = avro then Layout.ofAvroProperties h.properties
  else if h.library = openCsv then Layout.allStrings h.properties
  else Layout.ofColumnProperties h.properties

end Serde

end TableScan
