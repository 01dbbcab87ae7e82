/-
  TableScan.Strategy — the kinds of readers, and the registry that assigns one to the name of
  an input format. A format that is registered again takes the later strategy.
-/

import TableScan.Dict
import TableScan.Json.Decoder

namespace TableScan

open TableScan.Json

inductive Strategy
  | default
  | columnarNative
  | columnarVectorized
  | rowOrientedNative
  | selfDescribingContainer
  | delimitedText
  | columnarParquet
  deriving DecidableEq, Repr, Inhabited

namespace Strategy

def all : List Strategy :=
  [default, columnarNative, columnarVectorized, rowOrientedNative, selfDescribingContainer,
    delimitedText, columnarParquet]

/-- The name shown to people. -/
def name : Strategy → String
  | default => "default"
  | columnarNative => "orc"
  | columnarVectorized => "orc-vectorized"
  | rowOrientedNative => "rcfile"
  | selfDescribingContainer => "avro"
  | delimitedText => "text"
  | columnarParquet => "parquet"

/-- The name stored in documents. -/
def code : Strategy → String
  | default => "default"
  | columnarNative => "columnar_native"
  | columnarVectorized => "columnar_vectorized"
  | rowOrientedNative => "row_oriented_native"
  | selfDescribingContainer => "self_describing_container"
  | delimitedText => "delimited_text"
  | columnarParquet => "columnar_parquet"

def isVectorized (s : Strategy) : Bool := s == columnarVectorized

def toJson (s : Strategy) : Value := .text s.code

def decoder : Decoder Strategy := Decoder.oneOf (all.map fun s => (s.code, s))

end Strategy

/-- The strategies of the registered input formats. -/
abbrev Registry := Dict String Strategy

namespace Registry

def orcFormat : String := "org.apache.hadoop.hive.ql.io.orc.OrcInputFormat"

def avroFormat : String := "org.apache.hadoop.hive.ql.io.avro.AvroContainerInputFormat"

def rcfileFormat : String := "org.apache.hadoop.hive.ql.io.RCFileInputFormat"

def parquetFormat : String := "org.apache.hadoop.hive.ql.io.parquet.MapredParquetInputFormat"

def textFormat : String := "org.apache.hadoop.mapred.TextInputFormat"

/-- The formats that come with the engine. -/
def standard : Registry :=
  Dict.ofList
    [(orcFormat, .columnarNative), (avroFormat, .selfDescribingContainer),
      (rcfileFormat, .rowOrientedNative), (parquetFormat, .columnarParquet),
      (textFormat, .delimitedText)]

end Registry

end TableScan
