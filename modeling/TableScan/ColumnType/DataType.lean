/-
  TableScan.ColumnType.DataType — the in-memory type of a column type. Texts of every declared
  length are one type, timestamps count nanoseconds, and the fields of a struct are named
  in lower case. Every value may be missing but the key of a map.
-/

import TableScan.ColumnType.Basic
import TableScan.DataType
import TableScan.Text.Lowercase

namespace TableScan.ColumnType

mutual

def dataType : ColumnType → DataType
  | .void => .null
  | .boolean => .boolean
  | .tinyint => .int8
  | .smallint => .int16
  | .int => .int32
  | .bigint => .int64
  | .float => .float32
  | .double => .float64
  | .string | .varchar _ | .char _ => .utf8
  | .binary => .binary
  | .date => .date32
  | .timestamp => .timestamp .nanosecond
  | .decimal precision scale => .decimal128 precision scale.toInt8
  | .array element => .listOf element.dataType
  | .map key value => .mapOf key.dataType value.dataType
  | .struct fields => .struct (fieldTypes fields)

def fieldTypes : List (String × ColumnType) → List Field
  | [] => []
  | (name, t) :: rest => ⟨Text.lower name, t.dataType, true⟩ :: fieldTypes rest

end

end TableScan.ColumnType
