/-
  TableScan.ColumnType.Basic — the types that table metadata declares for columns, and how
  they are written: lower-case names, no blanks, parameters and parts in full. Lengths are
  32-bit words and decimal parameters bytes, as they are in the metadata.
-/

import TableScan.Text.Numeral

namespace TableScan

open TableScan.Text

inductive ColumnType
  | void | boolean | tinyint | smallint | int | bigint | float | double | string
  | binary | date | timestamp
  | varchar (length : UInt32)
  | char (length : UInt32)
  | decimal (precision scale : UInt8)
  | array (element : ColumnType)
  | map (key value : ColumnType)
  | struct (fields : List (String × ColumnType))
  deriving Inhabited, Repr

namespace ColumnType

mutual

/-- Equality of types, compared part by part (`same_iff`). -/
def same : ColumnType → ColumnType → Bool
  | .void, .void | .boolean, .boolean | .tinyint, .tinyint | .smallint, .smallint | .int, .int
  | .bigint, .bigint | .float, .float | .double, .double | .string, .string
  | .binary, .binary | .date, .date | .timestamp, .timestamp => true
  | .varchar n, .varchar m => n == m
  | .char n, .char m => n == m
  | .decimal p s, .decimal q t => p == q && s == t
  | .array t, .array u => same t u
  | .map k v, .map l w => same k l && same v w
  | .struct fs, .struct gs => sameFields fs gs
  | _, _ => false

def sameFields : List (String × ColumnType) → List (String × ColumnType) → Bool
  | [], [] => true
  | (n, t) :: fs, (m, u) :: gs => n == m && same t u && sameFields fs gs
  | _, _ => false

end

mutual

theorem same_iff : ∀ t u : ColumnType, same t u = true ↔ t = u := by
  intro t u
  cases t <;> cases u <;> simp [same, same_iff, sameFields_iff]

theorem sameFields_iff : ∀ fs gs : List (String × ColumnType), sameFields fs gs = true ↔ fs = gs
  | [], [] => by simp [sameFields]
  | (n, t) :: fs, (m, u) :: gs => by
    simp [sameFields, same_iff t u, sameFields_iff fs gs, and_assoc]
  | [], _ :: _ => by simp [sameFields]
  | _ :: _, [] => by simp [sameFields]

end

instance : DecidableEq ColumnType := fun t u => decidable_of_iff _ (same_iff t u)

mutual

def chars : ColumnType → List Char
  | .void => "void".toList
  | .boolean => "boolean".toList
  | .tinyint => "tinyint".toList
  | .smallint => "smallint".toList
  | .int => "int".toList
  | .bigint => "bigint".toList
  | .float => "float".toList
  | .double => "double".toList
  | .string => "string".toList
  | .binary => "binary".toList
  | .date => "date".toList
  | .timestamp => "timestamp".toList
  | .varchar n => "varchar(".toList ++ numeral n.toNat ++ [')']
  | .char n => "char(".toList ++ numeral n.toNat ++ [')']
  | .decimal p s => "decimal(".toList ++ numeral p.toNat ++ ',' :: numeral s.toNat ++ [')']
  | .array t => "array<".toList ++ t.chars ++ ['>']
  | .map k v => "map<".toList ++ k.chars ++ ',' :: v.chars ++ ['>']
  | .struct fs => "struct<".toList ++ fieldsChars fs ++ ['>']

def fieldsChars : List (String × ColumnType) → List Char
  | [] => []
  | [(n, t)] => n.toList ++ ':' :: t.chars
  | (n, t) :: rest => n.toList ++ ':' :: t.chars ++ ',' :: fieldsChars rest

end

/-- The type as it is written. -/
def render (t : ColumnType) : String := String.ofList t.chars

end ColumnType

end TableScan
