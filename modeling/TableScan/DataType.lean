/-
  TableScan.DataType — the types of columns in memory, and the fields that name them. A list
  has one item field, a map an entries field of a key and a value, a struct any number of
  fields; all other types are flat.
-/

import TableScan.Text.Numeral

namespace TableScan

open TableScan.Text

/-- A named place for values of a type, and whether a value may be missing there. -/
structure FieldOf (T : Type) where
  name : String
  type : T
  nullable : Bool
  deriving DecidableEq, Repr

inductive TimeUnit
  | millisecond | microsecond | nanosecond
  deriving DecidableEq, Repr

inductive DataType
  | null | boolean | int8 | int16 | int32 | int64 | float32 | float64 | utf8 | binary | date32
  | timestamp (unit : TimeUnit)
  | decimal128 (precision : UInt8) (scale : Int8)
  | fixedSizeBinary (width : Int32)
  | list (item : FieldOf DataType)
  | map (entries : FieldOf DataType) (sorted : Bool)
  | struct (fields : List (FieldOf DataType))
  deriving Inhabited, Repr

abbrev Field := FieldOf DataType

namespace DataType

mutual

/-- Equality of types, compared part by part (`same_iff`). -/
def same : DataType → DataType → Bool
  | .null, .null | .boolean, .boolean | .int8, .int8 | .int16, .int16 | .int32, .int32
  | .int64, .int64 | .float32, .float32 | .float64, .float64 | .utf8, .utf8 | .binary, .binary
  | .date32, .date32 => true
  | .timestamp u, .timestamp v => u == v
  | .decimal128 p s, .decimal128 q t => p == q && s == t
  | .fixedSizeBinary n, .fixedSizeBinary m => n == m
  | .list f, .list g => sameField f g
  | .map f s, .map g t => sameField f g && s == t
  | .struct fs, .struct gs => sameFields fs gs
  | _, _ => false

def sameField : Field → Field → Bool
  | ⟨n, t, b⟩, ⟨m, u, c⟩ => n == m && same t u && b == c

def sameFields : List Field → List Field → Bool
  | [], [] => true
  | f :: fs, g :: gs => sameField f g && sameFields fs gs
  | _, _ => false

end

mutual

theorem same_iff : ∀ t u : DataType, same t u = true ↔ t = u := by
  intro t u
  cases t <;> cases u <;> simp [same, sameField_iff, sameFields_iff]

theorem sameField_iff : ∀ f g : Field, sameField f g = true ↔ f = g
  | ⟨n, t, b⟩, ⟨m, u, c⟩ => by simp [sameField, same_iff t u, and_assoc]

theorem sameFields_iff : ∀ fs gs : List Field, sameFields fs gs = true ↔ fs = gs
  | [], [] => by simp [sameFields]
  | f :: fs, g :: gs => by simp [sameFields, sameField_iff f g, sameFields_iff fs gs]
  | [], _ :: _ => by simp [sameFields]
  | _ :: _, [] => by simp [sameFields]

end

instance : DecidableEq DataType := fun t u => decidable_of_iff _ (same_iff t u)

/-- A list of nullable items. -/
def listOf (item : DataType) : DataType := .list ⟨"item", item, true⟩

/-- An unsorted map: keys are never missing, values may be. -/
def mapOf (key value : DataType) : DataType :=
  .map ⟨"entries", .struct [⟨"key", key, false⟩, ⟨"value", value, true⟩], false⟩ false

def TimeUnit.name : TimeUnit → String
  | .millisecond => "Millisecond"
  | .microsecond => "Microsecond"
  | .nanosecond => "Nanosecond"

/-- The one-word form of a flat type. -/
def flatName? : DataType → Option String
  | .null => some "Null"
  | .boolean => some "Boolean"
  | .int8 => some "Int8"
  | .int16 => some "Int16"
  | .int32 => some "Int32"
  | .int64 => some "Int64"
  | .float32 => some "Float32"
  | .float64 => some "Float64"
  | .utf8 => some "Utf8"
  | .binary => some "Binary"
  | .date32 => some "Date32"
  | .timestamp u => some ("Timestamp(" ++ TimeUnit.name u ++ ", None)")
  | .decimal128 p s => some ("Decimal128(" ++ decimal p.toNat ++ ", " ++ signedDecimal s.toInt ++ ")")
  | .fixedSizeBinary n => some ("FixedSizeBinary(" ++ signedDecimal n.toInt ++ ")")
  | .list _ | .map _ _ | .struct _ => none

end DataType

end TableScan
