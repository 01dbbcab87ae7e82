/-
  TableScan.AvroSchema — the fields of an Avro record schema given as JSON text.

  A schema node is a type name, a union, or an object whose member `type` says more. A union
  with null is its other branch; a logical type refines the type it stands on and is passed
  over where it does not know it. Types defined by name elsewhere are not looked up. Faults
  carry the path of field names at which they were found, items and values counting as names.
-/

import TableScan.DataType
import TableScan.Json.Printer
import TableScan.Text.Lowercase
import TableScan.Text.Quoted

namespace TableScan.AvroSchema

open TableScan.Json TableScan.Text

/-- What makes a schema node malformed. -/
inductive Defect
  | missingType
  | missingItems
  | missingValues
  | missingSize
  | sizeOutOfRange (size : Int)
  | unexpectedNode (node : Value)
  | missingFields
  | unnamedField
  | untypedField
  | missingPrecision
  | invalidDecimal (precision scale : Int)

def Defect.message : Defect → String
  | .missingType => "missing \"type\""
  | .missingItems => "array without \"items\""
  | .missingValues => "map without \"values\""
  | .missingSize => "fixed without integer \"size\""
  | .sizeOutOfRange size => "fixed size " ++ signedDecimal size ++ " out of range"
  | .unexpectedNode node => "unexpected schema node " ++ node.render
  | .missingFields => "record without \"fields\" array"
  | .unnamedField => "record field without \"name\""
  | .untypedField => "record field without \"type\""
  | .missingPrecision => "decimal without \"precision\""
  | .invalidDecimal p s => "invalid decimal(" ++ signedDecimal p ++ "," ++ signedDecimal s ++ ")"

/-- Why a text gives no record fields. -/
inductive Fault
  | invalidJson
  | notARecord (found : String)
  | malformed (path : String) (defect : Defect)
  | unknownReference (path : String) (name : String)
  | wideUnion (path : String) (branches : Nat)

def Fault.message : Fault → String
  | .invalidJson => "Avro schema literal is not valid JSON: " ++ Json.faultText
  | .notARecord found => "Avro schema literal must be a record, found " ++ found
  | .malformed path defect => "Malformed Avro schema at " ++ path ++ ": " ++ defect.message
  | .unknownReference path name =>
    "Unsupported Avro schema at " ++ path ++ ": type reference " ++ quoted name
  | .wideUnion path branches =>
    "Unsupported Avro schema at " ++ path ++ ": union with " ++ decimal branches
      ++ " non-null branches"

/-- The path of a child: names joined by points. -/
def child (path name : String) : String :=
  if path = "" then name else path ++ "." ++ name

def primitive (path name : String) : Except Fault DataType :=
  match name with
  | "null" => .ok .null
  | "boolean" => .ok .boolean
  | "int" => .ok .int32
  | "long" => .ok .int64
  | "float" => .ok .float32
  | "double" => .ok .float64
  | "bytes" => .ok .binary
  | "string" => .ok .utf8
  | _ => .error (.unknownReference path name)

/-- A member that is a whole number between 0 and `2 ^ 64`. -/
def naturalMember? (node : Value) (key : String) : Option Int :=
  ((node.member? key).bind Value.int?).filter (0 ≤ ·)

/-- The type of a decimal over bytes: its scale counts as 0 unless it is a natural number. -/
def decimalType (path : String) (node : Value) : Except Fault DataType :=
  match naturalMember? node "precision" with
  | none => .error (.malformed path .missingPrecision)
  | some p =>
    let s := (naturalMember? node "scale").getD 0
    if p = 0 ∨ 38 < p ∨ p < s then .error (.malformed path (.invalidDecimal p s))
    else .ok (.decimal128 (UInt8.ofNat p.toNat) (Int8.ofInt s))

/-- The refined type, if the node has a logical type that goes with its type. -/
def logicalType (path : String) (node : Value) : Except Fault (Option DataType) :=
  match (node.member? "logicalType").bind Value.text?, (node.member? "type").bind Value.text? with
  | some "date", some "int" => .ok (some .date32)
  | some "timestamp-millis", some "long" => .ok (some (.timestamp .millisecond))
  | some "timestamp-micros", some "long" => .ok (some (.timestamp .microsecond))
  | some "decimal", some "bytes" | some "decimal", some "fixed" => (decimalType path node).map some
  | _, _ => .ok none

def fixedType (path : String) (node : Value) : Except Fault DataType :=
  match ((node.member? "size").bind Value.int?).filter (· ≤ Int64.maxValue.toInt) with
  | none => .error (.malformed path .missingSize)
  | some size =>
    if 0 < size ∧ size ≤ Int32.maxValue.toInt then .ok (.fixedSizeBinary (Int32.ofInt size))
    else .error (.malformed path (.sizeOutOfRange size))

def isNullName (node : Value) : Bool := node.text? == some "null"

theorem sizeOf_lookup {members : List (String × Value)} {key : String} {v : Value}
    (h : members.lookup key = some v) : sizeOf v < sizeOf members := by
  induction members with
  | nil => simp at h
  | cons m rest ih =>
    obtain ⟨k, w⟩ := m
    rw [List.lookup_cons] at h
    rw [List.cons.sizeOf_spec, Prod.mk.sizeOf_spec]
    split at h
    · cases h
      omega
    · have := ih h
      omega

theorem sizeOf_member {node : Value} {key : String} {v : Value}
    (h : node.member? key = some v) : sizeOf v < sizeOf node := by
  cases node <;> simp only [Value.member?, reduceCtorEq] at h
  have := sizeOf_lookup h
  rw [Value.object.sizeOf_spec]
  omega

mutual

/-- The type that a schema node stands for. -/
def typeOf (path : String) (node : Value) : Except Fault DataType :=
  match node with
  | .text name => primitive path name
  | .array branches =>
    match h : branches.filter (!isNullName ·) with
    | [] => .ok .null
    | [branch] =>
      have : branch ∈ branches := (List.mem_filter.1 (h ▸ List.mem_singleton_self branch)).1
      have := List.sizeOf_lt_of_mem this
      typeOf path branch
    | wide => .error (.wideUnion path wide.length)
  | .object members =>
    match h : Value.member? (.object members) "type" with
    | none => .error (.malformed path .missingType)
    | some type => do
      have := sizeOf_member h
      match ← logicalType path (.object members) with
      | some t => return t
      | none =>
        match type with
        | .text "record" =>
          match h : Value.member? (.object members) "fields" with
          | some (.array fields) =>
            have := sizeOf_member h
            return .struct (← fieldsOf path fields)
          | _ => throw (.malformed path .missingFields)
        | .text "array" =>
          match h : Value.member? (.object members) "items" with
          | none => throw (.malformed path .missingItems)
          | some items =>
            have := sizeOf_member h
            return .listOf (← typeOf (child path "item") items)
        | .text "map" =>
          match h : Value.member? (.object members) "values" with
          | none => throw (.malformed path .missingValues)
          | some values =>
            have := sizeOf_member h
            return .mapOf .utf8 (← typeOf (child path "value") values)
        | .text "enum" => return .utf8
        | .text "fixed" => fixedType path (.object members)
        | _ => typeOf path type
  | other => .error (.malformed path (.unexpectedNode other))
termination_by sizeOf node
decreasing_by
  · rw [Value.array.sizeOf_spec]; omega
  · rw [Value.array.sizeOf_spec] at this; omega
  · exact this
  · exact this
  · exact this

/-- The fields of the record at `path`, in order. -/
def fieldsOf (path : String) (fields : List Value) : Except Fault (List Field) :=
  match fields with
  | [] => .ok []
  | field :: rest =>
    match (field.member? "name").bind Value.text? with
    | none => .error (.malformed path .unnamedField)
    | some name =>
      match h : field.member? "type" with
      | none => .error (.malformed (child path name) .untypedField)
      | some type => do
        have := sizeOf_member h
        let t ← typeOf (child path name) type
        return ⟨lower name, t, true⟩ :: (← fieldsOf path rest)
termination_by sizeOf fields
decreasing_by
  · rw [List.cons.sizeOf_spec]; omega
  · rw [List.cons.sizeOf_spec]; omega

end

/-- What a schema node is called when it is no record. -/
def found (node : Value) : String :=
  match node with
  | .text s => s
  | .object _ =>
    match node.member? "type" with
    | some type => type.render
    | none => "object without type"
  | other => other.render

/-- The fields of the record that a JSON text describes. -/
def recordFields (literal : String) : Except Fault (List Field) :=
  match Value.ofString? literal with
  | none => .error .invalidJson
  | some node =>
    if (node.member? "type").bind Value.text? = some "record" then
      match node.member? "fields" with
      | some (.array fields) => fieldsOf "" fields
      | _ => .error (.malformed "" .missingFields)
    else .error (.notARecord (found node))

end TableScan.AvroSchema
