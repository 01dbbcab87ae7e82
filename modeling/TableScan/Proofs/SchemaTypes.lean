/-
  TableScan.Proofs.SchemaTypes — the types that column properties and Avro schemas both have.

  - `HasSchema`: a type that an Avro schema can name. Timestamps, small integers and texts of a
    declared length have none, and neither has a map whose keys are no strings.
  - `Describes`: a node is a schema of a type. Members that say nothing about the type, such as a
    default, may stand beside the others, so a type has many schemas; `schemaOf` is one of them.
  - `Describes.typeOf`: whichever it is, it is converted to what the type itself is converted to.
-/

import TableScan.AvroSchema
import TableScan.ColumnType.DataType
import TableScan.Proofs.FreeValues

namespace TableScan

open TableScan.Json TableScan.Text

/-! ## Types with a schema -/

def isNameHead (c : Char) : Bool := c.isAlpha || c == '_'

def isNameChar (c : Char) : Bool := c.isAlphanum || c == '_'

/-- A letter or underscore, and letters, digits and underscores behind it. -/
def isAvroName : List Char → Bool
  | [] => false
  | c :: rest => isNameHead c && rest.all isNameChar

mutual

def ColumnType.HasSchema : ColumnType → Prop
  | .void | .boolean | .int | .bigint | .float | .double | .string | .binary | .date => True
  | .decimal p s => 1 ≤ p ∧ p ≤ 38 ∧ s ≤ p
  | .array t => t.HasSchema
  | .map k v => k = .string ∧ v.HasSchema
  | .struct fields => ColumnType.FieldsHaveSchema fields
  | .tinyint | .smallint | .timestamp | .varchar _ | .char _ => False

def ColumnType.FieldsHaveSchema : List (String × ColumnType) → Prop
  | [] => True
  | (name, t) :: rest => isAvroName name.toList = true ∧ t.HasSchema ∧ ColumnType.FieldsHaveSchema rest

end

namespace AvroSchema

/-! ## Schemas of a type -/

/-- The types that are a name alone in both notations. -/
def namedTypes : List (String × ColumnType) :=
  [("null", .void), ("boolean", .boolean), ("int", .int), ("long", .bigint), ("float", .float), ("double", .double),
    ("string", .string), ("bytes", .binary)]

mutual

inductive Describes : Value → ColumnType → Prop
  | named {name : String} {t : ColumnType} : (name, t) ∈ namedTypes → Describes (.text name) t
  | date {node : Value} : node.member? "type" = some (.text "int") →
      node.member? "logicalType" = some (.text "date") → Describes node .date
  | decimal {node : Value} {p s : UInt8} : node.member? "type" = some (.text "bytes") →
      node.member? "logicalType" = some (.text "decimal") → node.member? "precision" = some (.int p.toNat) →
      node.member? "scale" = some (.int s.toNat) → 1 ≤ p → p ≤ 38 → s ≤ p → Describes node (.decimal p s)
  | array {node items : Value} {t : ColumnType} : node.member? "type" = some (.text "array") →
      node.member? "items" = some items → Describes items t → Describes node (.array t)
  | map {node values : Value} {t : ColumnType} : node.member? "type" = some (.text "map") →
      node.member? "values" = some values → Describes values t → Describes node (.map .string t)
  | record {node : Value} {fields : List Value} {columns : List (String × ColumnType)} :
      node.member? "type" = some (.text "record") → node.member? "fields" = some (.array fields) →
      DescribesFields fields columns → Describes node (.struct columns)

inductive DescribesFields : List Value → List (String × ColumnType) → Prop
  | nil : DescribesFields [] []
  | cons {field node : Value} {rest : List Value} {name : String} {t : ColumnType}
      {columns : List (String × ColumnType)} : field.member? "name" = some (.text name) →
      field.member? "type" = some node → Describes node t → DescribesFields rest columns →
      DescribesFields (field :: rest) ((name, t) :: columns)

end

/-! ## What a schema is converted to -/

variable {path : String} {node : Value}

theorem logicalType_date (htype : node.member? "type" = some (.text "int"))
    (hlogical : node.member? "logicalType" = some (.text "date")) : logicalType path node = .ok (some .date32) := by
  simp [logicalType, htype, hlogical, Value.text?]

theorem naturalMember?_natural {key : String} {n : Nat} (h : node.member? key = some (.int n)) :
    naturalMember? node key = some (n : Int) := by
  simp [naturalMember?, h, Value.int?]

/-- A byte read as a signed one, by the number it stands for. -/
theorem ofInt_toNat (s : UInt8) : Int8.ofInt s.toNat = s.toInt8 := by
  refine Int8.toBitVec_inj.mp ?_
  rw [Int8.toBitVec_ofInt, BitVec.ofInt_natCast, UInt8.toBitVec_toInt8, ← UInt8.toNat_toBitVec, BitVec.ofNat_toNat,
    BitVec.setWidth_eq]

/-- No scale of a decimal is lost when its byte is taken for a signed one. -/
theorem decimalType_bytes {p s : UInt8} (hp : node.member? "precision" = some (.int p.toNat))
    (hs : node.member? "scale" = some (.int s.toNat)) (h1 : 1 ≤ p) (h2 : p ≤ 38) (h3 : s ≤ p) :
    decimalType path node = .ok (ColumnType.decimal p s).dataType := by
  have h1 : 1 ≤ p.toNat := h1
  have h2 : p.toNat ≤ 38 := h2
  have h3 : s.toNat ≤ p.toNat := h3
  have hrange : ¬ ((p.toNat : Int) = 0 ∨ 38 < (p.toNat : Int) ∨ (p.toNat : Int) < s.toNat) := by omega
  unfold decimalType
  rw [naturalMember?_natural hp, naturalMember?_natural hs]
  show (if (p.toNat : Int) = 0 ∨ 38 < (p.toNat : Int) ∨ (p.toNat : Int) < s.toNat then _ else _) = _
  rw [if_neg hrange, Int.toNat_natCast, UInt8.ofNat_toNat, Option.getD_some, ofInt_toNat]
  rfl

theorem logicalType_decimal {p s : UInt8} (htype : node.member? "type" = some (.text "bytes"))
    (hlogical : node.member? "logicalType" = some (.text "decimal"))
    (hp : node.member? "precision" = some (.int p.toNat)) (hs : node.member? "scale" = some (.int s.toNat))
    (h1 : 1 ≤ p) (h2 : p ≤ 38) (h3 : s ≤ p) :
    logicalType path node = .ok (some (ColumnType.decimal p s).dataType) := by
  simp [logicalType, htype, hlogical, Value.text?, decimalType_bytes hp hs h1 h2 h3, Except.map]

/-- Containers and records have no logical type that goes with them. -/
theorem logicalType_none {base : String} (htype : node.member? "type" = some (.text base))
    (hbase : base ∈ ["array", "map", "record"]) : logicalType path node = .ok none := by
  simp only [List.mem_cons, List.not_mem_nil, or_false] at hbase
  unfold logicalType
  rw [htype]
  rcases hbase with rfl | rfl | rfl <;> split <;> simp_all [Value.text?]

theorem typeOf_refined {type : Value} {t : DataType} (htype : node.member? "type" = some type)
    (hlogical : logicalType path node = .ok (some t)) : typeOf path node = .ok t := by
  cases node with
  | object members =>
    rw [typeOf]
    split
    · rename_i hnone
      cases hnone.symm.trans htype
    · rw [hlogical]
      rfl
  | _ => cases htype

/-- What a node is converted to by its member `type`, when no logical type refines it. -/
def unrefined (path : String) (node type : Value) : Except Fault DataType :=
  match type with
  | .text "record" =>
    match node.member? "fields" with
    | some (.array fields) => (fieldsOf path fields).map .struct
    | _ => .error (.malformed path .missingFields)
  | .text "array" =>
    match node.member? "items" with
    | some items => (typeOf (child path "item") items).map .listOf
    | none => .error (.malformed path .missingItems)
  | .text "map" =>
    match node.member? "values" with
    | some values => (typeOf (child path "value") values).map (.mapOf .utf8)
    | none => .error (.malformed path .missingValues)
  | .text "enum" => .ok .utf8
  | .text "fixed" => fixedType path node
  | _ => typeOf path type

theorem typeOf_unrefined {type : Value} (htype : node.member? "type" = some type)
    (hlogical : logicalType path node = .ok none) : typeOf path node = unrefined path node type := by
  cases node with
  | object members =>
    rw [typeOf]
    split
    · rename_i hnone
      cases hnone.symm.trans htype
    · rename_i type' htype'
      obtain rfl := Option.some.inj (htype'.symm.trans htype)
      rw [hlogical]
      dsimp only [bind, Except.bind]
      split
      · rw [unrefined]
        split <;> rename_i hfields <;> simp only [hfields] <;> rfl
      · rw [unrefined]
        split <;> rename_i hitems <;> simp only [hitems] <;> rfl
      · rw [unrefined]
        split <;> rename_i hvalues <;> simp only [hvalues] <;> rfl
      · rfl
      · rfl
      · rw [unrefined] <;> assumption
  | _ => cases htype

mutual

/-- A schema of a type is converted to what the type is converted to, wherever it stands. -/
theorem Describes.typeOf {node : Value} {t : ColumnType} (h : Describes node t) (path : String) :
    typeOf path node = .ok t.dataType := by
  cases h with
  | named hname =>
    simp only [namedTypes, List.mem_cons, List.not_mem_nil, or_false, Prod.mk.injEq] at hname
    rw [AvroSchema.typeOf]
    rcases hname with h | h | h | h | h | h | h | h <;> obtain ⟨rfl, rfl⟩ := h <;> rfl
  | date htype hlogical => exact typeOf_refined htype (logicalType_date htype hlogical)
  | decimal htype hlogical hp hs h1 h2 h3 =>
    exact typeOf_refined htype (logicalType_decimal htype hlogical hp hs h1 h2 h3)
  | array htype hitems hdescribes =>
    rw [typeOf_unrefined htype (logicalType_none htype (by simp)), unrefined, hitems]
    simp only [hdescribes.typeOf, Except.map, ColumnType.dataType]
  | map htype hvalues hdescribes =>
    rw [typeOf_unrefined htype (logicalType_none htype (by simp)), unrefined, hvalues]
    simp only [hdescribes.typeOf, Except.map, ColumnType.dataType]
  | record htype hfields hdescribes =>
    rw [typeOf_unrefined htype (logicalType_none htype (by simp)), unrefined, hfields]
    simp only [hdescribes.fieldsOf, Except.map, ColumnType.dataType]

theorem DescribesFields.fieldsOf {fields : List Value} {columns : List (String × ColumnType)}
    (h : DescribesFields fields columns) (path : String) :
    fieldsOf path fields = .ok (ColumnType.fieldTypes columns) := by
  cases h with
  | nil => rw [AvroSchema.fieldsOf, ColumnType.fieldTypes]
  | cons hname htype hdescribes hrest =>
    rw [AvroSchema.fieldsOf, hname]
    dsimp only [Option.bind_some, Value.text?]
    split
    · rename_i hnone
      cases hnone.symm.trans htype
    · rename_i node' htype'
      obtain rfl := Option.some.inj (htype'.symm.trans htype)
      rw [hdescribes.typeOf, hrest.fieldsOf, ColumnType.fieldTypes]
      rfl

end

/-! ## A schema of each type -/

mutual

/-- A record is named by the path to it, so that no two of them go by one name. -/
def schemaOf (path : String) : ColumnType → Value
  | .void => .text "null"
  | .boolean => .text "boolean"
  | .int => .text "int"
  | .bigint => .text "long"
  | .float => .text "float"
  | .double => .text "double"
  | .string => .text "string"
  | .binary => .text "bytes"
  | .date => .object [("logicalType", .text "date"), ("type", .text "int")]
  | .decimal p s => .object [("logicalType", .text "decimal"), ("precision", .int p.toNat), ("scale", .int s.toNat),
      ("type", .text "bytes")]
  | .array t => .object [("items", schemaOf (child path "item") t), ("type", .text "array")]
  | .map _ v => .object [("type", .text "map"), ("values", schemaOf (child path "value") v)]
  | .struct columns => .object [("fields", .array (fieldSchemas path columns)), ("name", .text path),
      ("type", .text "record")]
  | .tinyint | .smallint | .timestamp | .varchar _ | .char _ => .null

def fieldSchemas (path : String) : List (String × ColumnType) → List Value
  | [] => []
  | (name, t) :: rest =>
    .object [("name", .text name), ("type", schemaOf (child path name) t)] :: fieldSchemas path rest

end

mutual

theorem describes_schemaOf : ∀ {t : ColumnType} (path : String), t.HasSchema → Describes (schemaOf path t) t
  | .void, _, _ | .boolean, _, _ | .int, _, _ | .bigint, _, _ | .float, _, _ | .double, _, _ | .string, _, _
  | .binary, _, _ => .named (by simp [namedTypes])
  | .date, _, _ => .date rfl rfl
  | .decimal p s, _, h => .decimal rfl rfl rfl rfl h.1 h.2.1 h.2.2
  | .array t, path, h => .array rfl rfl (describes_schemaOf (child path "item") h)
  | .map k v, path, h => by
    obtain ⟨rfl, hv⟩ := h
    exact .map rfl rfl (describes_schemaOf (child path "value") hv)
  | .struct columns, path, h => .record rfl rfl (describes_fieldSchemas path h)

theorem describes_fieldSchemas : ∀ {columns : List (String × ColumnType)} (path : String),
    ColumnType.FieldsHaveSchema columns → DescribesFields (fieldSchemas path columns) columns
  | [], _, _ => .nil
  | (name, _) :: _, path, h =>
    .cons rfl rfl (describes_schemaOf (child path name) h.2.1) (describes_fieldSchemas path h.2.2)

end

theorem wellFormed_byte (n : UInt8) : (Value.int n.toNat).WellFormed False := by
  have hn : n.toNat < 256 := n.toNat_lt
  have hlow : Int64.minValue.toInt ≤ 0 := by decide
  have hhigh : (256 : Int) ≤ (UInt64.size : Nat) := by decide
  exact .int (by omega) (by omega)

theorem wellFormed_object {members : List (String × Value)} (keys : List String) (hkeys : members.map Prod.fst = keys)
    (hascending : keys.Pairwise fun a b => compare a b = .lt) (h : ∀ v ∈ members.map Prod.snd, v.WellFormed False) :
    (Value.object members).WellFormed False := by
  subst hkeys
  exact .object (List.pairwise_map.mp hascending) fun m hm => h _ (List.mem_map_of_mem hm)

mutual

theorem wellFormed_schemaOf : ∀ (path : String) (t : ColumnType), (schemaOf path t).WellFormed False
  | _, .void | _, .boolean | _, .int | _, .bigint | _, .float | _, .double | _, .string | _, .binary => .text _
  | _, .tinyint | _, .smallint | _, .timestamp | _, .varchar _ | _, .char _ => .null
  | _, .date => wellFormed_object ["logicalType", "type"] rfl (by decide) (by simp [Value.WellFormed.text])
  | _, .decimal p s =>
    wellFormed_object ["logicalType", "precision", "scale", "type"] rfl (by decide)
      (by simp [Value.WellFormed.text, wellFormed_byte])
  | path, .array t =>
    wellFormed_object ["items", "type"] rfl (by decide)
      (by simp [Value.WellFormed.text, wellFormed_schemaOf (child path "item") t])
  | path, .map _ v =>
    wellFormed_object ["type", "values"] rfl (by decide)
      (by simp [Value.WellFormed.text, wellFormed_schemaOf (child path "value") v])
  | path, .struct columns =>
    wellFormed_object ["fields", "name", "type"] rfl (by decide)
      (by simp [Value.WellFormed.text, Value.WellFormed.array (wellFormed_fieldSchemas path columns)])

theorem wellFormed_fieldSchemas : ∀ (path : String) (columns : List (String × ColumnType)),
    ∀ v ∈ fieldSchemas path columns, v.WellFormed False
  | _, [] => List.forall_mem_nil _
  | path, (name, t) :: rest =>
    List.forall_mem_cons.mpr ⟨wellFormed_object ["name", "type"] rfl (by decide)
      (by simp [Value.WellFormed.text, wellFormed_schemaOf (child path name) t]), wellFormed_fieldSchemas path rest⟩

end

end AvroSchema

end TableScan
