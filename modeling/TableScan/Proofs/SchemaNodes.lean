/-
  TableScan.Proofs.SchemaNodes — the schemas inside a schema, and the types inside a type.

  A schema is converted by way of others: the branch of a union, a schema in the place of a type
  name, the items of an array, the values of a map, the types of the fields of a record.
  `Inside` says which these are and at which path each of them stands, so that the schemas at
  any depth are the places to which it leads in some number of steps (`Reaches`). On the other
  side `DataType.Holds` says which types stand in a type.

  - `converted_of_typeOf`: how a schema came by its type, told by the outermost form of the
    schema. Whatever is true of all types that are derived is proved by these cases.
  - `Reaches.accepted`: in an accepted schema every schema is accepted, and its type is there.
  - `recordFields_eq_ok`: the fields of a text are those of the struct that its record is
    converted to; `recordOf` is a record with one field of any type.
-/

import Mathlib.Data.List.Forall2
import Mathlib.Logic.Relation
import TableScan.Proofs.SchemaTypes

namespace TableScan

open TableScan.Json TableScan.Text

/-! ## Types inside a type -/

/-- The second type is the first one, or stands in it. The struct that pairs the keys of a map with its values is
passed over. -/
inductive DataType.Holds : DataType → DataType → Prop
  | self {t : DataType} : Holds t t
  | item {f : Field} {u : DataType} : Holds f.type u → Holds (.list f) u
  | entry {name : String} {entries : List Field} {nullable sorted : Bool} {f : Field} {u : DataType} : f ∈ entries →
      Holds f.type u → Holds (.map ⟨name, .struct entries, nullable⟩ sorted) u
  | field {fields : List Field} {f : Field} {u : DataType} : f ∈ fields → Holds f.type u → Holds (.struct fields) u

namespace DataType

variable {t u v k : DataType}

theorem Holds.trans (h : t.Holds u) (hv : u.Holds v) : t.Holds v := by
  induction h with
  | self => exact hv
  | item _ ih => exact .item (ih hv)
  | entry hf _ ih => exact .entry hf (ih hv)
  | field hf _ ih => exact .field hf (ih hv)

theorem holds_listOf : (listOf t).Holds u ↔ u = listOf t ∨ t.Holds u := by
  constructor
  · intro h
    cases h with
    | self => exact .inl rfl
    | item h => exact .inr h
  · rintro (rfl | h)
    · exact .self
    · exact .item h

theorem holds_mapOf : (mapOf k v).Holds u ↔ u = mapOf k v ∨ k.Holds u ∨ v.Holds u := by
  constructor
  · intro h
    cases h with
    | self => exact .inl rfl
    | entry hf h =>
      simp only [List.mem_cons, List.not_mem_nil, or_false] at hf
      rcases hf with rfl | rfl
      · exact .inr (.inl h)
      · exact .inr (.inr h)
  · rintro (rfl | h | h)
    · exact .self
    · exact .entry (List.mem_cons_self ..) h
    · exact .entry (List.mem_cons_of_mem _ (List.mem_cons_self ..)) h

theorem holds_struct {fields : List Field} :
    (struct fields).Holds u ↔ u = struct fields ∨ ∃ f ∈ fields, f.type.Holds u := by
  constructor
  · intro h
    cases h with
    | self => exact .inl rfl
    | field hf h => exact .inr ⟨_, hf, h⟩
  · rintro (rfl | ⟨f, hf, h⟩)
    · exact .self
    · exact .field hf h

end DataType

namespace AvroSchema

/-! ## What a schema is converted to, form by form -/

variable {path : String} {node : Value}

theorem text_member_iff {key name : String} :
    (node.member? key).bind Value.text? = some name ↔ node.member? key = some (.text name) := by
  cases h : node.member? key with
  | none => simp
  | some v => cases v <;> simp [Value.text?]

theorem int_member_iff {key : String} {n : Int} :
    (node.member? key).bind Value.int? = some n ↔ node.member? key = some (.int n) := by
  cases h : node.member? key with
  | none => simp
  | some v => cases v <;> simp [Value.int?]

/-- A logical type that goes with its type and is malformed makes the node so. -/
theorem typeOf_misrefined {type : Value} {e : Fault} (htype : node.member? "type" = some type)
    (hlogical : logicalType path node = .error e) : typeOf path node = .error e := by
  cases node with
  | object members =>
    rw [typeOf]
    split
    · rename_i hnone
      cases hnone.symm.trans htype
    · rw [hlogical]
      rfl
  | _ => cases htype

theorem typeOf_union (branches : List Value) :
    typeOf path (.array branches) = match branches.filter (!isNullName ·) with
      | [] => .ok .null
      | [branch] => typeOf path branch
      | wide => .error (.wideUnion path wide.length) := by
  rw [typeOf]
  split <;> rename_i h <;> simp only [h]

theorem fieldsOf_cons (field : Value) (rest : List Value) :
    fieldsOf path (field :: rest) = match (field.member? "name").bind Value.text?, field.member? "type" with
      | none, _ => .error (.malformed path .unnamedField)
      | some name, none => .error (.malformed (child path name) .untypedField)
      | some name, some type => do
        let t ← typeOf (child path name) type
        return ⟨lower name, t, true⟩ :: (← fieldsOf path rest) := by
  rw [fieldsOf]
  split
  · rename_i hname
    rw [hname]
  · rename_i name hname
    rw [hname]
    split <;> rename_i htype <;> simp only [htype]

/-- Each item of a list has one to which it is related. -/
theorem exists_of_mem_left {α β : Type} {r : α → β → Prop} {xs : List α} {ys : List β} (h : List.Forall₂ r xs ys)
    {x : α} (hx : x ∈ xs) : ∃ y ∈ ys, r x y := by
  induction h with
  | nil => cases hx
  | cons hfirst _ ih =>
    rcases List.mem_cons.mp hx with rfl | hx
    · exact ⟨_, List.mem_cons_self .., hfirst⟩
    · obtain ⟨y, hy, hr⟩ := ih hx
      exact ⟨y, List.mem_cons_of_mem _ hy, hr⟩

theorem exists_of_mem_right {α β : Type} {r : α → β → Prop} {xs : List α} {ys : List β} (h : List.Forall₂ r xs ys)
    {y : β} (hy : y ∈ ys) : ∃ x ∈ xs, r x y :=
  exists_of_mem_left (r := flip r) h.flip hy

/-- What a field of the record at `path` becomes. -/
inductive FieldBecomes (path : String) (field : Value) : Field → Prop
  | of_members {name : String} {type : Value} {t : DataType} : field.member? "name" = some (.text name) →
      field.member? "type" = some type → typeOf (child path name) type = .ok t →
      FieldBecomes path field ⟨lower name, t, true⟩

/-- Each field by itself. -/
theorem fieldsOf_eq_ok : ∀ {fields : List Value} {columns : List Field},
    fieldsOf path fields = .ok columns ↔ List.Forall₂ (FieldBecomes path) fields columns
  | [], columns => by
    rw [fieldsOf]
    constructor
    · intro h
      cases h
      exact .nil
    · intro h
      cases h
      rfl
  | field :: rest, columns => by
    have ih := @fieldsOf_eq_ok rest
    rw [fieldsOf_cons]
    constructor
    · intro h
      split at h
      · cases h
      · cases h
      · rename_i name type hname htype
        cases ht : typeOf (child path name) type with
        | error e =>
          rw [ht] at h
          cases h
        | ok t =>
          cases hrest : fieldsOf path rest with
          | error e =>
            rw [ht, hrest] at h
            cases h
          | ok more =>
            rw [ht, hrest] at h
            cases h
            exact .cons (.of_members (text_member_iff.mp hname) htype ht) (ih.mp hrest)
    · intro h
      cases h with
      | cons hfield hrest =>
        cases hfield with
        | of_members hname htype ht =>
          rw [hname, htype]
          show (typeOf _ _ >>= _) = _
          rw [ht, ih.mpr hrest]
          rfl

/-! ## Schemas inside a schema -/

/-- A schema, and the path at which it stands. -/
abbrev Place := String × Value

/-- The second schema stands next in the first one. -/
inductive Inside : Place → Place → Prop
  | branch {path : String} {branches : List Value} {branch : Value} : branch ∈ branches →
      isNullName branch = false → Inside (path, .array branches) (path, branch)
  | plain {path : String} {node type : Value} : node.member? "type" = some type → type.text? = none →
      Inside (path, node) (path, type)
  | items {path : String} {node items : Value} : node.member? "type" = some (.text "array") →
      node.member? "items" = some items → Inside (path, node) (child path "item", items)
  | values {path : String} {node values : Value} : node.member? "type" = some (.text "map") →
      node.member? "values" = some values → Inside (path, node) (child path "value", values)
  | field {path name : String} {node field type : Value} {fields : List Value} :
      node.member? "type" = some (.text "record") → node.member? "fields" = some (.array fields) → field ∈ fields →
      field.member? "name" = some (.text name) → field.member? "type" = some type →
      Inside (path, node) (child path name, type)

/-- The second schema stands in the first one at some depth, or is the first one. -/
abbrev Reaches : Place → Place → Prop := Relation.ReflTransGen Inside

theorem Inside.sizeOf_lt {a b : Place} (h : Inside a b) : sizeOf b.2 < sizeOf a.2 := by
  cases h with
  | @branch _ branches branch hmem _ =>
    have := List.sizeOf_lt_of_mem hmem
    show sizeOf branch < sizeOf (Value.array branches)
    rw [Value.array.sizeOf_spec]
    omega
  | plain htype _ => exact sizeOf_member htype
  | items _ hitems => exact sizeOf_member hitems
  | values _ hvalues => exact sizeOf_member hvalues
  | @field _ _ node _ type _ _ hfields hfield _ htype =>
    have hlist := sizeOf_member hfields
    have := List.sizeOf_lt_of_mem hfield
    have := sizeOf_member htype
    rw [Value.array.sizeOf_spec] at hlist
    show sizeOf type < sizeOf node
    omega

theorem logicalType_plain {type : Value} (htype : node.member? "type" = some type) (htext : type.text? = none) :
    logicalType path node = .ok none := by
  unfold logicalType
  rw [htype, Option.bind_some, htext]
  split <;> simp_all

/-- A schema in the place of a type name is the type. -/
theorem typeOf_plain {type : Value} (htype : node.member? "type" = some type) (htext : type.text? = none) :
    typeOf path node = typeOf path type := by
  rw [typeOf_unrefined htype (logicalType_plain htype htext)]
  cases type <;> first | rfl | cases htext

theorem map_eq_ok {ε α β : Type} {x : Except ε α} {f : α → β} {b : β} :
    x.map f = .ok b ↔ ∃ a, x = .ok a ∧ f a = b := by
  cases x <;> simp [Except.map]

theorem typeOf_array_eq_ok {t : DataType} (htype : node.member? "type" = some (.text "array")) :
    typeOf path node = .ok t ↔ ∃ items u, node.member? "items" = some items ∧
      typeOf (child path "item") items = .ok u ∧ .listOf u = t := by
  rw [typeOf_unrefined htype (logicalType_none htype (by simp)), unrefined]
  cases node.member? "items" with
  | none => simp
  | some items => simp [map_eq_ok]

theorem typeOf_map_eq_ok {t : DataType} (htype : node.member? "type" = some (.text "map")) :
    typeOf path node = .ok t ↔ ∃ values u, node.member? "values" = some values ∧
      typeOf (child path "value") values = .ok u ∧ .mapOf .utf8 u = t := by
  rw [typeOf_unrefined htype (logicalType_none htype (by simp)), unrefined]
  cases node.member? "values" with
  | none => simp
  | some values => simp [map_eq_ok]

theorem typeOf_record_eq_ok {t : DataType} (htype : node.member? "type" = some (.text "record")) :
    typeOf path node = .ok t ↔ ∃ fields columns, node.member? "fields" = some (.array fields) ∧
      List.Forall₂ (FieldBecomes path) fields columns ∧ .struct columns = t := by
  rw [typeOf_unrefined htype (logicalType_none htype (by simp)), unrefined]
  split
  · rename_i fields hfields
    simp [hfields, map_eq_ok, fieldsOf_eq_ok]
  · rename_i hfields
    constructor
    · intro h
      cases h
    · rintro ⟨fields, -, hmember, -⟩
      exact (hfields fields hmember).elim

/-- An accepted literal is a record that is converted to a struct. -/
theorem recordFields_eq_ok {literal : String} {columns : List Field} : recordFields literal = .ok columns ↔
    ∃ root, Value.ofString? literal = some root ∧ root.member? "type" = some (.text "record") ∧
      typeOf "" root = .ok (.struct columns) := by
  unfold recordFields
  cases hroot : Value.ofString? literal with
  | none => simp
  | some root =>
    show (if (root.member? "type").bind Value.text? = some "record" then _ else _) = _ ↔ _
    by_cases htype : root.member? "type" = some (.text "record")
    · rw [if_pos (text_member_iff.mpr htype)]
      simp only [Option.some.injEq, exists_eq_left', typeOf_record_eq_ok htype, htype, true_and]
      split
      · rename_i fields hfields
        simp [hfields, fieldsOf_eq_ok]
      · rename_i hfields
        constructor
        · intro h
          cases h
        · rintro ⟨fields, -, hmember, -⟩
          exact (hfields fields hmember).elim
    · rw [if_neg (mt text_member_iff.mp htype)]
      simp [htype]

theorem Inside.accepted {a b : Place} (h : Inside a b) {t : DataType} (ht : typeOf a.1 a.2 = .ok t) :
    ∃ u, typeOf b.1 b.2 = .ok u ∧ t.Holds u := by
  cases h with
  | @branch path branches branch hmem hname =>
    have hkept : branch ∈ branches.filter (!isNullName ·) := List.mem_filter.mpr ⟨hmem, by simp [hname]⟩
    replace ht : typeOf path (.array branches) = .ok t := ht
    rw [typeOf_union] at ht
    split at ht
    · rename_i hnone
      rw [hnone] at hkept
      cases hkept
    · rename_i only hone
      rw [hone] at hkept
      obtain rfl := List.mem_singleton.mp hkept
      exact ⟨t, ht, .self⟩
    · cases ht
  | plain htype htext => exact ⟨t, (typeOf_plain htype htext).symm.trans ht, .self⟩
  | items htype hitems =>
    obtain ⟨items, u, hmember, hu, rfl⟩ := (typeOf_array_eq_ok htype).mp ht
    obtain rfl := Option.some.inj (hitems.symm.trans hmember)
    exact ⟨u, hu, .item .self⟩
  | values htype hvalues =>
    obtain ⟨values, u, hmember, hu, rfl⟩ := (typeOf_map_eq_ok htype).mp ht
    obtain rfl := Option.some.inj (hvalues.symm.trans hmember)
    exact ⟨u, hu, DataType.holds_mapOf.mpr (.inr (.inr .self))⟩
  | field htype hfields hfield hname hmember =>
    obtain ⟨fields, columns, hfields', hcolumns, rfl⟩ := (typeOf_record_eq_ok htype).mp ht
    obtain rfl := Value.array.inj (Option.some.inj (hfields.symm.trans hfields'))
    obtain ⟨f, hf, hbecomes⟩ := exists_of_mem_left hcolumns hfield
    cases hbecomes with
    | of_members hname' hmember' hu =>
      obtain rfl := Value.text.inj (Option.some.inj (hname'.symm.trans hname))
      obtain rfl := Option.some.inj (hmember'.symm.trans hmember)
      exact ⟨_, hu, .field hf .self⟩

/-- In an accepted schema every schema is accepted, and its type is there. -/
theorem Reaches.accepted {a b : Place} (h : Reaches a b) {t : DataType} (ht : typeOf a.1 a.2 = .ok t) :
    ∃ u, typeOf b.1 b.2 = .ok u ∧ t.Holds u := by
  induction h with
  | refl => exact ⟨t, ht, .self⟩
  | tail _ hstep ih =>
    obtain ⟨u, hu, hholds⟩ := ih
    obtain ⟨v, hv, hlast⟩ := hstep.accepted hu
    exact ⟨v, hv, hholds.trans hlast⟩

/-- How a schema came by its type, by the outermost form of the schema. -/
inductive Converted (path : String) (node : Value) : DataType → Prop
  | named {name : String} {t : DataType} : primitive path name = .ok t → Converted path node t
  | nulls : Converted path node .null
  | refined {t : DataType} : logicalType path node = .ok (some t) → Converted path node t
  | enum : Converted path node .utf8
  | fixed {t : DataType} : node.member? "type" = some (.text "fixed") → fixedType path node = .ok t →
      Converted path node t
  | alike {b : Place} {t : DataType} : Inside (path, node) b → typeOf b.1 b.2 = .ok t → Converted path node t
  | items {b : Place} {t : DataType} : Inside (path, node) b → typeOf b.1 b.2 = .ok t → Converted path node (.listOf t)
  | values {b : Place} {t : DataType} : Inside (path, node) b → typeOf b.1 b.2 = .ok t →
      Converted path node (.mapOf .utf8 t)
  | fields {columns : List Field} :
      (∀ f ∈ columns, f.nullable = true ∧ ∃ b, Inside (path, node) b ∧ typeOf b.1 b.2 = .ok f.type) →
      Converted path node (.struct columns)

theorem converted_of_unrefined {type : Value} {t : DataType} (htype : node.member? "type" = some type)
    (ht : unrefined path node type = .ok t) : Converted path node t := by
  unfold unrefined at ht
  split at ht
  · split at ht
    · rename_i fields hfields
      obtain ⟨columns, hcolumns, rfl⟩ := map_eq_ok.mp ht
      refine .fields fun f hf => ?_
      obtain ⟨field, hfield, hbecomes⟩ := exists_of_mem_right (fieldsOf_eq_ok.mp hcolumns) hf
      cases hbecomes with
      | of_members hname hmember hu => exact ⟨rfl, _, .field htype hfields hfield hname hmember, hu⟩
    · cases ht
  · split at ht
    · rename_i items hitems
      obtain ⟨u, hu, rfl⟩ := map_eq_ok.mp ht
      exact .items (.items htype hitems) hu
    · cases ht
  · split at ht
    · rename_i values hvalues
      obtain ⟨u, hu, rfl⟩ := map_eq_ok.mp ht
      exact .values (.values htype hvalues) hu
    · cases ht
  · cases ht
    exact .enum
  · exact .fixed htype ht
  · by_cases htext : type.text? = none
    · exact .alike (.plain htype htext) ht
    · cases type with
      | text name =>
        rw [typeOf] at ht
        exact .named ht
      | _ => exact absurd rfl htext

theorem converted_of_typeOf {t : DataType} (ht : typeOf path node = .ok t) : Converted path node t := by
  cases node with
  | text name =>
    rw [typeOf] at ht
    exact .named ht
  | array branches =>
    rw [typeOf_union] at ht
    split at ht
    · cases ht
      exact .nulls
    · rename_i branch hone
      have hmem : branch ∈ branches.filter (!isNullName ·) := hone ▸ List.mem_singleton_self branch
      obtain ⟨hbranch, hname⟩ := List.mem_filter.mp hmem
      exact .alike (.branch hbranch (by simpa using hname)) ht
    · cases ht
  | object members =>
    cases htype : (Value.object members).member? "type" with
    | none =>
      rw [typeOf] at ht
      split at ht
      · cases ht
      · rename_i type hsome
        cases htype.symm.trans hsome
    | some type =>
      cases hlogical : logicalType path (.object members) with
      | error e =>
        rw [typeOf_misrefined htype hlogical] at ht
        cases ht
      | ok refined =>
        cases refined with
        | some u =>
          rw [typeOf_refined htype hlogical] at ht
          cases ht
          exact .refined hlogical
        | none =>
          rw [typeOf_unrefined htype hlogical] at ht
          exact converted_of_unrefined htype ht
  | _ =>
    rw [typeOf] at ht
    · cases ht
    all_goals simp

/-! ## Records of one field -/

/-- A record with one field of this type. -/
def recordOf (type : Value) : Value :=
  .object [("fields", .array [.object [("name", .text "v"), ("type", type)]]), ("name", .text "r"),
    ("type", .text "record")]

theorem reaches_recordOf (type : Value) : Reaches ("", recordOf type) ("v", type) :=
  .single (.field rfl rfl (List.mem_singleton_self _) rfl rfl)

theorem wellFormed_recordOf {type : Value} (htype : type.WellFormed False) : (recordOf type).WellFormed False := by
  have hfield : (Value.object [("name", .text "v"), ("type", type)]).WellFormed False :=
    wellFormed_object ["name", "type"] rfl (by decide) (by simp [Value.WellFormed.text, htype])
  exact wellFormed_object ["fields", "name", "type"] rfl (by decide)
    (by simp [Value.WellFormed.text, Value.WellFormed.array, hfield])

theorem ofString?_recordOf {type : Value} (htype : type.WellFormed False)
    (hnesting : (recordOf type).nesting ≤ nestingLimit) :
    Value.ofString? (recordOf type).render = some (recordOf type) :=
  (wellFormed_recordOf htype).ofString?_render hnesting

theorem recordFields_recordOf {type : Value} {t : DataType} (htype : type.WellFormed False)
    (hnesting : (recordOf type).nesting ≤ nestingLimit) (ht : typeOf "v" type = .ok t) :
    recordFields (recordOf type).render = .ok [⟨lower "v", t, true⟩] := by
  refine recordFields_eq_ok.mpr ⟨_, ofString?_recordOf htype hnesting, rfl, (typeOf_record_eq_ok rfl).mpr ?_⟩
  exact ⟨_, _, rfl, .cons (.of_members rfl rfl ht) .nil, rfl⟩

end AvroSchema

end TableScan
