/-
  TableScan.Proofs.WrappedSchemas — schemas in wrappers, and layouts that do not see them.

  A union with null, a union of one branch and an object whose type is a schema stand for the
  schema in them (`Wraps`). Wherever a record, an array or a map says which type it is made of, such
  a form may take the place of the type, at any depth and again and again (`Rewraps`): the record
  is converted to the same fields. Each wrapper nests the text deeper, so all that can go wrong
  is that it is no longer read as JSON.

  - `Wraps.typeOf`: a wrapped schema is converted to the type of the schema in it.
  - `Rewraps.typeOf`: one replacement, by cases of where it is made.
  - `wrappers_keep_layout`: any number of them, from text to layout.
-/

import TableScan.Proofs.Drift
import TableScan.Proofs.SchemaNodes

namespace TableScan

open TableScan.Json TableScan.Text

namespace AvroSchema

/-! ## One wrapper -/

/-- The forms that say no more of a type than its schema does. -/
inductive Wraps (node : Value) : Value → Prop
  | nullFirst : Wraps node (.array [.text "null", node])
  | nullLast : Wraps node (.array [node, .text "null"])
  | alone : Wraps node (.array [node])
  | plain : Wraps node (.object [("type", node)])

variable {path : String} {node node' v v' w : Value} {t : DataType}

theorem eq_null_of_isNullName (h : isNullName node = true) : node = .text "null" := by
  have htext : node.text? = some "null" := beq_iff_eq.mp h
  cases node with
  | text name => rw [Option.some.inj htext]
  | _ => cases htext

/-- A union of a schema with nothing but null beside it. -/
theorem typeOf_union_of_filter {branches : List Value}
    (h : branches.filter (!isNullName ·) = [node].filter (!isNullName ·)) (ht : typeOf path node = .ok t) :
    typeOf path (.array branches) = .ok t := by
  rw [typeOf_union, h]
  cases hname : isNullName node with
  | false =>
    simp only [List.filter_cons, hname, Bool.not_false, if_true, List.filter_nil]
    exact ht
  | true =>
    rw [eq_null_of_isNullName hname, typeOf] at ht
    simp only [List.filter_cons, hname, Bool.not_true, Bool.false_eq_true, if_false, List.filter_nil]
    exact ht

/-- A name that is a type by itself is none of those that ask for more members. -/
theorem unrefined_named {name : String} (h : primitive path name = .ok t) :
    unrefined path node (.text name) = .ok t := by
  unfold primitive at h
  split at h <;> cases h <;> simp [unrefined, typeOf, primitive]

theorem Wraps.typeOf (h : Wraps node w) (ht : typeOf path node = .ok t) : typeOf path w = .ok t := by
  have hnull : isNullName (.text "null") = true := rfl
  cases h with
  | nullFirst => exact typeOf_union_of_filter (by simp [hnull]) ht
  | nullLast => exact typeOf_union_of_filter (by simp [List.filter_cons, hnull]) ht
  | alone => exact typeOf_union_of_filter rfl ht
  | plain =>
    have htype : (Value.object [("type", node)]).member? "type" = some node := rfl
    cases node with
    | text name =>
      rw [AvroSchema.typeOf] at ht
      rw [typeOf_unrefined htype rfl]
      exact unrefined_named ht
    | _ => rwa [typeOf_plain htype rfl]

/-! ## Wrappers inside a schema -/

/-- The objects have the same members but for one, which both have. -/
structure DiffersAt (key : String) (node node' v v' : Value) : Prop where
  before : node.member? key = some v
  after : node'.member? key = some v'
  others : ∀ other, other ≠ key → node'.member? other = node.member? other

mutual

/-- One type that a record, an array or a map in the schema is made of has been wrapped, or wrapped somewhere inside. -/
inductive Rewraps : Value → Value → Prop
  | branch {before after : List Value} {v v' : Value} : Rewraps v v' →
      Rewraps (.array (before ++ v :: after)) (.array (before ++ v' :: after))
  | plain {node node' v v' : Value} : DiffersAt "type" node node' v v' → Rewraps v v' → Rewraps node node'
  | items {node node' v v' : Value} : node.member? "type" = some (.text "array") →
      DiffersAt "items" node node' v v' → Replaced v v' → Rewraps node node'
  | values {node node' v v' : Value} : node.member? "type" = some (.text "map") →
      DiffersAt "values" node node' v v' → Replaced v v' → Rewraps node node'
  | field (before after : List Value) {node node' field field' v v' : Value} :
      node.member? "type" = some (.text "record") →
      DiffersAt "fields" node node' (.array (before ++ field :: after)) (.array (before ++ field' :: after)) →
      DiffersAt "type" field field' v v' → Replaced v v' → Rewraps node node'

/-- A type itself has been wrapped, or one inside it. -/
inductive Replaced : Value → Value → Prop
  | wrapped {v w : Value} : Wraps v w → Replaced v w
  | inside {v w : Value} : Rewraps v w → Replaced v w

end

theorem DiffersAt.type (h : DiffersAt key node node' v v') (hkey : "type" ≠ key) :
    node'.member? "type" = node.member? "type" :=
  h.others "type" hkey

/-- Another value in the place of one. -/
theorem differsAt_object (before : List (String × Value)) {after : List (String × Value)} {key : String}
    (hkey : before.lookup key = none) :
    DiffersAt key (.object (before ++ (key, v) :: after)) (.object (before ++ (key, v') :: after)) v v' := by
  constructor
  · simp [Value.member?, List.lookup_append, hkey]
  · simp [Value.member?, List.lookup_append, hkey]
  · intro other hother
    have hother : (other == key) = false := beq_eq_false_iff_ne.mpr hother
    simp [Value.member?, List.lookup_append, List.lookup_cons, hother]

theorem text?_of_member {key : String} (h : node.member? key = some v) : node.text? = none := by
  cases node with
  | text name => cases h
  | _ => rfl

/-- Only unions and objects have schemas inside. -/
theorem Rewraps.text? (h : Rewraps v v') : v.text? = none ∧ v'.text? = none := by
  cases h with
  | branch _ => exact ⟨rfl, rfl⟩
  | plain hdiffers _ => exact ⟨text?_of_member hdiffers.before, text?_of_member hdiffers.after⟩
  | items _ hdiffers _ | values _ hdiffers _ =>
    exact ⟨text?_of_member hdiffers.before, text?_of_member hdiffers.after⟩
  | field _ _ _ hdiffers _ _ => exact ⟨text?_of_member hdiffers.before, text?_of_member hdiffers.after⟩

/-- A branch that is no name is the only one but for nulls. -/
theorem typeOf_union_replaced {before after : List Value} (hv : v.text? = none) (hv' : v'.text? = none)
    (h : typeOf path v = .ok t → typeOf path v' = .ok t) (ht : typeOf path (.array (before ++ v :: after)) = .ok t) :
    typeOf path (.array (before ++ v' :: after)) = .ok t := by
  have hkept : ∀ u : Value, u.text? = none → (before ++ u :: after).filter (!isNullName ·) =
      before.filter (!isNullName ·) ++ u :: after.filter (!isNullName ·) := by
    intro u hu
    have hname : isNullName u = false := by
      unfold isNullName
      rw [hu]
      rfl
    simp [List.filter_append, hname]
  rw [typeOf_union, hkept v hv] at ht
  rw [typeOf_union, hkept v' hv']
  cases hbefore : before.filter (!isNullName ·) with
  | nil =>
    rw [hbefore] at ht
    cases hafter : after.filter (!isNullName ·) with
    | nil =>
      rw [hafter] at ht
      exact h ht
    | cons a more =>
      rw [hafter] at ht
      cases ht
  | cons b more =>
    rw [hbefore] at ht
    cases more <;> cases ht

theorem becomes_replaced {before after : List Value} {field field' : Value}
    (h : ∀ f, FieldBecomes path field f → FieldBecomes path field' f) : ∀ {columns : List Field},
    List.Forall₂ (FieldBecomes path) (before ++ field :: after) columns →
      List.Forall₂ (FieldBecomes path) (before ++ field' :: after) columns := by
  induction before with
  | nil =>
    rintro _ (_ | ⟨hfirst, hrest⟩)
    exact .cons (h _ hfirst) hrest
  | cons b before ih =>
    rintro _ (_ | ⟨hfirst, hrest⟩)
    exact .cons hfirst (ih hrest)

mutual

/-- A schema keeps its type, wherever in it a type has been wrapped. -/
theorem Rewraps.typeOf {v v' : Value} (h : Rewraps v v') :
    ∀ (path : String) (t : DataType), typeOf path v = .ok t → typeOf path v' = .ok t := by
  match h with
  | .branch hb =>
    intro path t ht
    exact typeOf_union_replaced hb.text?.1 hb.text?.2 (hb.typeOf path t) ht
  | .plain hdiffers hb =>
    intro path t ht
    rw [typeOf_plain hdiffers.before hb.text?.1] at ht
    rw [typeOf_plain hdiffers.after hb.text?.2]
    exact hb.typeOf path t ht
  | .items htype hdiffers hb =>
    intro path t ht
    obtain ⟨items, u, hitems, hu, rfl⟩ := (typeOf_array_eq_ok htype).mp ht
    obtain rfl := Option.some.inj (hdiffers.before.symm.trans hitems)
    have htype' := (hdiffers.type (by decide)).trans htype
    exact (typeOf_array_eq_ok htype').mpr ⟨_, u, hdiffers.after, hb.typeOf _ u hu, rfl⟩
  | .values htype hdiffers hb =>
    intro path t ht
    obtain ⟨values, u, hvalues, hu, rfl⟩ := (typeOf_map_eq_ok htype).mp ht
    obtain rfl := Option.some.inj (hdiffers.before.symm.trans hvalues)
    have htype' := (hdiffers.type (by decide)).trans htype
    exact (typeOf_map_eq_ok htype').mpr ⟨_, u, hdiffers.after, hb.typeOf _ u hu, rfl⟩
  | .field before after htype hdiffers hfield hb =>
    intro path t ht
    obtain ⟨fields, columns, hfields, hcolumns, rfl⟩ := (typeOf_record_eq_ok htype).mp ht
    obtain rfl := Value.array.inj (Option.some.inj (hdiffers.before.symm.trans hfields))
    have htype' := (hdiffers.type (by decide)).trans htype
    refine (typeOf_record_eq_ok htype').mpr ⟨_, columns, hdiffers.after, becomes_replaced ?_ hcolumns, rfl⟩
    intro f hf
    cases hf with
    | of_members hname hmember hu =>
      obtain rfl := Option.some.inj (hfield.before.symm.trans hmember)
      exact .of_members ((hfield.others "name" (by decide)).trans hname) hfield.after (hb.typeOf _ _ hu)

theorem Replaced.typeOf {v v' : Value} (h : Replaced v v') :
    ∀ (path : String) (t : DataType), typeOf path v = .ok t → typeOf path v' = .ok t := by
  match h with
  | .wrapped hw => exact fun path t => hw.typeOf
  | .inside hb => exact hb.typeOf

end

/-- A record remains one. -/
theorem Rewraps.record (h : Rewraps v v') (hv : v.member? "type" = some (.text "record")) :
    v'.member? "type" = some (.text "record") := by
  cases h with
  | branch _ => cases hv
  | plain hdiffers hb =>
    have htext := hb.text?.1
    obtain rfl := Option.some.inj (hdiffers.before.symm.trans hv)
    cases htext
  | items _ hdiffers _ | values _ hdiffers _ => exact (hdiffers.type (by decide)).trans hv
  | field _ _ _ hdiffers _ _ => exact (hdiffers.type (by decide)).trans hv

/-! ## Literals -/

/-- The second text is the JSON of a record of which any number of types have been wrapped, and nests no deeper than
documents may. -/
def RewrapsLiteral (literal literal' : String) : Prop :=
  ∃ root root' tree, Value.ofString? literal = some root ∧ Relation.ReflTransGen Rewraps root root' ∧
    Tree.ofString? literal' = some tree ∧ tree.content? = some root' ∧ tree.nesting ≤ nestingLimit

theorem RewrapsLiteral.recordFields {literal literal' : String} {columns : List Field}
    (h : RewrapsLiteral literal literal') (hcolumns : recordFields literal = .ok columns) :
    recordFields literal' = .ok columns := by
  obtain ⟨root, root', tree, hroot, hsteps, htree, hcontent, hnesting⟩ := h
  obtain ⟨root₁, hroot₁, htype, ht⟩ := recordFields_eq_ok.mp hcolumns
  obtain rfl := Option.some.inj (hroot.symm.trans hroot₁)
  have hkept : root'.member? "type" = some (.text "record") ∧ typeOf "" root' = .ok (.struct columns) := by
    clear hcontent
    induction hsteps with
    | refl => exact ⟨htype, ht⟩
    | tail _ hstep ih => exact ⟨hstep.record ih.1, hstep.typeOf _ _ ih.2⟩
  have hroot' : Value.ofString? literal' = some root' := Value.ofString?_eq_some.mpr ⟨tree, htree, hnesting, hcontent⟩
  exact recordFields_eq_ok.mpr ⟨root', hroot', hkept⟩

end AvroSchema

namespace Layout

open TableScan.AvroSchema

/-- Wrappers leave the type of a schema as it is, and the fields of a record and the layout, however many there
are. -/
theorem wrappers_keep_layout :
    (∀ (path : String) (node w : Value) (t : DataType), Wraps node w → typeOf path node = .ok t →
      typeOf path w = .ok t) ∧
    (∀ (literal literal' : String) (columns : List Field), RewrapsLiteral literal literal' →
      recordFields literal = .ok columns → recordFields literal' = .ok columns) ∧
    (∀ (p q : Properties) (literal literal' : String) (l : Layout), p.get? avroLiteralKey = some literal →
      q.get? avroLiteralKey = some literal' → RewrapsLiteral literal literal' → ofAvroProperties p = .ok l →
      ∃ m, ofAvroProperties q = .ok m ∧ l.driftsFrom m = false ∧ m.driftsFrom l = false) := by
  refine ⟨fun _ _ _ _ => Wraps.typeOf, fun _ _ _ => RewrapsLiteral.recordFields, ?_⟩
  intro p q literal literal' l hp hq hrewraps hl
  obtain ⟨columns, hfields, hcolumns⟩ := (ofAvroProperties_eq_ok hp).mp hl
  have hm : ofAvroProperties q = .ok l :=
    (ofAvroProperties_eq_ok hq).mpr ⟨columns, hrewraps.recordFields hfields, hcolumns⟩
  exact ⟨l, hm, by simp [driftsFrom], by simp [driftsFrom]⟩

/-- A list of texts. -/
def tags : Value := .object [("items", .text "string"), ("type", .text "array")]

/-- The list may be missing, and so may each text. -/
def missingTags : Value :=
  .array [.text "null", .object [("items", .object [("type", .array [.text "string", .text "null"])]),
    ("type", .text "array")]]

theorem tags_rewrapped : Relation.ReflTransGen Rewraps (recordOf tags) (recordOf missingTags) := by
  -- The type of the one field is replaced, or the items in it are.
  have field : ∀ {v v' : Value}, Replaced v v' → Rewraps (recordOf v) (recordOf v') := fun h =>
    .field [] [] rfl (differsAt_object [] rfl) (differsAt_object [("name", .text "v")] rfl) h
  have items : ∀ {v v' : Value}, Replaced v v' → Replaced (.object [("items", v), ("type", .text "array")])
      (.object [("items", v'), ("type", .text "array")]) := fun h => .inside (.items rfl (differsAt_object [] rfl) h)
  apply Relation.ReflTransGen.tail
  · apply Relation.ReflTransGen.tail
    · exact .single (field (items (.wrapped .nullLast)))
    · exact field (items (.wrapped .plain))
  · exact field (.wrapped .nullFirst)

def tagRecord : Properties := .ofList [(avroLiteralKey, (recordOf tags).render)]

def missingTagRecord : Properties := .ofList [(avroLiteralKey, (recordOf missingTags).render)]

theorem missingTags_keep_layout : ∃ l m, ofAvroProperties tagRecord = .ok l ∧
    ofAvroProperties missingTagRecord = .ok m ∧ l.driftsFrom m = false := by
  have htags : tags.WellFormed False :=
    wellFormed_object ["items", "type"] rfl (by decide) (by simp [Value.WellFormed.text])
  have hitems : (Value.object [("type", .array [.text "string", .text "null"])]).WellFormed False :=
    wellFormed_object ["type"] rfl (by decide) (by simp [Value.WellFormed.text, Value.WellFormed.array])
  have hlist : (Value.object [("items", .object [("type", .array [.text "string", .text "null"])]),
      ("type", .text "array")]).WellFormed False :=
    wellFormed_object ["items", "type"] rfl (by decide) (by simp [Value.WellFormed.text, hitems])
  have hmissing : missingTags.WellFormed False := .array (by simp [Value.WellFormed.text, hlist])
  have htype : typeOf "v" tags = .ok (.listOf .utf8) := by
    refine (typeOf_array_eq_ok rfl).mpr ⟨_, .utf8, rfl, ?_, rfl⟩
    rw [typeOf]
    rfl
  have hnesting : (recordOf tags).nesting ≤ nestingLimit := by decide +kernel
  have hrewraps : RewrapsLiteral (recordOf tags).render (recordOf missingTags).render :=
    ⟨_, _, _, ofString?_recordOf htags hnesting, tags_rewrapped, (wellFormed_recordOf hmissing).treeOfString?_render,
      (wellFormed_recordOf hmissing).content?_tree, by decide +kernel⟩
  have hlayout : ofAvroProperties tagRecord = .ok ⟨[⟨lower "v", .listOf .utf8, true⟩]⟩ :=
    (ofAvroProperties_eq_ok rfl).mpr ⟨_, recordFields_recordOf htags hnesting htype, rfl⟩
  obtain ⟨-, -, hkept⟩ := wrappers_keep_layout
  obtain ⟨m, hm, hdrift, -⟩ := hkept _ missingTagRecord _ _ _ rfl rfl hrewraps hlayout
  exact ⟨_, m, hlayout, hm, hdrift⟩

end Layout

end TableScan
