/-
  TableScan.Proofs.SoundLayouts — every layout that can be derived is sound.

  Columns have different names and may all be missing. In their types, at any depth, decimals
  have 1 to 38 digits and at most all of them behind the point, bytes of a fixed number have a
  positive one, the items of a list may be missing, and a map has keys that may not and values
  that may (`DataType.Sound`). Numbers pass through bytes, signed bytes and 32-bit words on
  their way into a type; none is changed by that, so each is the one that was written
  (`WritesDecimal`) or declared (`DeclaresDecimal`, `DeclaresWidth`).

  - `ColumnType.IsType.sound`: of a type expression, by its derivation.
  - `AvroSchema.typeOf_sound`: of a schema, by the schemas inside it.
  - `layouts_sound`: of the layout of a serialization library, whichever it is.
-/

import Mathlib.Data.List.Infix
import TableScan.Proofs.DecimalScales
import TableScan.Proofs.Drift
import TableScan.Serde

namespace TableScan

open TableScan.Json TableScan.Text

/-! ## Sound types -/

namespace DataType

variable {decimal decimal' : Int → Int → Prop} {width width' : Int → Prop} {t u : DataType}

/-- The outermost type is as it should be, with such decimals and widths. -/
def Sound (decimal : Int → Int → Prop) (width : Int → Prop) : DataType → Prop
  | .decimal128 p s => decimal p.toNat s.toInt
  | .fixedSizeBinary w => width w.toInt
  | .list item => item.name = "item" ∧ item.nullable = true
  | .map entries sorted => sorted = false ∧
      ∃ key value, entries = ⟨"entries", .struct [⟨"key", key, false⟩, ⟨"value", value, true⟩], false⟩
  | .struct fields => ∀ f ∈ fields, f.nullable = true
  | _ => True

/-- At every depth. -/
def DeeplySound (decimal : Int → Int → Prop) (width : Int → Prop) (t : DataType) : Prop :=
  ∀ u, t.Holds u → u.Sound decimal width

theorem Sound.mono (h : t.Sound decimal width) (hd : ∀ p s, decimal p s → decimal' p s)
    (hw : ∀ w, width w → width' w) : t.Sound decimal' width' := by
  cases t with
  | decimal128 p s => exact hd _ _ h
  | fixedSizeBinary w => exact hw _ h
  | _ => exact h

theorem DeeplySound.mono (h : t.DeeplySound decimal width) (hd : ∀ p s, decimal p s → decimal' p s)
    (hw : ∀ w, width w → width' w) : t.DeeplySound decimal' width' :=
  fun u hu => (h u hu).mono hd hw

theorem deeplySound_listOf (h : t.DeeplySound decimal width) : (listOf t).DeeplySound decimal width := by
  intro u hu
  rcases holds_listOf.mp hu with rfl | hu
  · exact ⟨rfl, rfl⟩
  · exact h u hu

theorem deeplySound_mapOf {k v : DataType} (hk : k.DeeplySound decimal width) (hv : v.DeeplySound decimal width) :
    (mapOf k v).DeeplySound decimal width := by
  intro u hu
  rcases holds_mapOf.mp hu with rfl | hu | hu
  · exact ⟨rfl, k, v, rfl⟩
  · exact hk u hu
  · exact hv u hu

theorem deeplySound_struct {fields : List Field}
    (h : ∀ f ∈ fields, f.nullable = true ∧ f.type.DeeplySound decimal width) :
    (struct fields).DeeplySound decimal width := by
  intro u hu
  rcases holds_struct.mp hu with rfl | ⟨f, hf, hu⟩
  · exact fun f hf => (h f hf).1
  · exact (h f hf).2 u hu

theorem Holds.eq_of_flat (h : t.Holds u) (hflat : t.flatName?.isSome = true) : u = t := by
  cases h with
  | self => rfl
  | _ => cases hflat

theorem deeplySound_flat (hflat : t.flatName?.isSome = true) (h : t.Sound decimal width) :
    t.DeeplySound decimal width := by
  intro u hu
  rw [hu.eq_of_flat hflat]
  exact h

end DataType

/-- A precision and a scale that a decimal may have. -/
structure InRange (p s : Int) : Prop where
  positive : 1 ≤ p
  atMost : p ≤ 38
  natural : 0 ≤ s
  within : s ≤ p

/-- A number of bytes that a type of a fixed number may have. -/
structure WidthInRange (w : Int) : Prop where
  positive : 1 ≤ w
  atMost : w ≤ 2147483647

/-! ## Types of column properties -/

namespace ColumnType

/-- The tokens are a decimal with these numbers. -/
inductive WritesDecimal : List Token → Int → Int → Prop
  | bare {name : List Char} : Named name "decimal" → WritesDecimal [.word name] 10 0
  | precision {name : List Char} (p : UInt32) : Named name "decimal" →
      WritesDecimal [.word name, .symbol .openParen, .number p, .symbol .closeParen] p.toNat 0
  | scale {name : List Char} (p s : UInt32) : Named name "decimal" →
      WritesDecimal [.word name, .symbol .openParen, .number p, .symbol .comma, .number s, .symbol .closeParen]
        p.toNat s.toNat

/-- Such a decimal is written somewhere in the tokens, and its numbers are in range. -/
def DecimalIn (ts : List Token) (p s : Int) : Prop := InRange p s ∧ ∃ us, us <:+: ts ∧ WritesDecimal us p s

/-- What is written in a part of the tokens is written in all of them. -/
theorem deeplySound_within {width : Int → Prop} {ts us : List Token} {t : DataType}
    (h : t.DeeplySound (DecimalIn ts) width) (hpart : ts <:+: us) : t.DeeplySound (DecimalIn us) width := by
  refine h.mono ?_ fun _ => id
  rintro p s ⟨hrange, vs, hvs, hwrites⟩
  exact ⟨hrange, vs, hvs.trans hpart, hwrites⟩

/-- A scale in range is the same number in a signed byte. -/
theorem toInt_toInt8 {s : UInt8} (h : s ≤ 38) : s.toInt8.toInt = s.toNat := by
  have hle : s.toNat ≤ 38 := h
  rw [← AvroSchema.ofInt_toNat]
  apply Int8.toInt_ofInt_of_le <;> omega

/-- A decimal that is accepted has the numbers that were read. -/
theorem checkDecimal_exact {p s : UInt32} {t : ColumnType} (h : checkDecimal p s = .ok t) :
    ∃ (p' : UInt8) (s' : Int8), t.dataType = .decimal128 p' s' ∧ p'.toNat = p.toNat ∧ s'.toInt = s.toNat := by
  obtain ⟨p, s, rfl, rfl, -, h38, hle, rfl⟩ := checkDecimal_eq_ok.mp h
  refine ⟨p, s.toInt8, rfl, (UInt8.toNat_toUInt32 p).symm, ?_⟩
  rw [toInt_toInt8 (UInt8.le_trans hle h38), UInt8.toNat_toUInt32]

theorem deeplySound_decimal {width : Int → Prop} {ts : List Token} {p s : UInt8} (h1 : 1 ≤ p) (h38 : p ≤ 38)
    (hle : s ≤ p) (hwrites : WritesDecimal ts p.toNat s.toNat) :
    (decimal p s).dataType.DeeplySound (DecimalIn ts) width := by
  apply DataType.deeplySound_flat rfl
  have hscale : s.toInt8.toInt = s.toNat := toInt_toInt8 (UInt8.le_trans hle h38)
  have h1 : 1 ≤ p.toNat := h1
  have h38 : p.toNat ≤ 38 := h38
  have hle : s.toNat ≤ p.toNat := hle
  show DecimalIn ts p.toNat s.toInt8.toInt
  rw [hscale]
  refine ⟨?_, ts, List.infix_rfl, hwrites⟩
  constructor <;> omega

mutual

/-- A type expression gives a type that is sound, with the decimals that are written in it. -/
theorem IsType.sound {width : Int → Prop} {ts : List Token} {t : ColumnType} (h : IsType ts t) :
    t.dataType.DeeplySound (DecimalIn ts) width := by
  cases h with
  | plain hm _ =>
    simp only [plainNames, List.mem_cons, List.not_mem_nil, or_false, Prod.mk.injEq] at hm
    rcases hm with h | h | h | h | h | h | h | h | h | h | h | h <;> obtain ⟨-, rfl⟩ := h <;>
      exact DataType.deeplySound_flat rfl trivial
  | double _ | doublePrecision _ _ | varchar _ _ | char _ _ =>
    exact DataType.deeplySound_flat rfl trivial
  | bareDecimal hn => exact deeplySound_decimal (by decide) (by decide) (by decide) (.bare hn)
  | @decimalPrecision _ p hn h1 h38 =>
    refine deeplySound_decimal h1 h38 UInt8.zero_le ?_
    have hwrites := WritesDecimal.precision p.toUInt32 hn
    rwa [UInt8.toNat_toUInt32] at hwrites
  | @decimal _ p s hn h1 h38 hle =>
    refine deeplySound_decimal h1 h38 hle ?_
    have hwrites := WritesDecimal.scale p.toUInt32 s.toUInt32 hn
    rwa [UInt8.toNat_toUInt32, UInt8.toNat_toUInt32] at hwrites
  | @array name ts t _ ht =>
    apply DataType.deeplySound_listOf
    exact deeplySound_within ht.sound ⟨[.word name, .symbol .openAngle], [.symbol .closeAngle], by simp⟩
  | @map name ks vs k v _ hk hv =>
    apply DataType.deeplySound_mapOf
    · exact deeplySound_within hk.sound
        ⟨[.word name, .symbol .openAngle], .symbol .comma :: (vs ++ [.symbol .closeAngle]), by simp⟩
    · exact deeplySound_within hv.sound
        ⟨.word name :: .symbol .openAngle :: (ks ++ [.symbol .comma]), [.symbol .closeAngle], by simp⟩
  | emptyStruct _ => exact DataType.deeplySound_struct (List.forall_mem_nil _)
  | @struct name ts fields _ hf =>
    apply DataType.deeplySound_struct
    intro f hmem
    obtain ⟨hnullable, hsound⟩ := hf.sound f hmem
    refine ⟨hnullable, deeplySound_within hsound ?_⟩
    exact ⟨[.word name, .symbol .openAngle], [.symbol .closeAngle], by simp⟩

theorem IsFields.sound {width : Int → Prop} {ts : List Token} {fields : List (String × ColumnType)}
    (h : IsFields ts fields) :
    ∀ f ∈ fieldTypes fields, f.nullable = true ∧ f.type.DeeplySound (DecimalIn ts) width := by
  cases h with
  | @last name field ts t _ ht =>
    refine List.forall_mem_singleton.mpr ⟨rfl, ?_⟩
    exact deeplySound_within ht.sound ⟨[name, .symbol .colon], [], by simp⟩
  | @more name field ts rest t fields _ ht hrest =>
    refine List.forall_mem_cons.mpr ⟨⟨rfl, ?_⟩, ?_⟩
    · exact deeplySound_within ht.sound ⟨[name, .symbol .colon], .symbol .comma :: rest, by simp⟩
    · intro f hmem
      obtain ⟨hnullable, hsound⟩ := hrest.sound f hmem
      refine ⟨hnullable, deeplySound_within hsound ?_⟩
      exact ⟨name :: .symbol .colon :: (ts ++ [.symbol .comma]), [], by simp⟩

end

theorem IsList.sound {width : Int → Prop} {ts : List Token} {types : List ColumnType} (h : IsList ts types) :
    ∀ t ∈ types, t.dataType.DeeplySound (DecimalIn ts) width := by
  induction h with
  | one ht => exact List.forall_mem_singleton.mpr ht.sound
  | @more ts rest t types s _ ht _ ih =>
    refine List.forall_mem_cons.mpr ⟨?_, ?_⟩
    · exact deeplySound_within ht.sound ⟨[], .symbol s :: rest, by simp⟩
    · exact fun u hu => deeplySound_within (ih u hu) ⟨ts ++ [.symbol s], [], by simp⟩

end ColumnType

/-! ## Types of schemas -/

namespace AvroSchema

variable {path : String} {node : Value}

/-- Decimals that declare these numbers; where the scale is no natural number it counts as 0. -/
structure DeclaresDecimal (node : Value) (p s : Int) : Prop where
  decimal : IsDecimalNode node
  precision : node.member? "precision" = some (.int p)
  scale : (naturalMember? node "scale").getD 0 = s

/-- Bytes of a fixed number, which is this one. -/
structure DeclaresWidth (node : Value) (w : Int) : Prop where
  fixed : node.member? "type" = some (.text "fixed")
  size : node.member? "size" = some (.int w)

/-- Such decimals are declared by a schema in the one at the place. -/
def DecimalWithin (a : Place) (p s : Int) : Prop := InRange p s ∧ ∃ b, Reaches a b ∧ DeclaresDecimal b.2 p s

def WidthWithin (a : Place) (w : Int) : Prop := WidthInRange w ∧ ∃ b, Reaches a b ∧ DeclaresWidth b.2 w

/-- What is declared in a schema inside is declared in the one around it. -/
theorem deeplySound_around {a b : Place} {t : DataType} (h : t.DeeplySound (DecimalWithin b) (WidthWithin b))
    (hinside : Inside a b) : t.DeeplySound (DecimalWithin a) (WidthWithin a) := by
  refine h.mono ?_ ?_
  · rintro p s ⟨hrange, c, hc, hdeclares⟩
    exact ⟨hrange, c, .head hinside hc, hdeclares⟩
  · rintro w ⟨hrange, c, hc, hdeclares⟩
    exact ⟨hrange, c, .head hinside hc, hdeclares⟩

/-- A number of bytes that is accepted is positive, and a 32-bit word does not cut it. -/
theorem fixedType_eq_ok {t : DataType} : fixedType path node = .ok t ↔
    ∃ w : Int32, node.member? "size" = some (.int w.toInt) ∧ 1 ≤ w.toInt ∧ t = .fixedSizeBinary w := by
  have hmax64 : Int64.maxValue.toInt = 2 ^ 63 - 1 := rfl
  have hmax32 : Int32.maxValue.toInt = 2 ^ 31 - 1 := rfl
  unfold fixedType
  constructor
  · intro h
    split at h
    · cases h
    · rename_i size hsize
      obtain ⟨hread, -⟩ := Option.filter_eq_some_iff.mp hsize
      by_cases hrange : 0 < size ∧ size ≤ Int32.maxValue.toInt
      · rw [if_pos hrange] at h
        cases h
        have hw : (Int32.ofInt size).toInt = size := by apply Int32.toInt_ofInt_of_le <;> omega
        refine ⟨_, ?_, by omega, rfl⟩
        rw [hw]
        exact int_member_iff.mp hread
      · rw [if_neg hrange] at h
        cases h
  · rintro ⟨w, hsize, hpos, rfl⟩
    have hle : w.toInt ≤ 2 ^ 31 - 1 := Int32.toInt_le w
    have hread : ((node.member? "size").bind Value.int?).filter (· ≤ Int64.maxValue.toInt) = some w.toInt :=
      Option.filter_eq_some_iff.mpr ⟨int_member_iff.mpr hsize, decide_eq_true (by omega)⟩
    rw [hread]
    dsimp only
    rw [if_pos (by omega), Int32.ofInt_toInt]

/-- Dates, times of the day and decimals are all the logical types that refine the type they stand on. -/
theorem logicalType_eq_some {t : DataType} (h : logicalType path node = .ok (some t)) :
    t = .date32 ∨ (∃ unit, t = .timestamp unit) ∨ IsDecimalNode node ∧ decimalType path node = .ok t := by
  unfold logicalType at h
  split at h
  · cases h
    exact .inl rfl
  · cases h
    exact .inr (.inl ⟨_, rfl⟩)
  · cases h
    exact .inr (.inl ⟨_, rfl⟩)
  · rename_i hlogical hbase
    obtain ⟨_, hdecimal, ht⟩ := map_eq_ok.mp h
    obtain rfl := Option.some.inj ht
    exact .inr (.inr ⟨⟨.inl (text_member_iff.mp hbase), text_member_iff.mp hlogical⟩, hdecimal⟩)
  · rename_i hlogical hbase
    obtain ⟨_, hdecimal, ht⟩ := map_eq_ok.mp h
    obtain rfl := Option.some.inj ht
    exact .inr (.inr ⟨⟨.inr (text_member_iff.mp hbase), text_member_iff.mp hlogical⟩, hdecimal⟩)
  · cases h

/-- A decimal of a schema has the numbers that are declared. -/
theorem deeplySound_decimalType {width : Int → Prop} {t : DataType} (hdecimal : IsDecimalNode node)
    (h : decimalType path node = .ok t) : t.DeeplySound (DecimalWithin (path, node)) width := by
  obtain ⟨p, s, hp, hs, h1, h38, hle, rfl⟩ := decimalType_eq_ok.mp h
  apply DataType.deeplySound_flat rfl
  have hnatural : 0 ≤ s.toInt := by
    rcases scale_cases node with ⟨n, hn, -, hnonneg⟩ | ⟨hnone, -⟩
    · rw [hn, Option.getD_some] at hs
      omega
    · rw [hnone, Option.getD_none] at hs
      omega
  refine ⟨?_, _, .refl, hdecimal, hp, hs⟩
  constructor <;> omega

theorem deeplySound_primitive {decimal : Int → Int → Prop} {width : Int → Prop} {name : String} {t : DataType}
    (h : primitive path name = .ok t) : t.DeeplySound decimal width := by
  unfold primitive at h
  split at h <;> cases h <;> exact DataType.deeplySound_flat rfl trivial

/-- A schema gives a type that is sound, with the decimals and widths that are declared in it. -/
theorem typeOf_sound (a : Place) {t : DataType} (ht : typeOf a.1 a.2 = .ok t) :
    t.DeeplySound (DecimalWithin a) (WidthWithin a) := by
  -- What the schemas inside say is carried over to this one.
  have inside : ∀ {b : Place} {u : DataType}, Inside a b → typeOf b.1 b.2 = .ok u →
      u.DeeplySound (DecimalWithin a) (WidthWithin a) := by
    intro b u hb hu
    have := hb.sizeOf_lt
    exact deeplySound_around (typeOf_sound b hu) hb
  cases converted_of_typeOf ht with
  | named hname => exact deeplySound_primitive hname
  | nulls | enum => exact DataType.deeplySound_flat rfl trivial
  | refined hlogical =>
    rcases logicalType_eq_some hlogical with rfl | ⟨unit, rfl⟩ | ⟨hdecimal, ht⟩
    · exact DataType.deeplySound_flat rfl trivial
    · exact DataType.deeplySound_flat rfl trivial
    · exact deeplySound_decimalType hdecimal ht
  | fixed htype hfixed =>
    obtain ⟨w, hsize, hpos, rfl⟩ := fixedType_eq_ok.mp hfixed
    refine DataType.deeplySound_flat rfl ?_
    exact ⟨⟨hpos, Int32.toInt_le w⟩, a, .refl, htype, hsize⟩
  | alike hb hu => exact inside hb hu
  | items hb hu => exact DataType.deeplySound_listOf (inside hb hu)
  | values hb hu =>
    apply DataType.deeplySound_mapOf
    · exact DataType.deeplySound_flat rfl trivial
    · exact inside hb hu
  | fields hfields =>
    apply DataType.deeplySound_struct
    intro f hf
    obtain ⟨hnullable, b, hb, ht⟩ := hfields f hf
    exact ⟨hnullable, inside hb ht⟩
termination_by sizeOf a.2

end AvroSchema

/-! ## Layouts -/

namespace Layout

open TableScan.AvroSchema

variable {p : Properties} {l : Layout}

/-- A decimal in the types of the columns or in the schema of the properties has these numbers. -/
inductive StatesDecimal (p : Properties) (precision scale : Int) : Prop
  | type {raw : String} {ts us : List ColumnType.Token} : p.get? columnTypesKey = some raw →
      ColumnType.Spells raw.toList ts → us <:+: ts → ColumnType.WritesDecimal us precision scale →
      StatesDecimal p precision scale
  | schema {literal : String} {root : Value} {b : Place} : p.get? avroLiteralKey = some literal →
      Value.ofString? literal = some root → Reaches ("", root) b → DeclaresDecimal b.2 precision scale →
      StatesDecimal p precision scale

/-- Bytes of a fixed number in the schema of the properties have this one. -/
inductive StatesWidth (p : Properties) (w : Int) : Prop
  | schema {literal : String} {root : Value} {b : Place} : p.get? avroLiteralKey = some literal →
      Value.ofString? literal = some root → Reaches ("", root) b → DeclaresWidth b.2 w → StatesWidth p w

/-- The type is sound at every depth, and its numbers are in range and stated by the properties. -/
def SoundType (p : Properties) (t : DataType) : Prop :=
  t.DeeplySound (fun precision scale => InRange precision scale ∧ StatesDecimal p precision scale)
    fun w => WidthInRange w ∧ StatesWidth p w

/-- Columns go by different names and may be missing, and their types are sound. -/
structure SoundFor (p : Properties) (l : Layout) : Prop where
  distinct : l.names.Nodup
  nullable : ∀ f ∈ l.columns, f.nullable = true
  types : ∀ f ∈ l.columns, SoundType p f.type

theorem mem_zipWith_column : ∀ {names : List String} {types : List ColumnType} {f : Field},
    f ∈ names.zipWith column types → f.nullable = true ∧ ∃ t ∈ types, f.type = t.dataType
  | n :: names, t :: types, f, h => by
    rw [List.zipWith_cons_cons] at h
    rcases List.mem_cons.mp h with rfl | h
    · exact ⟨rfl, t, List.mem_cons_self .., rfl⟩
    · obtain ⟨hnullable, u, hu, heq⟩ := mem_zipWith_column h
      exact ⟨hnullable, u, List.mem_cons_of_mem t hu, heq⟩
  | [], _, _, h | _ :: _, [], _, h => by simp at h

/-- Columns put together in one way or another. -/
theorem soundFor_ofColumns {columns : List Field} (h : ofColumns columns = .ok l)
    (hcolumns : ∀ f ∈ columns, f.nullable = true ∧ SoundType p f.type) : SoundFor p l := by
  obtain ⟨hdistinct, rfl⟩ := ofColumns_eq_ok.mp h
  exact ⟨hdistinct, fun f hf => (hcolumns f hf).1, fun f hf => (hcolumns f hf).2⟩

theorem allStrings_sound (h : allStrings p = .ok l) : SoundFor p l := by
  apply soundFor_ofColumns h
  intro f hf
  obtain ⟨name, -, rfl⟩ := List.mem_map.mp hf
  exact ⟨rfl, DataType.deeplySound_flat rfl trivial⟩

theorem declaredTypes_sound : ∀ t ∈ declaredTypes p, SoundType p t.dataType := by
  unfold declaredTypes
  split
  · rename_i first rest htypes
    unfold columnTypes at htypes
    split at htypes
    · cases htypes
    · rename_i raw hraw
      obtain ⟨ts, hspells, ⟨-, hnone⟩ | hlist⟩ := ColumnType.listOfString_eq_ok.mp htypes
      · cases hnone
      · intro t ht
        have hsound : t.dataType.DeeplySound (ColumnType.DecimalIn ts) fun _ => False := hlist.sound t ht
        refine hsound.mono ?_ fun _ => False.elim
        rintro precision scale ⟨hrange, us, hus, hwrites⟩
        exact ⟨hrange, .type hraw hspells hus hwrites⟩
  · intro t ht
    obtain ⟨name, -, rfl⟩ := List.mem_map.mp ht
    exact DataType.deeplySound_flat rfl trivial

theorem ofColumnProperties_sound (h : ofColumnProperties p = .ok l) : SoundFor p l := by
  obtain ⟨-, hcolumns⟩ := ofColumns_of_accepted h
  apply soundFor_ofColumns hcolumns
  intro f hf
  obtain ⟨hnullable, t, ht, heq⟩ := mem_zipWith_column hf
  rw [heq]
  exact ⟨hnullable, declaredTypes_sound t ht⟩

theorem ofAvroProperties_sound (h : ofAvroProperties p = .ok l) : SoundFor p l := by
  cases hliteral : p.get? avroLiteralKey with
  | none =>
    unfold ofAvroProperties at h
    rw [hliteral] at h
    exact ofColumnProperties_sound h
  | some literal =>
    obtain ⟨columns, hfields, hcolumns⟩ := (ofAvroProperties_eq_ok hliteral).mp h
    obtain ⟨root, hroot, -, hstruct⟩ := recordFields_eq_ok.mp hfields
    have hsound := typeOf_sound ("", root) hstruct
    apply soundFor_ofColumns hcolumns
    intro f hf
    refine ⟨hsound _ .self f hf, ?_⟩
    intro u hu
    refine (hsound u (.field hf hu)).mono ?_ ?_
    · rintro precision scale ⟨hrange, b, hb, hdeclares⟩
      exact ⟨hrange, .schema hliteral hroot hb hdeclares⟩
    · rintro w ⟨hrange, b, hb, hdeclares⟩
      exact ⟨hrange, .schema hliteral hroot hb hdeclares⟩

/-- Numbers that are accepted are kept on each of their ways into a type, and whatever library derives a layout, it
is sound. -/
theorem layouts_sound :
    (∀ (p s : UInt32) (t : ColumnType), ColumnType.checkDecimal p s = .ok t →
      ∃ (p' : UInt8) (s' : Int8), t.dataType = .decimal128 p' s' ∧ p'.toNat = p.toNat ∧ s'.toInt = s.toNat) ∧
    (∀ (path : String) (node : Value) (t : DataType), decimalType path node = .ok t →
      ∃ (p : UInt8) (s : Int8), t = .decimal128 p s ∧ naturalMember? node "precision" = some (p.toNat : Int) ∧
        (naturalMember? node "scale").getD 0 = s.toInt) ∧
    (∀ (path : String) (node : Value) (t : DataType), fixedType path node = .ok t →
      ∃ w : Int32, t = .fixedSizeBinary w ∧ (node.member? "size").bind Value.int? = some w.toInt) ∧
    ∀ (h : Serde.Handle) (l : Layout), h.layout = .ok l → SoundFor h.properties l := by
  refine ⟨fun p s t => ColumnType.checkDecimal_exact, ?_, ?_, ?_⟩
  · intro path node t h
    obtain ⟨p, s, hp, hs, -, -, -, rfl⟩ := decimalType_eq_ok.mp h
    exact ⟨p, s, rfl, naturalMember?_natural hp, hs⟩
  · intro path node t h
    obtain ⟨w, hw, -, rfl⟩ := fixedType_eq_ok.mp h
    exact ⟨w, rfl, int_member_iff.mpr hw⟩
  · intro h l hl
    unfold Serde.Handle.layout at hl
    split at hl
    · exact ofAvroProperties_sound hl
    · split at hl
      · exact allStrings_sound hl
      · exact ofColumnProperties_sound hl

/-- Two columns with a decimal in a struct in a map. -/
def costColumns : Properties :=
  .ofList [(columnsKey, "Id,Costs"), (columnTypesKey, "bigint,map<string,struct<Net:decimal(9,2)>>")]

/-- Texts with 16 bytes to each, which may be missing. -/
def digests : Value :=
  .object [("type", .text "map"),
    ("values", .array [.text "null", .object [("size", .int 16), ("type", .text "fixed")]])]

def digestRecord : Properties := .ofList [(avroLiteralKey, (recordOf digests).render)]

theorem costs_and_digests_sound :
    (∃ l, Serde.Handle.layout ⟨Serde.orc, costColumns⟩ = .ok l ∧ SoundFor costColumns l ∧
      ∃ f ∈ l.columns, f.type.Holds (.decimal128 9 2)) ∧
    ∃ l, Serde.Handle.layout ⟨Serde.avro, digestRecord⟩ = .ok l ∧ SoundFor digestRecord l ∧
      ∃ f ∈ l.columns, f.type.Holds (.fixedSizeBinary 16) := by
  obtain ⟨-, -, -, hsound⟩ := layouts_sound
  constructor
  · have hlayout : Serde.Handle.layout ⟨Serde.orc, costColumns⟩ =
        .ok ⟨[column "id" .bigint, column "costs" (.map .string (.struct [("Net", .decimal 9 2)]))]⟩ :=
      ColumnType.ok_of_toOption (by decide +kernel)
    refine ⟨_, hlayout, hsound _ _ hlayout, _, List.mem_cons_of_mem _ (List.mem_singleton_self _), ?_⟩
    exact DataType.holds_mapOf.mpr (.inr (.inr (.field (List.mem_singleton_self _) .self)))
  · have hfixed : typeOf "v.value" (.object [("size", .int 16), ("type", .text "fixed")]) =
        .ok (.fixedSizeBinary 16) := by
      rw [typeOf_unrefined rfl rfl, unrefined]
      exact fixedType_eq_ok.mpr ⟨16, rfl, by decide, rfl⟩
    have hvalues : typeOf "v.value" (.array [.text "null", .object [("size", .int 16), ("type", .text "fixed")]]) =
        .ok (.fixedSizeBinary 16) := by
      rw [typeOf_union]
      exact hfixed
    have hmap : typeOf "v" digests = .ok (.mapOf .utf8 (.fixedSizeBinary 16)) :=
      (typeOf_map_eq_ok rfl).mpr ⟨_, _, rfl, hvalues, rfl⟩
    have hsize : (Value.object [("size", .int 16), ("type", .text "fixed")]).WellFormed False :=
      wellFormed_object ["size", "type"] rfl (by decide) (by simp [Value.WellFormed.text, Value.WellFormed.int])
    have hdigests : digests.WellFormed False :=
      wellFormed_object ["type", "values"] rfl (by decide)
        (by simp [Value.WellFormed.text, Value.WellFormed.array, hsize])
    have hcolumns : recordFields (recordOf digests).render =
        .ok [⟨lower "v", .mapOf .utf8 (.fixedSizeBinary 16), true⟩] :=
      recordFields_recordOf hdigests (by decide +kernel) hmap
    have hlayout : Serde.Handle.layout ⟨Serde.avro, digestRecord⟩ =
        .ok ⟨[⟨lower "v", .mapOf .utf8 (.fixedSizeBinary 16), true⟩]⟩ := by
      show ofAvroProperties digestRecord = _
      exact (ofAvroProperties_eq_ok rfl).mpr ⟨_, hcolumns, rfl⟩
    refine ⟨_, hlayout, hsound _ _ hlayout, _, List.mem_singleton_self _, ?_⟩
    exact DataType.holds_mapOf.mpr (.inr (.inr .self))

end Layout

end TableScan
