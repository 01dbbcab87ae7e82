/-
  TableScan.Proofs.Drift — two lists of columns drift exactly if they differ in what a reader
  can see of them.

  The declared length of a text and the case of field names do not survive into memory. A type
  is folded when every text of a length is a string and every field name in lower case, at all
  depths. Nothing else is lost on the way (`dataType_eq_iff`): no other two types meet, and the
  scale of a decimal keeps all its bits. So layouts that properties give drift just if they
  differ in the number of columns, in a name or in a folded type (`drift_iff_columns_differ`).

  - `declaredTypes`: the types of the columns, strings throughout where none are given.
  - `columns_of_accepted`: the columns of the layout, if the properties give one.
-/

import Mathlib.Logic.Basic
import Mathlib.Tactic.ByContra
import TableScan.Layout
import TableScan.Proofs.TypeRoundTrip

namespace TableScan

open TableScan.Text

/-! ## Types that are one type in memory -/

namespace ColumnType

mutual

/-- Texts of every length as strings, and field names in lower case. -/
def folded : ColumnType → ColumnType
  | .varchar _ | .char _ => .string
  | .array t => .array t.folded
  | .map k v => .map k.folded v.folded
  | .struct fields => .struct (foldedFields fields)
  | t => t

def foldedFields : List (String × ColumnType) → List (String × ColumnType)
  | [] => []
  | (name, t) :: rest => (lower name, t.folded) :: foldedFields rest

end

/-- A byte is found again in its signed form. -/
theorem toInt8_inj {m n : UInt8} : m.toInt8 = n.toInt8 ↔ m = n := by
  rw [← Int8.toBitVec_inj, UInt8.toBitVec_toInt8, UInt8.toBitVec_toInt8, UInt8.toBitVec_inj]

mutual

/-- Types meet in memory exactly when they are folded into one. -/
theorem dataType_eq_iff (t u : ColumnType) : t.dataType = u.dataType ↔ t.folded = u.folded := by
  cases t with
  | array t =>
    cases u with
    | array u => simp [dataType, folded, DataType.listOf, dataType_eq_iff t u]
    | _ => simp [dataType, folded, DataType.listOf, DataType.mapOf]
  | map k v =>
    cases u with
    | map l w => simp [dataType, folded, DataType.mapOf, dataType_eq_iff k l, dataType_eq_iff v w]
    | _ => simp [dataType, folded, DataType.listOf, DataType.mapOf]
  | struct fields =>
    cases u with
    | struct more => simp [dataType, folded, fieldTypes_eq_iff fields more]
    | _ => simp [dataType, folded, DataType.listOf, DataType.mapOf]
  | decimal p s =>
    cases u with
    | decimal q v => simp [dataType, folded, toInt8_inj]
    | _ => simp [dataType, folded, DataType.listOf, DataType.mapOf]
  -- The types without parts, against all: only texts meet others than themselves.
  | _ => cases u <;> simp [dataType, folded, DataType.listOf, DataType.mapOf]

theorem fieldTypes_eq_iff : ∀ fields more : List (String × ColumnType),
    fieldTypes fields = fieldTypes more ↔ foldedFields fields = foldedFields more
  | [], [] => by simp [fieldTypes, foldedFields]
  | [], _ :: _ => by simp [fieldTypes, foldedFields]
  | _ :: _, [] => by simp [fieldTypes, foldedFields]
  | (_, t) :: fields, (_, u) :: more => by
    simp [fieldTypes, foldedFields, dataType_eq_iff t u, fieldTypes_eq_iff fields more, and_assoc]

end

end ColumnType

/-! ## Layouts that drift -/

namespace Layout

/-- The types of the columns, one for each name; strings where the properties give no types. -/
def declaredTypes (p : Properties) : List ColumnType :=
  match columnTypes p with
  | .ok (t :: types) => t :: types
  | _ => (columnNames p).map fun _ => .string

/-- No name is found again just if none stands twice, here or before. -/
theorem firstRepeated?_eq_none : ∀ {names before : List String},
    firstRepeated? before names = none ↔ names.Nodup ∧ ∀ n ∈ names, n ∉ before
  | [], before => by simp [firstRepeated?]
  | n :: rest, before => by
    have ih := @firstRepeated?_eq_none rest (n :: before)
    rw [firstRepeated?]
    by_cases hn : n ∈ before
    · simp [hn]
    · simp only [List.contains_eq_mem, hn, decide_false, Bool.false_eq_true, if_false, ih, List.mem_cons, not_or,
        List.nodup_cons, forall_eq_or_imp, not_false_eq_true, true_and]
      constructor
      · rintro ⟨hnodup, hnew⟩
        exact ⟨⟨fun hrest => (hnew n hrest).1 rfl, hnodup⟩, fun m hm => (hnew m hm).2⟩
      · rintro ⟨⟨hfirst, hnodup⟩, hnew⟩
        exact ⟨hnodup, fun m hm => ⟨fun heq => hfirst (heq ▸ hm), hnew m hm⟩⟩

theorem ofColumns_eq_ok {columns : List Field} {l : Layout} :
    ofColumns columns = .ok l ↔ (columns.map (·.name)).Nodup ∧ l = ⟨columns⟩ := by
  have hnames : firstRepeated? [] (columns.map (·.name)) = none ↔ (columns.map (·.name)).Nodup := by
    simp [firstRepeated?_eq_none]
  rw [← hnames]
  unfold ofColumns
  split <;> rename_i h <;> simp [h, eq_comm]

variable {p q : Properties} {l m : Layout}

theorem ofAvroProperties_eq_ok {literal : String} (hliteral : p.get? avroLiteralKey = some literal) :
    ofAvroProperties p = .ok l ↔
      ∃ columns, AvroSchema.recordFields literal = .ok columns ∧ ofColumns columns = .ok l := by
  unfold ofAvroProperties
  rw [hliteral]
  show (AvroSchema.recordFields literal).mapError _ >>= ofColumns = _ ↔ _
  cases AvroSchema.recordFields literal with
  | error e => exact ⟨nofun, nofun⟩
  | ok columns => simp [Except.mapError, bind, Except.bind]

/-- There are as many types as names, and the columns are put together of one of either. -/
theorem ofColumns_of_accepted (h : ofColumnProperties p = .ok l) : (columnNames p).length = (declaredTypes p).length ∧
    ofColumns ((columnNames p).zipWith column (declaredTypes p)) = .ok l := by
  unfold ofColumnProperties at h
  cases htypes : columnTypes p with
  | error e =>
    rw [htypes] at h
    cases h
  | ok types =>
    have hdeclared : declaredTypes p = if types = [] then (columnNames p).map fun _ => .string else types := by
      rw [declaredTypes, htypes]
      cases types <;> rfl
    simp only [htypes, Except.mapError, bind, Except.bind, ← hdeclared] at h
    by_cases hmissing : columnNames p = [] ∧ types ≠ []
    · rw [if_pos hmissing] at h
      cases h
    · rw [if_neg hmissing] at h
      by_cases hcount : (columnNames p).length ≠ (declaredTypes p).length
      · rw [if_pos hcount] at h
        cases h
      · rw [if_neg hcount] at h
        exact ⟨not_not.mp hcount, h⟩

theorem columns_of_accepted (h : ofColumnProperties p = .ok l) :
    (columnNames p).length = (declaredTypes p).length ∧
      l.columns = (columnNames p).zipWith column (declaredTypes p) := by
  obtain ⟨hcount, hcolumns⟩ := ofColumns_of_accepted h
  obtain ⟨-, rfl⟩ := ofColumns_eq_ok.mp hcolumns
  exact ⟨hcount, rfl⟩

/-- Columns are equal as far as their names are and their types meet. -/
theorem zipWith_column_eq_iff : ∀ {names names' : List String} {types types' : List ColumnType},
    names.length = types.length → names'.length = types'.length →
    (names.zipWith column types = names'.zipWith column types' ↔
      names = names' ∧ types.map ColumnType.folded = types'.map ColumnType.folded)
  | [], [], types, types', h, h' => by
    have ht : types = [] := List.length_eq_zero_iff.mp h.symm
    have ht' : types' = [] := List.length_eq_zero_iff.mp h'.symm
    simp [ht, ht']
  | [], _ :: _, _, t' :: _, _, _ => by simp
  | _ :: _, [], t :: _, _, _, _ => by simp
  | n :: names, n' :: names', t :: types, t' :: types', h, h' => by
    have ih := @zipWith_column_eq_iff names names' types types' (by simpa using h) (by simpa using h')
    simp only [List.zipWith_cons_cons, List.map_cons, List.cons.injEq, ih, column, FieldOf.mk.injEq,
      ColumnType.dataType_eq_iff, and_true]
    exact and_and_and_comm

theorem driftsFrom_iff (hl : ofColumnProperties p = .ok l) (hm : ofColumnProperties q = .ok m) :
    l.driftsFrom m = true ↔ ¬ (columnNames p = columnNames q ∧
      (declaredTypes p).map ColumnType.folded = (declaredTypes q).map ColumnType.folded) := by
  obtain ⟨hcount, hcolumns⟩ := columns_of_accepted hl
  obtain ⟨hcount', hcolumns'⟩ := columns_of_accepted hm
  have hsame : l = m ↔ l.columns = m.columns := by
    cases l
    cases m
    simp
  rw [driftsFrom, decide_eq_true_iff, Ne, hsame, hcolumns, hcolumns', zipWith_column_eq_iff hcount hcount']

/-- Lists of one length that differ do so somewhere. -/
theorem ne_iff_differ {α : Type} {xs ys : List α} (h : xs.length = ys.length) :
    xs ≠ ys ↔ ∃ (i : Nat) (x y : α), xs[i]? = some x ∧ ys[i]? = some y ∧ x ≠ y := by
  constructor
  · intro hne
    by_contra hsame
    refine hne (List.ext_getElem h fun i hi hi' => ?_)
    by_contra hdiffer
    exact hsame ⟨i, _, _, List.getElem?_eq_getElem hi, List.getElem?_eq_getElem hi', hdiffer⟩
  · rintro ⟨i, x, y, hx, hy, hne⟩ rfl
    exact hne (Option.some.inj (hx.symm.trans hy))

theorem ne_folded_iff_differ {types types' : List ColumnType} (h : types.length = types'.length) :
    types.map ColumnType.folded ≠ types'.map ColumnType.folded ↔
      ∃ (i : Nat) (t u : ColumnType), types[i]? = some t ∧ types'[i]? = some u ∧ t.folded ≠ u.folded := by
  rw [ne_iff_differ (by simpa using h)]
  constructor
  · rintro ⟨i, x, y, hx, hy, hne⟩
    rw [List.getElem?_map, Option.map_eq_some_iff] at hx hy
    obtain ⟨t, ht, rfl⟩ := hx
    obtain ⟨u, hu, rfl⟩ := hy
    exact ⟨i, t, u, ht, hu, hne⟩
  · rintro ⟨i, t, u, ht, hu, hne⟩
    exact ⟨i, _, _, by simp [ht], by simp [hu], hne⟩

theorem driftsFrom_comm (l m : Layout) : l.driftsFrom m = m.driftsFrom l := by
  unfold driftsFrom
  exact decide_eq_decide.mpr ne_comm

/-- Where a layout differs from another, and that it is the same the other way round. -/
theorem drift_iff_columns_differ :
    (∀ t u : ColumnType, t.dataType = u.dataType ↔ t.folded = u.folded) ∧
    ∀ (p q : Properties) (l m : Layout), ofColumnProperties p = .ok l → ofColumnProperties q = .ok m →
      (l.driftsFrom m = true ↔
        l.columns.length ≠ m.columns.length ∨
        (∃ (i : Nat) (n n' : String), (columnNames p)[i]? = some n ∧ (columnNames q)[i]? = some n' ∧ n ≠ n') ∨
        (∃ (i : Nat) (t u : ColumnType), (declaredTypes p)[i]? = some t ∧ (declaredTypes q)[i]? = some u ∧
          t.folded ≠ u.folded)) ∧
      l.driftsFrom m = m.driftsFrom l := by
  refine ⟨ColumnType.dataType_eq_iff, ?_⟩
  intro p q l m hl hm
  refine ⟨?_, driftsFrom_comm l m⟩
  obtain ⟨hcount, hcolumns⟩ := columns_of_accepted hl
  obtain ⟨hcount', hcolumns'⟩ := columns_of_accepted hm
  have hlength : l.columns.length = (columnNames p).length := by simp [hcolumns, hcount]
  have hlength' : m.columns.length = (columnNames q).length := by simp [hcolumns', hcount']
  rw [driftsFrom_iff hl hm, not_and_or, hlength, hlength']
  by_cases hnumber : (columnNames p).length = (columnNames q).length
  · have hnames := ne_iff_differ hnumber
    have htypes := ne_folded_iff_differ (hcount.symm.trans (hnumber.trans hcount'))
    simp only [hnumber, ne_eq, not_true_eq_false, false_or]
    exact or_congr hnames htypes
  · -- Lists of different lengths differ, though each name and type that they share may be the same.
    have hnames : columnNames p ≠ columnNames q := fun heq => hnumber (congrArg List.length heq)
    simp [hnumber, hnames]

/-- No types are given, so both columns are strings. -/
def untypedColumns : Properties := .ofList [(columnsKey, " ID,Tag")]

def sizedColumns : Properties := .ofList [(columnsKey, "id,tag"), (columnTypesKey, "varchar(9):CHAR(4)")]

def nestedColumns : Properties := .ofList [(columnsKey, "id,tag"), (columnTypesKey, "string:struct<X:int>")]

theorem nestedColumns_drift : ∃ l m n, ofColumnProperties untypedColumns = .ok l ∧
    ofColumnProperties sizedColumns = .ok m ∧ ofColumnProperties nestedColumns = .ok n ∧
    l.driftsFrom m = false ∧ m.driftsFrom n = true := by
  have huntyped : ofColumnProperties untypedColumns = .ok ⟨[column "id" .string, column "tag" .string]⟩ :=
    ColumnType.ok_of_toOption (by decide +kernel)
  have hsized : ofColumnProperties sizedColumns = .ok ⟨[column "id" (.varchar 9), column "tag" (.char 4)]⟩ :=
    ColumnType.ok_of_toOption (by decide +kernel)
  have hnested : ofColumnProperties nestedColumns =
      .ok ⟨[column "id" .string, column "tag" (.struct [("x", .int)])]⟩ := ColumnType.ok_of_toOption (by decide +kernel)
  refine ⟨_, _, _, huntyped, hsized, hnested, by decide, ?_⟩
  obtain ⟨-, hdrift⟩ := drift_iff_columns_differ
  refine (hdrift _ _ _ _ hsized hnested).1.mpr (.inr (.inr ⟨1, .char 4, .struct [("X", .int)], ?_⟩))
  exact ⟨by decide +kernel, by decide +kernel, by decide⟩

end Layout

end TableScan
