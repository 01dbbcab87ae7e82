/-
  TableScan.Proofs.UnrelatedProperties — a partition that says nothing about its rows is read as
  its table says, whatever other properties it sets.

  Layouts are derived from four properties (`Layout.keys`), and nothing else is looked at. So a
  partition that sets none of them, and names no library and no format, has the rows of its table.
  Then only pending deltas have the strategy resolved for the partition, with settings that may
  differ in any other key; it comes out as the table's all the same.

  - `Layout.Agree`: two sets of properties that the derivation of a layout cannot tell apart.
  - `layout_congr`: one layout or one fault for both, with every library.
  - `Rule.unique`: the rule gives no two strategies.
  - `unrelated_properties_ignored`: both statements, and what they come to in a plan.
-/

import TableScan.Proofs.Layers

namespace TableScan

/-! ## The properties of layouts -/

namespace Layout

/-- The properties that layouts are derived from. -/
def keys : List String := [columnsKey, columnTypesKey, delimiterKey, avroLiteralKey]

/-- Each of these properties is absent in both, or the same in both. -/
def Agree (p q : Properties) : Prop := ∀ key ∈ keys, p.get? key = q.get? key

variable {p q : Properties}

theorem Agree.columns (h : Agree p q) : p.get? columnsKey = q.get? columnsKey := h _ (by simp [keys])

theorem Agree.columnTypes (h : Agree p q) : p.get? columnTypesKey = q.get? columnTypesKey := h _ (by simp [keys])

theorem Agree.delimiter (h : Agree p q) : p.get? delimiterKey = q.get? delimiterKey := h _ (by simp [keys])

theorem Agree.avroLiteral (h : Agree p q) : p.get? avroLiteralKey = q.get? avroLiteralKey := h _ (by simp [keys])

theorem columnNames_congr (h : Agree p q) : columnNames p = columnNames q := by
  have hdelimiter : Layout.delimiter p = Layout.delimiter q := by
    unfold Layout.delimiter
    rw [h.delimiter]
  unfold columnNames
  rw [h.columns, hdelimiter]

theorem columnTypes_congr (h : Agree p q) : Layout.columnTypes p = Layout.columnTypes q := by
  unfold Layout.columnTypes
  rw [h.columnTypes]

theorem ofColumnProperties_congr (h : Agree p q) : ofColumnProperties p = ofColumnProperties q := by
  unfold ofColumnProperties
  rw [columnNames_congr h, columnTypes_congr h]

theorem allStrings_congr (h : Agree p q) : allStrings p = allStrings q := by
  unfold allStrings
  rw [columnNames_congr h]

theorem ofAvroProperties_congr (h : Agree p q) : ofAvroProperties p = ofAvroProperties q := by
  unfold ofAvroProperties
  rw [h.avroLiteral, ofColumnProperties_congr h]

end Layout

open Layout (Agree)

theorem Serde.Handle.layout_congr {p q : Properties} (h : Agree p q) (library : String) :
    (Serde.Handle.mk library p).layout = (Serde.Handle.mk library q).layout := by
  unfold Serde.Handle.layout
  dsimp only
  rw [Layout.ofAvroProperties_congr h, Layout.allStrings_congr h, Layout.ofColumnProperties_congr h]

/-- The partition names no library and no format, and sets no property that layouts are derived from. -/
structure PartitionOverride.KeepsRows (o : PartitionOverride) : Prop where
  library : o.library = .none
  format : o.format = .none
  properties : ∀ key ∈ Layout.keys, o.properties.get? key = .none

namespace Scan

/-! ## Partitions with the rows of their table -/

section KeepsRows

variable {s : Scan} {id : PartitionId} {o : PartitionOverride}

theorem agree_partitionProperties (ho : s.table.partition? id = some o) (hkeeps : o.KeepsRows) :
    Agree (s.table.partitionProperties id) s.table.properties := by
  intro key hkey
  rw [get?_partitionProperties, ho, propertyValue, Option.bind_some, hkeeps.properties key hkey, Option.none_or]

theorem layeredLibrary_eq (ho : s.table.partition? id = some o) (hkeeps : o.KeepsRows) :
    layeredLibrary s.table (s.table.partition? id) = s.table.library := by
  simp [layeredLibrary, ho, hkeeps.library]

theorem layeredFormat_eq (ho : s.table.partition? id = some o) (hkeeps : o.KeepsRows) :
    layeredFormat s.table (s.table.partition? id) = s.table.format := by
  simp [layeredFormat, ho, hkeeps.format]

/-- The libraries of the engine do not look at settings. -/
theorem derivedLayout?_congr (hserdes : s.serdes = .builtIn) {p q : Properties} (h : Agree p q)
    (settings settings' : Properties) (library : Option String) :
    derivedLayout? s settings library p = derivedLayout? s settings' library q := by
  unfold derivedLayout?
  rw [hserdes]
  cases library with
  | none => rfl
  | some name =>
    by_cases hknown : name ∈ Serde.known
    · simp [Serde.Factory.builtIn, hknown, Except.toOption, Serde.Handle.layout_congr h]
    · simp [Serde.Factory.builtIn, hknown, Except.toOption]

theorem partitionLayout?_eq (hserdes : s.serdes = .builtIn) (ho : s.table.partition? id = some o)
    (hkeeps : o.KeepsRows) : partitionLayout? s id = tableLayout? s := by
  unfold partitionLayout? tableLayout?
  rw [layeredLibrary_eq ho hkeeps]
  exact derivedLayout?_congr hserdes (agree_partitionProperties ho hkeeps) _ _ _

end KeepsRows

/-! ## Plans -/

theorem Rule.unique {registry : Registry} {format : Option String} {vectorized : Prop} {a b : Strategy}
    (ha : Rule registry format vectorized a) (hb : Rule registry format vectorized b) : a = b := by
  cases ha <;> cases hb <;> simp_all

/-- Where neither the format nor the layout differs, resolving for the partition gives the strategy of the table. -/
theorem Surveyed.strategy_eq {s : Scan} {split : Split} {v : Survey} {tableStrategy strategy : Strategy}
    (h : Surveyed s split v) (hformat : effectiveFormat s v.details = s.table.format) (hdrift : ¬ Drifts s v.details)
    (ht : v.tableStrategy s = .ok tableStrategy)
    (hs : (if v.again s then v.partitionStrategy s else .ok tableStrategy) = .ok strategy) :
    strategy = tableStrategy := by
  have hrule := (strategy_rule h ht hs).congr hformat (and_congr_right' (and_iff_right hdrift))
  exact hrule.unique (tableStrategy_rule h ht)

/-- Properties other than those of layouts change no layout, and alone no plan. -/
theorem unrelated_properties_ignored :
    (∀ (library : String) (p q : Properties), Agree p q →
      (Serde.Handle.mk library p).layout = (Serde.Handle.mk library q).layout) ∧
    ∀ (s : Scan) (split : Split) (d : SplitDetails) (id : PartitionId) (o : PartitionOverride) (σ τ : Session)
      (p : Plan), s.serdes = .builtIn → s.table.isPartitioned = true → split.details? = some d →
      d.partition = some id → s.table.partition? id = some o → o.KeepsRows → Reached s σ →
      (plan s split).run σ = (.ok p, τ) →
      p.drifted = false ∧ (p.partitionResolved = true ↔ HasDeltas s d) ∧ p.strategy = p.tableStrategy := by
  refine ⟨fun library p q h => Serde.Handle.layout_congr h library, ?_⟩
  intro s split d id o σ τ p hserdes hp hd hid ho hkeeps hσ hplan
  obtain ⟨q, hq, rfl⟩ := plan_foreseen hσ.sound.remembers hplan
  obtain ⟨v, tableStrategy, strategy, hv, ht, hs, rfl⟩ := outlook_prepared hq
  obtain rfl : v.details = d := Option.some.inj (hv.details.symm.trans hd)
  have hformat : effectiveFormat s v.details = s.table.format := by
    simp [effectiveFormat, hp, hid, layeredFormat_eq ho hkeeps]
  have hdrift : ¬ Drifts s v.details := by
    intro h
    exact h.2 (by rw [hid, Option.bind_some, partitionLayout?_eq hserdes ho hkeeps])
  have hagain : v.again s = true ↔ HasDeltas s v.details := by
    simp [hv.again_iff, hp, hformat, hdrift]
  exact ⟨eq_false_of_ne_true (mt hv.drifted_iff.mp hdrift), hagain, hv.strategy_eq hformat hdrift ht hs⟩

/-- A transactional table, whose partition 1 sets an owner and asks for zero-copy reads. -/
def ownedTable : Table :=
  { Table.ofFormat Serde.orc Registry.orcFormat with
    properties := Dict.ofList
      [(Layout.columnsKey, "a"), (Layout.columnTypesKey, "int"), (Properties.transactionalKey, "true")]
    partitionColumns := ["ds"]
    partitions := Dict.ofList [(1, { PartitionOverride.none with
      properties := Dict.ofList [("owner", "etl"), (Properties.zeroCopyKey, "true")] })] }

def ownedScan : Scan where
  resolver := .standard
  constructors := .uniform fun _ _ => .ok .empty
  serdes := .builtIn
  deltas := Delta.recorded
  table := ownedTable
  part := ⟨[], ["a"], none⟩
  context := ⟨true, "reader", .current, "root"⟩
  composite := .ofColumns ["a"] ["ds"]
  settings := .empty

/-- A split of partition 1 with a delta, its payload written as an array. -/
def unmergedSplit : Split := ⟨"s", "[1,[\"acid\",\"/t/b/f\",0,9,true,false,[[6,6]]]]".toUTF8.toList, []⟩

def unmergedDetails : SplitDetails := ⟨some 1, .transactional ⟨"/t/b/f", 0, 9, true, false, [⟨6, 6, []⟩]⟩⟩

theorem unmerged_plan :
    ((plan ownedScan unmergedSplit).run .start).1.toOption =
      some ⟨"s", some 1, some Registry.orcFormat, .columnarNative, .columnarNative, true, false, true, true⟩ := by
  decide +kernel

theorem ownedTable_ignores_owner :
    ∃ o p τ, ownedTable.partition? 1 = some o ∧ o.KeepsRows ∧
      (Serde.Handle.mk Serde.avro (ownedTable.partitionProperties 1)).layout =
        (Serde.Handle.mk Serde.avro ownedTable.properties).layout ∧
      unmergedSplit.details? = some unmergedDetails ∧ (plan ownedScan unmergedSplit).run .start = (.ok p, τ) ∧
      p.drifted = false ∧ p.partitionResolved = true ∧ HasDeltas ownedScan unmergedDetails ∧
      p.strategy = p.tableStrategy := by
  have hkeeps : PartitionOverride.KeepsRows
      { PartitionOverride.none with properties := .ofList [("owner", "etl"), (Properties.zeroCopyKey, "true")] } :=
    ⟨rfl, rfl, by decide⟩
  have hdetails : unmergedSplit.details? = some unmergedDetails := by decide +kernel
  obtain ⟨hlayouts, hplans⟩ := unrelated_properties_ignored
  have hagree : Agree (ownedTable.partitionProperties 1) ownedTable.properties :=
    agree_partitionProperties (s := ownedScan) rfl hkeeps
  have hlayout := hlayouts Serde.avro _ _ hagree
  have hp := unmerged_plan
  rcases h : (plan ownedScan unmergedSplit).run .start with ⟨r, τ⟩
  rw [h] at hp
  cases r with
  | error e => cases hp
  | ok p =>
    obtain rfl := Option.some.inj hp
    obtain ⟨hdrift, hagain, hstrategy⟩ := hplans _ _ _ 1 _ _ _ _ rfl rfl hdetails rfl rfl hkeeps .start h
    exact ⟨_, _, τ, rfl, hkeeps, hlayout, hdetails, rfl, hdrift, rfl, hagain.mp rfl, hstrategy⟩

end Scan

end TableScan
