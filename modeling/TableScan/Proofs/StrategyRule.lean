/-
  TableScan.Proofs.StrategyRule — the strategy of a split is given by one rule, applied to what
  is true of the split itself: the format its rows are in, whether its columns drifted, and
  whether deltas are pending. That the strategy is resolved for the table first, and for the
  partition only sometimes, does not show (`plan_obeys_rule`).

  - `Rule`: the rule, row by row.
  - `layeredFormat`, `layeredLibrary`: what a partition leaves to its table.
  - `effectiveFormat`, `Drifts`, `HasDeltas`: what is true of a split, told from the scan and
    the payload alone.
-/

import TableScan.Proofs.Construction

namespace TableScan.Scan

/-! ## What a partition leaves to its table -/

/-- The input format of the partition, or else of the table. -/
def layeredFormat (t : Table) (o : Option PartitionOverride) : Option String := (o.bind (·.format)).or t.format

/-- The serialization library of the partition, or else of the table. -/
def layeredLibrary (t : Table) (o : Option PartitionOverride) : Option String := (o.bind (·.library)).or t.library

theorem partitionFormat?_layered (t : Table) (id : PartitionId) :
    t.partitionFormat? id = layeredFormat t (t.partition? id) := rfl

theorem partitionLibrary?_layered (t : Table) (id : PartitionId) :
    t.partitionLibrary? id = layeredLibrary t (t.partition? id) := rfl

/-! ## What is true of a split -/

/-- The format that the rows of a split are in. -/
def effectiveFormat (s : Scan) (d : SplitDetails) : Option String :=
  if s.table.isPartitioned then d.partition.bind fun id => layeredFormat s.table (s.table.partition? id)
  else s.table.format

def derivedLayout? (s : Scan) (settings : Properties) (library : Option String)
    (properties : Properties) : Option Layout := do
  let handle ← (s.serdes settings (← library) properties).toOption
  handle.layout.toOption

def tableLayout? (s : Scan) : Option Layout :=
  derivedLayout? s s.baseSettings s.table.library s.table.properties

def partitionLayout? (s : Scan) (id : PartitionId) : Option Layout :=
  let properties := s.table.partitionProperties id
  derivedLayout? s (s.baseSettings.overlay properties) (layeredLibrary s.table (s.table.partition? id)) properties

/-- The layout of the partition is not that of the table. -/
def Drifts (s : Scan) (d : SplitDetails) : Prop :=
  s.table.isPartitioned = true ∧ d.partition.bind (partitionLayout? s) ≠ tableLayout? s

/-- The table is transactional, and deltas are listed under the root of the split. -/
def HasDeltas (s : Scan) (d : SplitDetails) : Prop :=
  Properties.marksTransactional (s.settings.overlay s.table.properties) = true ∧
    ∃ range found, d.storage.transactional? = some range ∧
      s.deltas (Delta.root range) range = .ok found ∧ found ≠ []

/-! ## The rule -/

/-- The strategy for rows in a format; a native columnar reader may be a vectorized one or not. -/
inductive Rule (registry : Registry) (format : Option String) (vectorized : Prop) : Strategy → Prop
  | noFormat : format = none → Rule registry format vectorized .default
  | unregistered {f : String} : format = some f → registry.get? f = none →
      Rule registry format vectorized .default
  | other {f : String} {strategy : Strategy} : format = some f → registry.get? f = some strategy →
      strategy ≠ .columnarNative → Rule registry format vectorized strategy
  | vectorized {f : String} : format = some f → registry.get? f = some .columnarNative → vectorized →
      Rule registry format vectorized .columnarVectorized
  | native {f : String} : format = some f → registry.get? f = some .columnarNative → ¬ vectorized →
      Rule registry format vectorized .columnarNative

theorem Rule.congr {registry : Registry} {f g : Option String} {p q : Prop} {strategy : Strategy}
    (h : Rule registry f p strategy) (hf : f = g) (hp : p ↔ q) : Rule registry g q strategy := by
  subst hf
  rwa [← propext hp]

theorem resolve_rule {r : Resolver} {c : Circumstances} {strategy : Strategy}
    (h : r.resolve c = .ok strategy) :
    Rule r.registry c.format
      (c.vectorize = true ∧ ¬ c.drifted = true ∧ ¬ (c.transactional = true ∧ c.pendingDeltas = true))
      strategy := by
  unfold Resolver.resolve at h
  cases hf : c.format with
  | none =>
    obtain rfl : .default = strategy := by simpa [hf] using h
    exact .noFormat rfl
  | some f =>
    cases hr : r.registry.get? f with
    | none =>
      obtain rfl : .default = strategy := by simpa [hf, hr] using h
      exact .unregistered rfl hr
    | some registered =>
      by_cases hn : registered = .columnarNative
      · subst hn
        simp only [hf, Option.bind_some, hr] at h
        obtain ⟨_, -, h⟩ := bind_eq_ok.mp h
        obtain rfl := Except.ok.inj h
        split
        · exact .vectorized rfl hr (by grind)
        · exact .native rfl hr (by grind)
      · obtain rfl : registered = strategy := by
          cases registered <;> first | exact absurd rfl hn | simpa [hf, hr] using h
        exact .other rfl hr hn

/-! ## A survey tells what is true of the split -/

section Surveyed

variable {s : Scan} {split : Split} {v : Survey}

theorem tableLayout_of_rows {rows : RowFormat} (h : tableRowsOf s = .ok rows) :
    tableLayout? s = some rows.layout := by
  obtain ⟨name, hn, hh, hl⟩ := rowsOf_eq_ok.mp h
  simp [tableLayout?, derivedLayout?, hn, hh, hl, Except.toOption]

/-- The partition of a survey, and what it was made of. -/
theorem partitionOf_eq_ok {d : SplitDetails} {settings : Properties} {view : Option PartitionView}
    (h : partitionOf s d = .ok (settings, view)) :
    (s.table.isPartitioned = false ∧ settings = s.baseSettings ∧ view = none) ∨
      (s.table.isPartitioned = true ∧ ∃ id rows, d.partition = some id ∧
        settings = s.baseSettings.overlay (s.table.partitionProperties id) ∧ view = some ⟨id, rows⟩ ∧
        rowsOf s (some id) settings (s.table.partitionLibrary? id) (s.table.partitionProperties id)
          = .ok rows) := by
  unfold partitionOf at h
  split at h
  · rename_i hp
    simp only [bind_eq_ok, orFault_eq_ok] at h
    obtain ⟨id, hid, _, -, rows, hrows, h⟩ := h
    cases h
    exact .inr ⟨hp, id, rows, hid, rfl, rfl, hrows⟩
  · rename_i hp
    cases h
    exact .inl ⟨by simpa using hp, rfl, rfl⟩

theorem Surveyed.format_eq (h : Surveyed s split v) : v.format s = effectiveFormat s v.details := by
  rcases partitionOf_eq_ok h.partition with ⟨hp, -, hv⟩ | ⟨hp, id, rows, hid, -, hv, -⟩
  · simp [Survey.format, effectiveFormat, hp, hv]
  · simp [Survey.format, effectiveFormat, partitionFormat?_layered, hp, hv, hid]

theorem Surveyed.drifted_iff (h : Surveyed s split v) : v.drifted = true ↔ Drifts s v.details := by
  have ht := tableLayout_of_rows h.tableRows
  rcases partitionOf_eq_ok h.partition with ⟨hp, -, hv⟩ | ⟨hp, id, rows, hid, hs, hv, hrows⟩
  · simp [Survey.drifted, Drifts, hp, hv]
  · obtain ⟨name, hn, hh, hl⟩ := rowsOf_eq_ok.mp hrows
    rw [partitionLibrary?_layered] at hn
    have hl' : partitionLayout? s id = some rows.layout := by
      simp [partitionLayout?, derivedLayout?, hn, ← hs, hh, hl, Except.toOption]
    simp [Survey.drifted, Drifts, hp, hv, hid, ht, hl', Layout.driftsFrom]

theorem Surveyed.pending_iff (h : Surveyed s split v) : v.pending = true ↔ HasDeltas s v.details := by
  have hq := h.pending
  unfold pendingOf at hq
  split at hq
  · rename_i ht
    simp only [bind_eq_ok, orFault_eq_ok, orCause_eq_ok] at hq
    obtain ⟨range, hr, found, hf, hq⟩ := hq
    obtain hq := Except.ok.inj hq
    constructor
    · intro hp
      exact ⟨ht, range, found, hr, hf, by simpa [← hq] using hp⟩
    · intro h
      obtain ⟨-, range', found', hr', hf', hne⟩ := h
      obtain rfl : range = range' := Option.some.inj (hr.symm.trans hr')
      obtain rfl : found = found' := Except.ok.inj (hf.symm.trans hf')
      simpa [← hq] using hne
  · rename_i ht
    obtain hq := Except.ok.inj hq
    constructor
    · intro hp
      cases hq.trans hp
    · intro hd
      exact absurd hd.1 ht

end Surveyed

/-! ## Plans -/

/-- A plan that says what is true of the split, and obeys the rule. -/
structure ObeysRule (s : Scan) (d : SplitDetails) (p : Plan) : Prop where
  strategy : Rule s.resolver.registry (effectiveFormat s d)
    (s.context.vectorize = true ∧ ¬ Drifts s d ∧ ¬ HasDeltas s d) p.strategy
  tableStrategy : Rule s.resolver.registry s.table.format
    (s.context.vectorize = true ∧ ¬ HasDeltas s d) p.tableStrategy
  format : p.format = effectiveFormat s d
  partition : p.partition = if s.table.isPartitioned then d.partition else none
  drifted : p.drifted = true ↔ Drifts s d
  transactional : p.transactional = Properties.marksTransactional (s.settings.overlay s.table.properties)
  pendingDeltas : p.pendingDeltas = true ↔ HasDeltas s d
  partitionResolved : p.partitionResolved = true ↔ s.table.isPartitioned = true ∧
    (effectiveFormat s d ≠ s.table.format ∨ Drifts s d ∨ HasDeltas s d)

section Surveyed

variable {s : Scan} {split : Split} {v : Survey}

theorem Surveyed.partition_eq (h : Surveyed s split v) :
    v.partition.map (·.id) = if s.table.isPartitioned then v.details.partition else none := by
  rcases partitionOf_eq_ok h.partition with ⟨hp, -, hv⟩ | ⟨hp, id, rows, hid, -, hv, -⟩
  · simp [hp, hv]
  · simp [hp, hv, hid]

theorem Surveyed.partition_isSome (h : Surveyed s split v) :
    v.partition.isSome = s.table.isPartitioned := by
  rcases partitionOf_eq_ok h.partition with ⟨hp, -, hv⟩ | ⟨hp, id, rows, -, -, hv, -⟩
  · simp [hp, hv]
  · simp [hp, hv]

/-- Deltas are pending only in transactional tables. -/
theorem Surveyed.merge_iff (h : Surveyed s split v) :
    s.isTransactional = true ∧ v.pending = true ↔ HasDeltas s v.details := by
  rw [h.pending_iff]
  exact ⟨And.right, fun hd => ⟨hd.1, hd⟩⟩

theorem Surveyed.again_iff (h : Surveyed s split v) :
    v.again s = true ↔ s.table.isPartitioned = true ∧
      (effectiveFormat s v.details ≠ s.table.format ∨ Drifts s v.details ∨ HasDeltas s v.details) := by
  simp only [Survey.again, Bool.and_eq_true, Bool.or_eq_true, bne_iff_ne, h.partition_isSome,
    h.format_eq, h.drifted_iff, h.merge_iff, or_assoc]

/-- A split for which the strategy of the table is kept is as the table says. -/
theorem Surveyed.of_not_again (h : Surveyed s split v) (ha : ¬ v.again s = true) :
    effectiveFormat s v.details = s.table.format ∧ ¬ Drifts s v.details := by
  rw [h.again_iff] at ha
  by_cases hp : s.table.isPartitioned = true
  · have hn : ¬ (effectiveFormat s v.details ≠ s.table.format ∨ Drifts s v.details ∨
        HasDeltas s v.details) := fun hd => ha ⟨hp, hd⟩
    exact ⟨Decidable.byContradiction fun hf => hn (.inl hf), fun hd => hn (.inr (.inl hd))⟩
  · exact ⟨by simp [effectiveFormat, hp], fun hd => hp hd.1⟩

theorem tableStrategy_rule (h : Surveyed s split v) {strategy : Strategy}
    (ht : v.tableStrategy s = .ok strategy) :
    Rule s.resolver.registry s.table.format (s.context.vectorize = true ∧ ¬ HasDeltas s v.details)
      strategy :=
  (resolve_rule ht).congr rfl (by simp [← h.merge_iff])

/-- Where the strategy is not resolved for the partition, the rule gives the same for both. -/
theorem strategy_rule (h : Surveyed s split v) {tableStrategy strategy : Strategy}
    (ht : v.tableStrategy s = .ok tableStrategy)
    (hs : (if v.again s then v.partitionStrategy s else .ok tableStrategy) = .ok strategy) :
    Rule s.resolver.registry (effectiveFormat s v.details)
      (s.context.vectorize = true ∧ ¬ Drifts s v.details ∧ ¬ HasDeltas s v.details) strategy := by
  by_cases ha : v.again s = true
  · rw [if_pos ha] at hs
    exact (resolve_rule hs).congr h.format_eq (by simp only [h.drifted_iff, h.merge_iff])
  · rw [if_neg ha] at hs
    cases hs
    obtain ⟨hf, hd⟩ := h.of_not_again ha
    exact (tableStrategy_rule h ht).congr hf.symm (by simp [hd])

end Surveyed

theorem plan_obeys_rule (s : Scan) (split : Split) {σ τ : Session} {p : Plan} (hσ : Reached s σ)
    (h : (plan s split).run σ = (.ok p, τ)) :
    p.splitKey = split.key ∧ ∃ d, split.details? = some d ∧ ObeysRule s d p := by
  obtain ⟨υ, hυ, -⟩ := plan_settles s split σ hσ.sound.remembers
  have ho : (outlook s split).map (·.plan) = .ok p := congrArg Prod.fst (hυ.symm.trans h)
  cases hq : outlook s split with
  | error e => simp [hq, Except.map] at ho
  | ok q =>
    obtain ⟨v, hv, hd⟩ := outlook_eq_ok.mp hq
    obtain ⟨t, u, ht, hu, rfl⟩ := decide_eq_ok.mp hd
    obtain rfl : (v.prepared s split t u).plan = p := by simpa [hq, Except.map] using ho
    exact ⟨rfl, v.details, hv.details, strategy_rule hv ht hu, tableStrategy_rule hv ht, hv.format_eq,
      hv.partition_eq, hv.drifted_iff, rfl, hv.pending_iff, hv.again_iff⟩

/-- A transactional table of one column, whose partition 1 stores that column with another type. -/
def driftingTable : Table :=
  { Table.ofFormat "serde" "orc" with
    properties := Dict.ofList
      [(Layout.columnsKey, "a"), (Layout.columnTypesKey, "int"), (Properties.transactionalKey, "true")]
    partitionColumns := ["ds"]
    partitions := Dict.ofList
      [(1, { PartitionOverride.none with properties := Dict.ofList [(Layout.columnTypesKey, "bigint")] })] }

def driftingScan : Scan where
  resolver := ⟨Dict.ofList [("orc", .columnarNative)], .everything⟩
  constructors := .uniform fun _ _ => .ok .empty
  serdes := .permissive
  deltas := Delta.recorded
  table := driftingTable
  part := ⟨[], ["a"], none⟩
  context := ⟨true, "reader", .current, "root"⟩
  composite := .ofColumns ["a"] ["ds"]
  settings := .empty

/-- A split of partition 1 without deltas, its payload written as an array. -/
def driftingSplit : Split := ⟨"s", "[1,[\"acid\",\"/t/b/f\",0,9,true]]".toUTF8.toList, []⟩

theorem drifting_plan :
    ((plan driftingScan driftingSplit).run .start).1.toOption =
      some ⟨"s", some 1, some "orc", .columnarVectorized, .columnarNative, true, true, true,
        false⟩ := by
  decide +kernel

theorem drifting_plan_obeys_rule :
    ∃ p τ, Reached driftingScan .start ∧ (plan driftingScan driftingSplit).run .start = (.ok p, τ) ∧
      p.tableStrategy = .columnarVectorized ∧ p.strategy = .columnarNative ∧
      p.splitKey = driftingSplit.key ∧ ∃ d, driftingSplit.details? = some d ∧ ObeysRule driftingScan d p := by
  have hp := drifting_plan
  rcases h : (plan driftingScan driftingSplit).run .start with ⟨r, τ⟩
  rw [h] at hp
  cases r with
  | error e => cases hp
  | ok p =>
    obtain rfl := Option.some.inj hp
    exact ⟨_, τ, .start, rfl, rfl, rfl, plan_obeys_rule driftingScan driftingSplit .start h⟩

end TableScan.Scan
