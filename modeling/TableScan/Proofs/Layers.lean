/-
  TableScan.Proofs.Layers — what a constructor is handed shows the layers of its split: the
  override of its partition, over the table, over the settings of the engine.

  - `overrideFor`: the top layer, which only partitioned tables have.
  - `propertyValue`, `layeredValue`: the value of a key, from the topmost layer that has it.
  - `ShowsLayers`: all of a request, told from the layers of its split.
  - `requests_show_layers`: every request of every run does, and splits leave what all of them
    start from as it was.
-/

import TableScan.Proofs.Order

namespace TableScan

namespace Serde.Factory

/-- A handle is of the library that was asked for, with the properties it was to be set up with. -/
def Faithful (f : Factory) : Prop :=
  ∀ settings library properties handle, f settings library properties = .ok handle → handle = ⟨library, properties⟩

theorem permissive_faithful : permissive.Faithful := by
  intro settings library properties handle h
  exact (Except.ok.inj h).symm

theorem builtIn_faithful : builtIn.Faithful := by
  intro settings library properties handle h
  unfold builtIn at h
  split at h
  · exact (Except.ok.inj h).symm
  · cases h

end Serde.Factory

namespace Scan

/-! ## The layers of a split -/

/-- What the partition of a split does differently from the table. -/
def overrideFor (s : Scan) (d : SplitDetails) : Option PartitionOverride :=
  (partitionFor s d).bind s.table.partition?

/-- The property of the partition, or else of the table. -/
def propertyValue (t : Table) (o : Option PartitionOverride) (key : String) : Option String :=
  (o.bind (·.properties.get? key)).or (t.properties.get? key)

/-- The property of the partition or table, or else the setting of the engine. -/
def layeredValue (s : Scan) (o : Option PartitionOverride) (key : String) : Option String :=
  (propertyValue s.table o key).or (s.settings.get? key)

theorem get?_partitionProperties (t : Table) (id : PartitionId) (key : String) :
    (t.partitionProperties id).get? key = propertyValue t (t.partition? id) key := by
  unfold Table.partitionProperties propertyValue
  cases t.partition? id with
  | none => rfl
  | some o => exact Dict.get?_overlay ..

theorem get?_baseSettings (s : Scan) (key : String) :
    s.baseSettings.get? key = (s.table.properties.get? key).or (s.settings.get? key) :=
  Dict.get?_overlay ..

section Layers

variable {s : Scan} {d : SplitDetails}

/-- The properties of the table lie in the settings twice, which does not show. -/
theorem get?_layeredFor (key : String) : (layeredFor s d).get? key = layeredValue s (overrideFor s d) key := by
  unfold layeredFor overrideFor layeredValue
  cases partitionFor s d with
  | none => exact get?_baseSettings s key
  | some id =>
    dsimp only [Option.bind_some]
    rw [Dict.get?_overlay, get?_baseSettings, get?_partitionProperties, propertyValue]
    cases (s.table.partition? id).bind (·.properties.get? key) <;> cases s.table.properties.get? key <;> rfl

theorem get?_settingsFor (key : String) : (settingsFor s d).get? key =
    if key = Properties.inputFormatKey then (effectiveFormat s d).or (layeredValue s (overrideFor s d) key)
    else layeredValue s (overrideFor s d) key := by
  unfold settingsFor
  cases effectiveFormat s d with
  | none => simp [get?_layeredFor]
  | some format =>
    dsimp only
    rw [Properties.withInputFormat, Dict.get?_insert, get?_layeredFor, Option.some_or]

end Layers

/-! ## What a survey found -/

section Surveyed

variable {s : Scan} {split : Split} {v : Survey}

/-- Splits of partitioned tables are of partitions that the table knows. -/
theorem Surveyed.override (h : Surveyed s split v) (hp : s.table.isPartitioned = true) :
    ∃ id o, v.details.partition = some id ∧ s.table.partition? id = some o ∧ overrideFor s v.details = some o := by
  have hpart := h.partition
  simp only [partitionOf, hp, if_true, bind_eq_ok, orFault_eq_ok] at hpart
  obtain ⟨id, hid, o, ho, -⟩ := hpart
  exact ⟨id, o, hid, ho, by simp [overrideFor, partitionFor, hp, hid, ho]⟩

theorem Surveyed.format_layered (h : Surveyed s split v) :
    effectiveFormat s v.details = layeredFormat s.table (overrideFor s v.details) := by
  cases hp : s.table.isPartitioned with
  | false => simp [effectiveFormat, layeredFormat, overrideFor, partitionFor, hp]
  | true =>
    obtain ⟨id, o, hid, ho, hover⟩ := h.override hp
    simp [effectiveFormat, hp, hid, ho, hover]

end Surveyed

/-- The rows are those of a library with its properties. -/
structure RowFormat.Derived (rows : RowFormat) (library : Option String) (property : String → Option String) :
    Prop where
  library : library = some rows.handle.library
  properties : ∀ key, rows.handle.properties.get? key = property key
  layout : rows.handle.layout = .ok rows.layout

theorem derived_of_rowsOf {s : Scan} (hf : s.serdes.Faithful) {partition : Option PartitionId}
    {settings properties : Properties} {library : Option String} {rows : RowFormat}
    (h : rowsOf s partition settings library properties = .ok rows) :
    rows.handle.properties = properties ∧ rows.Derived library properties.get? := by
  obtain ⟨name, hn, hh, hl⟩ := rowsOf_eq_ok.mp h
  have hhandle := hf _ _ _ _ hh
  refine ⟨by rw [hhandle], ?_, ?_, hl⟩
  · rw [hn, hhandle]
  · intro key
    rw [hhandle]

/-- A request, told from the layers of its split. -/
structure ShowsLayers (s : Scan) (d : SplitDetails) (r : Request) : Prop where
  details : r.split.details? = some d ∧ r.details = d
  override : s.table.isPartitioned = true →
    ∃ id o, d.partition = some id ∧ s.table.partition? id = some o ∧ overrideFor s d = some o
  noOverride : s.table.isPartitioned = false → overrideFor s d = none
  /-- The value of every key there is: no other key has one. -/
  settings : ∀ key, r.settings.get? key =
    if key = Properties.inputFormatKey
    then (layeredFormat s.table (overrideFor s d)).or (layeredValue s (overrideFor s d) key)
    else layeredValue s (overrideFor s d) key
  /-- The properties of the table reach its rows without those of the partition. -/
  tableRows : r.tableRows.handle.properties = s.table.properties ∧
    r.tableRows.Derived s.table.library s.table.properties.get?
  partitioned : r.partitionRows.isSome = s.table.isPartitioned
  partitionRows : ∀ rows, r.partitionRows = some rows →
    rows.Derived (layeredLibrary s.table (overrideFor s d)) (propertyValue s.table (overrideFor s d))
  columns : r.columns = s.composite.innerColumns
  filter : r.filter = s.part.filter

theorem Surveyed.showsLayers {s : Scan} {split : Split} {v : Survey} (h : Surveyed s split v)
    (hf : s.serdes.Faithful) (tableStrategy strategy : Strategy) :
    ShowsLayers s v.details (request s split (v.prepared s split tableStrategy strategy)) where
  details := ⟨h.details, rfl⟩
  override := h.override
  noOverride hp := by simp [overrideFor, partitionFor, hp]
  settings key := by
    rw [← h.format_layered, ← get?_settingsFor, ← h.settings_eq]
    rfl
  tableRows := derived_of_rowsOf hf h.tableRows
  partitioned := by
    change (v.partition.map (·.rows)).isSome = s.table.isPartitioned
    rw [Option.isSome_map]
    rcases partitionOf_eq_ok h.partition with ⟨hp, -, hv⟩ | ⟨hp, id, rows, -, -, hv, -⟩ <;> rw [hp, hv] <;> rfl
  partitionRows rows hrows := by
    replace hrows : v.partition.map (·.rows) = some rows := hrows
    rcases partitionOf_eq_ok h.partition with ⟨-, -, hv⟩ | ⟨hp, id, rows', hid, -, hv, hderived⟩
    · simp [hv] at hrows
    · obtain rfl : rows' = rows := by simpa [hv] using hrows
      obtain ⟨-, hd⟩ := derived_of_rowsOf hf hderived
      have hover : overrideFor s v.details = s.table.partition? id := by simp [overrideFor, partitionFor, hp, hid]
      refine ⟨?_, ?_, hd.layout⟩
      · rw [hover]
        exact hd.library
      · intro key
        rw [hd.properties, get?_partitionProperties, hover]
  columns := rfl
  filter := rfl

theorem Sound.showsLayers {s : Scan} {σ : Session} (h : Sound s σ) (hf : s.serdes.Faithful) {r : Request}
    (hr : r ∈ σ.requests) : ∃ d, ShowsLayers s d r := by
  obtain ⟨p, hp, hrp⟩ := h.requested r hr
  obtain ⟨v, t, u, hv, -, -, rfl⟩ := outlook_prepared hp
  rw [hrp]
  exact ⟨v.details, hv.showsLayers hf t u⟩

/-! ## Runs -/

/-- Only splits of the scan are handed to constructors. -/
theorem play_requests_own (s : Scan) (moves : List Move) :
    ∀ r ∈ (play s moves).2.session.requests, r.split ∈ s.part.splits := by
  by_cases hs : s.part.splits = []
  · simp [Session.requests, (play_blank hs moves).silent]
  · have kept := play_keeps (s := s)
      (I := fun log q => InTurn s (asked log) q ∧ Reached s q.session ∧
        ∀ r ∈ q.session.requests, r.split ∈ s.part.splits)
      ⟨start_inTurn hs, .start, by simp [Sequence.start, Session.start, Session.requests]⟩ ?_ moves
    · exact kept.2.2
    · intro log q m h
      obtain ⟨hi, hreached, hown⟩ := h
      have hm := move_cases s q m
      refine ⟨asked_append log m _ ▸ hm.inTurn hi, hm.reached hreached, ?_⟩
      obtain ⟨handed, hreq, hhanded, -⟩ := hi.own hreached.sound m
      intro r hr
      rcases List.mem_append.mp (hreq ▸ hr) with hr | hr
      · exact hown r hr
      · exact List.mem_of_getElem? (hhanded r hr).2

/-- What splits start from is the table over the engine, also for the next split. -/
structure KeepsBase (s : Scan) (σ : Session) : Prop where
  value : ∀ key, s.baseSettings.get? key = (s.table.properties.get? key).or (s.settings.get? key)
  used : ∀ split p τ, (plan s split).run σ = (.ok p, τ) →
    s.resolver.resolve ⟨s.table.format, s.context.vectorize, false, s.isTransactional, p.pendingDeltas,
      s.baseSettings⟩ = .ok p.tableStrategy

theorem Sound.keepsBase {s : Scan} {σ : Session} (h : Sound s σ) : KeepsBase s σ := by
  refine ⟨get?_baseSettings s, ?_⟩
  intro split p τ hp
  obtain ⟨q, hq, rfl⟩ := plan_foreseen h.remembers hp
  obtain ⟨v, t, u, -, ht, -, rfl⟩ := outlook_prepared hq
  exact ht

theorem requests_show_layers (s : Scan) (hf : s.serdes.Faithful) :
    (∀ moves, (∀ r ∈ (play s moves).2.session.requests, r.split ∈ s.part.splits ∧ ∃ d, ShowsLayers s d r) ∧
      KeepsBase s (play s moves).2.session) ∧
    ∀ σ, Reached s σ → (∀ r ∈ σ.requests, ∃ d, ShowsLayers s d r) ∧ KeepsBase s σ := by
  have hreached : ∀ σ, Reached s σ → (∀ r ∈ σ.requests, ∃ d, ShowsLayers s d r) ∧ KeepsBase s σ :=
    fun σ h => ⟨fun _ hr => h.sound.showsLayers hf hr, h.sound.keepsBase⟩
  refine ⟨?_, hreached⟩
  intro moves
  obtain ⟨hshows, hbase⟩ := hreached _ (play_reached s moves)
  exact ⟨fun r hr => ⟨play_requests_own s moves r hr, hshows r hr⟩, hbase⟩

/-- Four keys, each decided in a layer of its own: by the partition, its format, the table and the engine. -/
def layeredScan : Scan :=
  { siblingScan with
    settings := Dict.ofList [(Layout.columnsKey, "x"), (Layout.columnTypesKey, "string"), ("mode", "slow"),
      (Properties.inputFormatKey, "text")] }

theorem layeredScan_shows_layers :
    layeredScan.serdes.Faithful ∧
      ((play layeredScan [.next, .next]).2.session.requests.map fun r =>
        [Layout.columnTypesKey, Properties.inputFormatKey, Layout.columnsKey, "mode", "other"].map r.settings.get?) =
        List.replicate 2 [some "bigint", some "orc", some "a", some "slow", none] ∧
      (∀ r ∈ (play layeredScan [.next, .next]).2.session.requests,
        r.split ∈ layeredScan.part.splits ∧ ∃ d, ShowsLayers layeredScan d r) ∧
      KeepsBase layeredScan (play layeredScan [.next, .next]).2.session := by
  refine ⟨Serde.Factory.permissive_faithful, by decide +kernel, ?_⟩
  exact (requests_show_layers layeredScan Serde.Factory.permissive_faithful).1 [.next, .next]

end Scan

end TableScan
