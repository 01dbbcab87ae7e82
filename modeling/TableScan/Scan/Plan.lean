/-
  TableScan.Scan.Plan — all that is worked out about a split before its reader is constructed.

  In this order: the payload is decoded; the row formats of the table and of the partition are
  derived; the settings of the split are laid over those of the scan; a transactional table
  has its deltas listed; the strategy is resolved for the table. It is resolved again for the
  partition only if something about it differs, or if deltas are pending.
-/

import TableScan.Scan.Session

namespace TableScan.Scan

open TableScan.Json

/-- How a split is going to be read. -/
structure Plan where
  splitKey : String
  partition : Option PartitionId
  format : Option String
  tableStrategy : Strategy
  strategy : Strategy
  /-- The strategy was resolved for the partition. -/
  partitionResolved : Bool
  drifted : Bool
  transactional : Bool
  pendingDeltas : Bool
  deriving DecidableEq, Repr

def Plan.toJson (p : Plan) : Value :=
  .object ([("split_key", .text p.splitKey)]
    ++ optionalMember "partition_id" (fun (i : PartitionId) => .int i.toInt) p.partition
    ++ optionalMember "input_format" .text p.format
    ++ [("table_strategy", p.tableStrategy.toJson), ("strategy", p.strategy.toJson),
      ("partition_resolved", .bool p.partitionResolved), ("schema_drifted", .bool p.drifted),
      ("transactional", .bool p.transactional), ("has_pending_deltas", .bool p.pendingDeltas)])

/-- A plan, and what the constructor is going to be given besides. -/
structure Prepared where
  details : SplitDetails
  settings : Properties
  tableRows : RowFormat
  partitionRows : Option RowFormat
  plan : Plan

/-- Sets up a library and derives the layout of its rows. -/
def rowFormat (s : Scan) (partition : Option PartitionId) (settings : Properties)
    (library : Option String) (properties : Properties) : Act RowFormat := do
  let library ← Act.need (.missingLibrary partition) library
  Act.record (.setUp library)
  let handle ← Act.lift (.serde partition) (s.serdes settings library properties)
  let layout ← Act.lift (.layout library partition) handle.layout
  return ⟨handle, layout⟩

/-- The row format of the table, derived until it once succeeds. -/
def tableRows (s : Scan) : Act RowFormat := do
  match (← get).tableRows with
  | some rows => return rows
  | none => do
    let rows ← rowFormat s none s.baseSettings s.table.library s.table.properties
    modify fun session => { session with tableRows := some rows }
    return rows

/-- Whether deltas are pending; asked of transactional tables only. -/
def pendingDeltas (s : Scan) (storage : Storage) : Act Bool :=
  if s.isTransactional then do
    let range ← Act.need (.notTransactional storage.path) storage.transactional?
    let root := Delta.root range
    let found := s.deltas root range
    Act.record (.listed root found.toOption)
    return !(← Act.lift .deltas found).isEmpty
  else pure false

def resolve (s : Scan) (c : Circumstances) : Act Strategy := do
  Act.record (.resolved c.format)
  match s.resolver.resolve c with
  | .ok strategy => return strategy
  | .error cause => throw (.capability cause)

/-- What the partition of a split adds to the table. -/
structure PartitionView where
  id : PartitionId
  rows : RowFormat

/-- The settings of a split and its partition, if the table has any. -/
def partitionView (s : Scan) (details : SplitDetails) : Act (Properties × Option PartitionView) :=
  if s.table.isPartitioned then do
    let id ← Act.need .missingPartition details.partition
    let _ ← Act.need (.unknownPartition id) (s.table.partition? id)
    let properties := s.table.partitionProperties id
    let settings := s.baseSettings.overlay properties
    let rows ← rowFormat s (some id) settings (s.table.partitionLibrary? id) properties
    return (settings, some ⟨id, rows⟩)
  else pure (s.baseSettings, none)

def prepare (s : Scan) (split : Split) : Act Prepared := do
  let details ← Act.need .undecodablePayload split.details?
  let tableRows ← tableRows s
  let (settings, partition) ← partitionView s details
  let format := match partition with
    | some p => s.table.partitionFormat? p.id
    | none => s.table.format
  let settings := match format with
    | some f => settings.withInputFormat f
    | none => settings
  let pending ← pendingDeltas s details.storage
  let tableStrategy ← resolve s
    ⟨s.table.format, s.context.vectorize, false, s.isTransactional, pending, s.baseSettings⟩
  let drifted := partition.any fun p => p.rows.layout.driftsFrom tableRows.layout
  let again := partition.isSome
    && (format != s.table.format || drifted || (s.isTransactional && pending))
  let strategy ←
    if again then
      resolve s ⟨format, s.context.vectorize, drifted, s.isTransactional, pending, settings⟩
    else pure tableStrategy
  return {
    details, settings, tableRows
    partitionRows := partition.map (·.rows)
    plan := ⟨split.key, partition.map (·.id), format, tableStrategy, strategy, again, drifted,
      s.isTransactional, pending⟩ }

def plan (s : Scan) (split : Split) : Act Plan := do return (← prepare s split).plan

end TableScan.Scan
