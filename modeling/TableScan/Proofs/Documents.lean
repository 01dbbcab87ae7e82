/-
  TableScan.Proofs.Documents — whatever is written as a document is read back from it: splits and
  what their payloads say, tables and what their partitions do differently, and settings.

  Each record has its `reads` lemma, on which those of the records around it rest. A member that was
  left out is looked up in vain, and what the reader then supplies is what was left out
  (`getD_unless`, `getD_optionalMember`).
-/

import TableScan.Proofs.Codec
import TableScan.Table

namespace TableScan

open TableScan.Json TableScan.Text

/-! ## Members that may be left out -/

section LeftOut

variable {α : Type} {k : Nat} {d : Decoder α} {toJson : α → Value} {members : List (String × Value)}
  {name other : String} {v : Value} {a : α}

theorem written_unless (hv : v.Plain k) (c : Bool) : Written k [name] (if c then [] else [(name, v)]) := by
  cases c with
  | true => exact .leftOut name .nil
  | false => exact .member name hv .nil

@[simp] theorem lookup_unless (c : Bool) :
    (if c then [] else [(name, v)]).lookup name = if c then none else some v := by
  cases c with
  | true => rfl
  | false => exact List.lookup_cons_self

@[simp] theorem lookup_unless_of_ne (h : name ≠ other) (c : Bool) :
    (if c then [] else [(other, v)]).lookup name = none := by
  cases c with
  | true => rfl
  | false =>
    have hne : (name == other) = false := beq_eq_false_iff_ne.mpr h
    simp [List.lookup_cons, hne]

/-- What the reader supplies for a member is the same as what was left out. -/
theorem getD_unless {c : Bool} {default : α} (h : Reads k d v a) (hdefault : c = true → default = a)
    (hv : members.lookup name = if c then none else some v) (room : Nat) :
    (Members.ofValues (room + k) members).getD name d default = some a := by
  cases c with
  | true => exact hdefault rfl ▸ Members.getD_leftOut hv _
  | false => exact Members.getD_of_lookup h hv room

theorem written_optionalMember (h : ∀ a, Reads k d (toJson a) a) (o : Option α) :
    Written k [name] (optionalMember name toJson o) := by
  cases o with
  | none => exact .leftOut name .nil
  | some a => exact .member name (h a).plain .nil

@[simp] theorem lookup_optionalMember (o : Option α) :
    (optionalMember name toJson o).lookup name = o.map toJson := by
  cases o with
  | none => rfl
  | some a => exact List.lookup_cons_self

@[simp] theorem lookup_optionalMember_of_ne (h : name ≠ other) (o : Option α) :
    (optionalMember other toJson o).lookup name = none := by
  cases o with
  | none => rfl
  | some a => exact lookup_unless_of_ne h false

/-- Nothing that is written for a value may be taken for its absence. -/
theorem getD_optionalMember (h : ∀ a, Reads k d (toJson a) a) (hnull : ∀ a, (toJson a).tree ≠ .null)
    (o : Option α) (ho : members.lookup name = o.map toJson) (room : Nat) :
    (Members.ofValues (room + k) members).getD name d.optional none = some o := by
  cases o with
  | none => exact Members.getD_leftOut ho _
  | some a => exact Members.getD_of_lookup ((h a).present (hnull a)) ho room

theorem written_listMember (h : ∀ a, Reads k d (toJson a) a) (items : List α) :
    Written (k + 1) [name] (listMember name toJson items) :=
  written_unless (Reads.list h items).plain _

theorem getD_listMember (h : ∀ a, Reads k d (toJson a) a) (items : List α)
    (hitems : members.lookup name = (listMember name toJson items).lookup name) (room : Nat) :
    (Members.ofValues (room + (k + 1)) members).getD name d.list [] = some items :=
  getD_unless (Reads.list h items) (fun hnil => (List.isEmpty_iff.mp hnil).symm)
    (hitems.trans (lookup_unless _)) room

end LeftOut

theorem reads_textOrNull {k : Nat} (o : Option String) :
    Reads k (Decoder.optional .text) (textOrNull o) o := by
  cases o with
  | none => exact .absent .text
  | some s => exact (Reads.text s).present (by simp [Value.tree])

/-! ## Splits -/

theorem PartitionValue.reads (v : PartitionValue) : Reads 1 PartitionValue.decoder v.toJson v := by
  refine Reads.record ?_ (by decide) ?_
  · exact .member _ (.text _) (.member _ (reads_textOrNull v.value).plain .nil)
  · intro room
    refine Option.bind_eq_some_iff.mpr ⟨_, Members.required_of_lookup (.text v.column) rfl room, ?_⟩
    refine Option.bind_eq_some_iff.mpr ⟨_, Members.getD_of_lookup (reads_textOrNull v.value) rfl room, ?_⟩
    rfl

theorem FileRange.written (r : FileRange) : Written 0 ["path", "start", "length"] r.members :=
  .member _ (.text _) (.member _ (Reads.uint64 r.start).plain (.member _ (Reads.uint64 r.length).plain .nil))

theorem FileRange.reads (r : FileRange) : Reads 1 FileRange.decoder r.toJson r := by
  refine Reads.record r.written (by decide) ?_
  intro room
  refine Option.bind_eq_some_iff.mpr ⟨_, Members.required_of_lookup (.text r.path) rfl room, ?_⟩
  refine Option.bind_eq_some_iff.mpr ⟨_, Members.getD_of_lookup (.uint64 r.start) rfl room, ?_⟩
  refine Option.bind_eq_some_iff.mpr ⟨_, Members.getD_of_lookup (.uint64 r.length) rfl room, ?_⟩
  rfl

theorem DeltaRange.reads (r : DeltaRange) : Reads 2 DeltaRange.decoder r.toJson r := by
  refine Reads.record ?_ (by decide) ?_
  · have hrange : Written 1 _ [("min_write_id", wordJson r.first), ("max_write_id", wordJson r.last)] :=
      .member _ (Reads.uint64 r.first).plain (.member _ (Reads.uint64 r.last).plain .nil)
    exact hrange.append (written_listMember Reads.uint32 r.statements)
  · intro room
    refine Option.bind_eq_some_iff.mpr ⟨_, Members.required_of_lookup (.uint64 r.first) rfl room, ?_⟩
    refine Option.bind_eq_some_iff.mpr ⟨_, Members.required_of_lookup (.uint64 r.last) rfl room, ?_⟩
    refine Option.bind_eq_some_iff.mpr ⟨_, getD_listMember Reads.uint32 r.statements rfl room, ?_⟩
    rfl

theorem TransactionalRange.written (r : TransactionalRange) :
    Written 3 ["path", "start", "length", "has_base", "is_original", "deltas"] r.members := by
  have hbase : Written 3 _ [("path", .text r.path), ("start", wordJson r.start), ("length", wordJson r.length),
      ("has_base", .bool r.hasBase), ("is_original", .bool r.baseInRoot)] :=
    .member _ (.text _) (.member _ (Reads.uint64 r.start).plain (.member _ (Reads.uint64 r.length).plain
      (.member _ (.bool _) (.member _ (.bool _) .nil))))
  exact hbase.append (written_listMember DeltaRange.reads r.deltas)

theorem TransactionalRange.reads (r : TransactionalRange) : Reads 4 TransactionalRange.decoder r.toJson r := by
  refine Reads.record r.written (by decide) ?_
  intro room
  refine Option.bind_eq_some_iff.mpr ⟨_, Members.required_of_lookup (.text r.path) rfl room, ?_⟩
  refine Option.bind_eq_some_iff.mpr ⟨_, Members.getD_of_lookup (.uint64 r.start) rfl room, ?_⟩
  refine Option.bind_eq_some_iff.mpr ⟨_, Members.getD_of_lookup (.uint64 r.length) rfl room, ?_⟩
  refine Option.bind_eq_some_iff.mpr ⟨_, Members.required_of_lookup (.bool r.hasBase) rfl room, ?_⟩
  refine Option.bind_eq_some_iff.mpr ⟨_, Members.getD_of_lookup (.bool r.baseInRoot) rfl room, ?_⟩
  refine Option.bind_eq_some_iff.mpr ⟨_, getD_listMember DeltaRange.reads r.deltas rfl room, ?_⟩
  rfl

/-- Neither record has a member of the name that tells its kind. -/
theorem Storage.reads (s : Storage) : Reads 4 Storage.decoder s.toJson s := by
  cases s with
  | file r =>
    have htag : "kind" ∉ r.members.map (·.1) := fun h => absurd (r.written.sublist.subset h) (by decide)
    -- Ranges of files nest less than the others.
    exact ((r.reads.map file).mono (by decide)).tagged rfl htag
  | transactional r =>
    have htag : "kind" ∉ r.members.map (·.1) := fun h => absurd (r.written.sublist.subset h) (by decide)
    exact (r.reads.map transactional).tagged rfl htag

theorem SplitDetails.reads (d : SplitDetails) : Reads 5 SplitDetails.decoder d.toJson d := by
  have hstorage := Storage.reads d.storage
  have hpartition : ∀ i : PartitionId, Reads 4 .int32 (.int i.toInt) i := Reads.int32
  refine Reads.record ((written_optionalMember hpartition d.partition).append
    (.member "input_split" hstorage.plain .nil)) (by decide) ?_
  intro room
  refine Option.bind_eq_some_iff.mpr ⟨_, getD_optionalMember hpartition (by simp [Value.tree]) d.partition
    (by simp [List.lookup_append, List.lookup_cons]) room, ?_⟩
  refine Option.bind_eq_some_iff.mpr ⟨_, Members.required_of_lookup hstorage
    (by simp [List.lookup_append]) room, ?_⟩
  rfl

theorem Split.reads (s : Split) : Reads 3 Split.decoder s.toJson s := by
  have hpayload : Reads 2 (.list .uint8) (.array (s.payload.map fun b => .int b.toNat)) s.payload :=
    (Reads.list Reads.uint8 s.payload).mono (show 1 ≤ 2 by decide)
  refine Reads.record ?_ (by decide) ?_
  · have hbase : Written 2 _ [("split_key", .text s.key),
        ("extended_property", .array (s.payload.map fun b => .int b.toNat))] :=
      .member _ (.text _) (.member _ hpayload.plain .nil)
    exact hbase.append (written_listMember PartitionValue.reads s.values)
  · intro room
    refine Option.bind_eq_some_iff.mpr ⟨_, Members.required_of_lookup (.text s.key) rfl room, ?_⟩
    refine Option.bind_eq_some_iff.mpr ⟨_, Members.required_of_lookup hpayload rfl room, ?_⟩
    refine Option.bind_eq_some_iff.mpr ⟨_, getD_listMember PartitionValue.reads s.values rfl room, ?_⟩
    rfl

/-! ## Tables -/

theorem Properties.reads (p : Properties) : Reads 1 Properties.decoder p.toJson p :=
  Reads.dict decode?_ofString Reads.text p

theorem PartitionOverride.reads (p : PartitionOverride) : Reads 2 PartitionOverride.decoder p.toJson p := by
  have hproperties := p.properties.reads
  have hempty : p.properties.isEmpty = true → Dict.empty = p.properties := by
    intro h
    rw [← p.properties.ofList_entries, List.isEmpty_iff.mp h]
    rfl
  refine Reads.record (((written_optionalMember Reads.text p.library).append
    (written_optionalMember Reads.text p.format)).append (written_unless hproperties.plain _)) (by decide) ?_
  intro room
  have hnull : ∀ s : String, (Value.text s).tree ≠ .null := by simp [Value.tree]
  refine Option.bind_eq_some_iff.mpr ⟨_, getD_optionalMember Reads.text hnull p.library
    (by simp [List.lookup_append]) room, ?_⟩
  refine Option.bind_eq_some_iff.mpr ⟨_, getD_optionalMember Reads.text hnull p.format
    (by simp [List.lookup_append]) room, ?_⟩
  refine Option.bind_eq_some_iff.mpr ⟨_, getD_unless hproperties hempty
    (by simp [List.lookup_append]) room, ?_⟩
  rfl

theorem Table.reads (t : Table) : Reads 4 Table.decoder t.toJson t := by
  have hproperties := t.properties.reads.mono (show 1 ≤ 3 by decide)
  have hcolumns := (Reads.list Reads.text t.partitionColumns).mono (show 1 ≤ 3 by decide)
  have hpartitions := Reads.dict int32Key_signedDecimal PartitionOverride.reads t.partitions
  refine Reads.record ?_ (by decide) ?_
  · exact .member _ (reads_textOrNull t.library).plain (.member _ (reads_textOrNull t.format).plain
      (.member _ hproperties.plain (.member _ hcolumns.plain (.member _ hpartitions.plain .nil))))
  · intro room
    refine Option.bind_eq_some_iff.mpr ⟨_, Members.getD_of_lookup (reads_textOrNull t.library) rfl room, ?_⟩
    refine Option.bind_eq_some_iff.mpr ⟨_, Members.getD_of_lookup (reads_textOrNull t.format) rfl room, ?_⟩
    refine Option.bind_eq_some_iff.mpr ⟨_, Members.getD_of_lookup hproperties rfl room, ?_⟩
    refine Option.bind_eq_some_iff.mpr ⟨_, Members.getD_of_lookup hcolumns rfl room, ?_⟩
    refine Option.bind_eq_some_iff.mpr ⟨_, Members.getD_of_lookup hpartitions rfl room, ?_⟩
    rfl

/-! ## Documents -/

/-- Every document is read back as exactly what it was written for, and so is the payload of a split. -/
theorem documents_read_back :
    (∀ d : SplitDetails, SplitDetails.decoder.ofString? d.toJson.render = some d) ∧
    (∀ s : Split, Split.decoder.ofString? s.toJson.render = some s) ∧
    (∀ r : TransactionalRange, TransactionalRange.decoder.ofString? r.toJson.render = some r) ∧
    (∀ p : PartitionOverride, PartitionOverride.decoder.ofString? p.toJson.render = some p) ∧
    (∀ t : Table, Table.decoder.ofString? t.toJson.render = some t) ∧
    (∀ p : Properties, Properties.decoder.ofString? p.toJson.render = some p) ∧
    ∀ (key : String) (d : SplitDetails) (values : List PartitionValue),
      (Split.ofDetails key d values).details? = some d := by
  refine ⟨?_, ?_, ?_, ?_, ?_, ?_, ?_⟩
  · exact fun d => d.reads.ofString? (by decide)
  · exact fun s => s.reads.ofString? (by decide)
  · exact fun r => r.reads.ofString? (by decide)
  · exact fun p => p.reads.ofString? (by decide)
  · exact fun t => t.reads.ofString? (by decide)
  · exact fun p => p.reads.ofString? (by decide)
  · exact fun _ d _ => d.reads.ofString? (by decide)

end TableScan
