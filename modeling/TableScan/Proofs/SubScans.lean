/-
  TableScan.Proofs.SubScans — the part of a table that a scan is to read, written and read back with
  its filter.

  Presence of the filter and its content share one member, so one filter is taken for none: the
  null (`SubScan.withoutNull`). Every other filter comes back as it was, whatever else it holds,
  and no filter that was read is null (`filter_of_read`).
-/

import TableScan.Proofs.Documents
import TableScan.Proofs.FreeValues
import TableScan.Scan.Setup

namespace TableScan.Scan

open TableScan.Json

variable {s : SubScan} {k : Nat}

/-! ## Filters that are taken for none -/

/-- The sub-scan as it is read back: a filter that is null is no filter. -/
def SubScan.withoutNull (s : SubScan) : SubScan :=
  match s.filter with
  | some .null => { s with filter := none }
  | _ => s

theorem withoutNull_of_ne (h : s.filter ≠ some .null) : s.withoutNull = s := by
  unfold SubScan.withoutNull
  split
  · rename_i hnull
    exact absurd hnull h
  · rfl

theorem withoutNull_eq_iff : s.withoutNull = s ↔ s.filter ≠ some .null := by
  refine ⟨?_, withoutNull_of_ne⟩
  intro h hnull
  rw [SubScan.withoutNull, hnull] at h
  have hnone : none = s.filter := congrArg SubScan.filter h
  rw [hnull] at hnone
  cases hnone

/-! ## Writing and reading back -/

/-- Only values that may be written and read back stand as filters. -/
structure SubScan.Readable (k : Nat) (s : SubScan) : Prop where
  filter : ∀ v, s.filter = some v → v.WellFormed False
  nesting : ∀ v, s.filter = some v → v.nesting ≤ k

theorem written_filter (h : s.Readable k) : Written k ["filter"] (optionalMember "filter" id s.filter) := by
  cases hfilter : s.filter with
  | none => exact .leftOut _ .nil
  | some v => exact .member _ ((h.filter v hfilter).plain (h.nesting v hfilter)) .nil

theorem getD_filter (h : s.Readable k) {members : List (String × Value)}
    (hlookup : members.lookup "filter" = s.filter) (room : Nat) :
    (Members.ofValues (room + k) members).getD "filter" (.optional .value) none = some s.withoutNull.filter := by
  cases hfilter : s.filter with
  | none =>
    rw [withoutNull_of_ne (by simp [hfilter]), hfilter]
    exact Members.getD_leftOut (hlookup.trans hfilter) _
  | some v =>
    have hv := (h.filter v hfilter).reads (h.nesting v hfilter)
    have hgiven := hlookup.trans hfilter
    by_cases hnull : v = .null
    · subst hnull
      rw [SubScan.withoutNull, hfilter]
      exact Members.getD_of_lookup (.absent .value) hgiven room
    · have hread := hv.present ((h.filter v hfilter).tree_ne_null hnull)
      rw [withoutNull_of_ne (by simp [hfilter, hnull]), hfilter]
      exact Members.getD_of_lookup hread hgiven room

theorem SubScan.reads (h : s.Readable k) (hk : 4 ≤ k) : Reads (k + 1) SubScan.decoder s.toJson s.withoutNull := by
  have hsplits := (Reads.list Split.reads s.splits).mono hk
  have hcolumns := (Reads.list Reads.text s.columns).mono (show 1 ≤ k by omega)
  have hbase : Written k ["splits", "columns"] [("splits", .array (s.splits.map Split.toJson)),
      ("columns", .array (s.columns.map .text))] :=
    .member _ hsplits.plain (.member _ hcolumns.plain .nil)
  refine Reads.record (hbase.append (written_filter h)) (by decide) ?_
  intro room
  refine Option.bind_eq_some_iff.mpr ⟨_, Members.getD_of_lookup hsplits rfl room, ?_⟩
  refine Option.bind_eq_some_iff.mpr ⟨_, Members.getD_of_lookup hcolumns rfl room, ?_⟩
  refine Option.bind_eq_some_iff.mpr ⟨_, getD_filter h (by simp [List.lookup_cons]) room, ?_⟩
  obtain ⟨splits, columns, filter⟩ := s
  unfold withoutNull
  split <;> rfl

/-- What a document may nest is left to the filter but for the object around it. -/
theorem SubScan.readable (hfilter : ∀ v, s.filter = some v → v.WellFormed False) (hnesting : s.toJson.nesting ≤ k + 1) :
    s.Readable k where
  filter := hfilter
  nesting v hv := by
    have hmember : ("filter", v) ∈ [("splits", .array (s.splits.map Split.toJson)),
        ("columns", .array (s.columns.map .text))] ++ optionalMember "filter" id s.filter := by
      rw [hv]
      simp [optionalMember]
    have hle := nesting_le_members hmember
    rw [SubScan.toJson, Value.nesting] at hnesting
    exact Nat.le_trans hle (Nat.le_of_succ_le_succ hnesting)

/-! ## Filters that were read -/

/-- But for floats, whatever was read may be written. -/
theorem filter_of_read {text : String} (h : SubScan.decoder.ofString? text = some s) :
    ∀ v, s.filter = some v → v.WellFormed True ∧ v ≠ .null := by
  obtain ⟨t, -, h⟩ := Option.bind_eq_some_iff.mp h
  obtain ⟨m, -, h⟩ := Option.bind_eq_some_iff.mp h
  obtain ⟨splits, -, h⟩ := Option.bind_eq_some_iff.mp h
  obtain ⟨columns, -, h⟩ := Option.bind_eq_some_iff.mp h
  obtain ⟨filter, hfilter, h⟩ := Option.bind_eq_some_iff.mp h
  cases h
  intro v hv
  cases hv
  rw [Members.getD] at hfilter
  split at hfilter
  · cases hfilter
  · exact Decoder.optional_value hfilter

/-! ## Sub-scans are read back -/

/-- A sub-scan is read back as itself unless its filter is null, and so is every one that was read. -/
theorem subScans_read_back_unless_null (s : SubScan) (hfilter : ∀ v, s.filter = some v → v.WellFormed False)
    (hnesting : s.toJson.nesting ≤ nestingLimit) :
    SubScan.decoder.ofString? s.toJson.render = some s.withoutNull ∧
    (SubScan.decoder.ofString? s.toJson.render = some s ↔ s.filter ≠ some .null) ∧
    ∀ text, SubScan.decoder.ofString? text = some s → SubScan.decoder.ofString? s.toJson.render = some s := by
  have hread := (SubScan.reads (SubScan.readable hfilter hnesting) (by decide)).ofString? (Nat.le_refl _)
  have hsame : SubScan.decoder.ofString? s.toJson.render = some s ↔ s.filter ≠ some .null := by
    rw [hread, Option.some_inj]
    exact withoutNull_eq_iff
  exact ⟨hread, hsame, fun _ h => hsame.mpr fun hnull => (filter_of_read h .null hnull).2 rfl⟩

/-- Its filter has nulls, but is none. -/
def filteredPart : SubScan where
  splits := [⟨"a", [123, 125], [⟨"ds", none⟩]⟩, ⟨"", [], []⟩]
  columns := ["id", "ds"]
  filter := some (.object [("and", .array [.null, .object [("col", .text "id"), ("in", .array [.int (-1), .null])]]),
    ("not", .null)])

theorem filteredPart_read_back : SubScan.decoder.ofString? filteredPart.toJson.render = some filteredPart := by
  have hfilter : ∀ v, filteredPart.filter = some v → v.WellFormed False := by
    intro v hv
    cases hv
    refine .object (by decide +kernel) ?_
    refine List.forall_mem_cons.mpr ⟨.array ?_, List.forall_mem_singleton.mpr .null⟩
    refine List.forall_mem_cons.mpr ⟨.null, List.forall_mem_singleton.mpr (.object (by decide +kernel) ?_)⟩
    refine List.forall_mem_cons.mpr ⟨.text "id", List.forall_mem_singleton.mpr (.array ?_)⟩
    exact List.forall_mem_cons.mpr ⟨.int (by decide) (by decide), List.forall_mem_singleton.mpr .null⟩
  have hnesting : filteredPart.toJson.nesting ≤ nestingLimit := by decide +kernel
  exact (subScans_read_back_unless_null filteredPart hfilter hnesting).2.1.mpr (by simp [filteredPart])

def nullPart : SubScan := ⟨[], ["id"], some .null⟩

theorem nullPart_loses_filter :
    ¬ ∀ s : SubScan, (∀ v, s.filter = some v → v.WellFormed False) → s.toJson.nesting ≤ nestingLimit →
      SubScan.decoder.ofString? s.toJson.render = some s := by
  intro h
  have hfilter : ∀ v, nullPart.filter = some v → v.WellFormed False := by
    intro v hv
    cases hv
    exact .null
  have hnesting : nullPart.toJson.nesting ≤ nestingLimit := by decide +kernel
  have hread := (SubScan.reads (SubScan.readable hfilter hnesting) (by decide)).ofString? (Nat.le_refl _)
  have hsame : nullPart.withoutNull = nullPart := Option.some.inj (hread.symm.trans (h _ hfilter hnesting))
  exact withoutNull_eq_iff.mp hsame rfl

end TableScan.Scan
