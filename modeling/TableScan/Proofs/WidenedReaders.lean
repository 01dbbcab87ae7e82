/-
  TableScan.Proofs.WidenedReaders — a reader that carries the values of a split answers pull by
  pull as the reader inside it does.

  The selected columns fall into those that data files hold and those that a split has a value
  for; both keep their order. The wrapped reader is the reader itself where no column of the
  second kind is selected. Else each of its pulls is one pull of the reader inside, also behind
  a fault and behind the end: a fault and the end are handed on, and a batch either does not
  fit what the reader declared or comes out with its own columns first and constant columns
  behind them (`Widens`). The rows are those of the batch, also if it has no columns.

  - `Reader.answer_eq`: the answers of a reader are its script, and then the end.
  - `Batch.fits_iff`: how many columns, of which types, and nulls only where they may be.
  - `isValueOf_valueFor`: the value of a column is that of the first partition value of its name.
  - `shows_cell`: no value is shown as null, and a value as its text.
  - `pull_widen`: one pull. `after_widen`: by induction, any number of them.
-/

import Mathlib.Data.List.Forall2
import TableScan.Composite

namespace TableScan

open TableScan.Text

/-! ## Pulls -/

namespace Reader

/-- The reader once it has been pulled so many times. -/
def after (r : Reader) : Nat → Reader
  | 0 => r
  | k + 1 => r.pull.2.after k

/-- The answer to a pull, counted from zero. -/
def answer (r : Reader) (k : Nat) : Except ReaderFault (Option Batch) := (r.after k).pull.1

theorem pull_fields (r : Reader) : r.pull.2.fields = r.fields := by
  unfold pull
  split <;> rfl

theorem after_fields (k : Nat) : ∀ r : Reader, (r.after k).fields = r.fields := by
  induction k with
  | zero => exact fun r => rfl
  | succ k ih =>
    intro r
    rw [after, ih, pull_fields]

theorem after_pulls (k : Nat) : ∀ r : Reader, (r.after k).pulls = r.pulls.drop k := by
  induction k with
  | zero => exact fun r => rfl
  | succ k ih =>
    intro r
    rw [after, ih]
    unfold pull
    split
    · rename_i hnil
      simp [hnil]
    · rename_i hcons
      simp [hcons]

/-- The script in order, and the end of the data ever after. -/
theorem answer_eq (r : Reader) (k : Nat) :
    r.answer k = match r.pulls[k]? with
      | none => .ok none
      | some answer => answer.map some := by
  have hhead : r.pulls[k]? = (r.after k).pulls.head? := by rw [after_pulls, List.head?_drop]
  rw [answer, pull, hhead]
  cases (r.after k).pulls <;> rfl

end Reader

/-! ## Batches that fit -/

namespace Batch

/-- The columns of a batch are as many as were declared and of the types that were, and none holds a null
that may not. -/
structure Fits (b : Batch) (declared : List Field) : Prop where
  count : b.columns.length = declared.length
  types : b.fields.map (·.type) = declared.map (·.type)
  present : ∀ (i : Nat) (d : Field) (cells : List Cell), declared[i]? = some d → b.columns[i]? = some cells →
    d.nullable = false → Cell.null ∉ cells

theorem columnsFit_iff : ∀ {declared fields : List Field} {columns : List (List Cell)},
    columnsFit declared fields columns = true ↔ Fits ⟨fields, columns, 0⟩ declared
  | [], [], [] => by
    refine ⟨fun _ => ⟨rfl, rfl, ?_⟩, fun _ => rfl⟩
    intro i d cells hd
    simp at hd
  | [], [], _ :: _ | [], _ :: _, [] | [], _ :: _, _ :: _ | _ :: _, [], [] | _ :: _, [], _ :: _
  | _ :: _, _ :: _, [] => by
    refine ⟨fun h => by simp [columnsFit] at h, fun h => ?_⟩
    have hcount := h.count
    have htypes := congrArg List.length h.types
    simp at hcount htypes
  | d :: declared, f :: fields, cells :: columns => by
    simp only [columnsFit, columnFits, Bool.and_eq_true, decide_eq_true_eq, columnsFit_iff]
    constructor
    · rintro ⟨⟨htype, hnull⟩, hrest⟩
      refine ⟨by simpa using hrest.count, by simpa [htype] using hrest.types, ?_⟩
      intro i e more he hmore hnullable
      cases i with
      | zero =>
        simp only [List.getElem?_cons_zero, Option.some.injEq] at he hmore
        subst he hmore
        simpa [hnullable] using hnull
      | succ i => exact hrest.present i e more (by simpa using he) (by simpa using hmore) hnullable
    · intro h
      have htypes : f.type = d.type ∧ fields.map (·.type) = declared.map (·.type) := by simpa using h.types
      refine ⟨⟨htypes.1.symm, ?_⟩, by simpa using h.count, htypes.2, ?_⟩
      · cases hnullable : d.nullable with
        | true => rfl
        | false => simpa using h.present 0 d cells rfl rfl hnullable
      · intro i e more he hmore
        exact h.present (i + 1) e more (by simpa using he) (by simpa using hmore)

theorem fits_iff {b : Batch} {declared : List Field} : b.fits declared = true ↔ b.Fits declared := by
  rw [fits, columnsFit_iff]
  exact ⟨fun h => ⟨h.count, h.types, h.present⟩, fun h => ⟨h.count, h.types, h.present⟩⟩

end Batch

namespace Composite

/-! ## Columns -/

variable {selected partitionColumns : List String} {column : String}

theorem isPartitionColumn_iff :
    isPartitionColumn partitionColumns column = true ↔ ∃ p ∈ partitionColumns, sameIgnoringCase p column = true := by
  simp [isPartitionColumn]

/-- Each selected column is read or appended, as often as it is selected. -/
theorem inner_append_perm (selected partitionColumns : List String) :
    (inner selected partitionColumns ++ appended selected partitionColumns).Perm selected :=
  List.perm_append_comm.trans (List.filter_append_perm _ selected)

/-! ## Values -/

/-- The value of the first partition value that goes by the name of a column, up to the case of A to Z, and
none if none does. -/
inductive IsValueOf (column : String) : List PartitionValue → Option String → Prop
  | first {before after : List PartitionValue} {v : PartitionValue} :
      (∀ u ∈ before, sameIgnoringCase u.column column = false) → sameIgnoringCase v.column column = true →
      IsValueOf column (before ++ v :: after) v.value
  | absent {values : List PartitionValue} : (∀ u ∈ values, sameIgnoringCase u.column column = false) →
      IsValueOf column values none

theorem isValueOf_valueFor (s : Split) (column : String) : IsValueOf column s.values (valueFor s column) := by
  unfold valueFor
  cases hfound : s.values.find? fun v => sameIgnoringCase v.column column with
  | none =>
    have hnone : ∀ u ∈ s.values, sameIgnoringCase u.column column = false := by simpa using hfound
    exact .absent hnone
  | some v =>
    obtain ⟨hv, before, after, hvalues, hbefore⟩ := List.find?_eq_some_iff_append.mp hfound
    rw [hvalues]
    exact .first (by simpa using hbefore) hv

/-! ## Answers -/

/-- The cell that shows a value: a null where there is none, and else its text. -/
inductive Shows : Option String → Cell → Prop
  | null : Shows none .null
  | text (s : String) : Shows (some s) (.text s)

theorem shows_cell (value : Option String) : Shows value (cell value) := by
  cases value with
  | none => exact .null
  | some s => exact .text s

/-- What a widened reader answers when the reader inside it, which declared these fields, gives an answer. -/
inductive Widens (declared : List Field) (columns : List String) (values : List PartitionValue) :
    Except ReaderFault (Option Batch) → Except ReaderFault (Option Batch) → Prop
  | fault (e : ReaderFault) : Widens declared columns values (.error e) (.error e)
  | ended : Widens declared columns values (.ok none) (.ok none)
  | misfit {b : Batch} : ¬ b.Fits declared → Widens declared columns values (.ok (some b)) (.error .batchMismatch)
  | batch {b wide : Batch} {constant : List (List Cell)} : b.Fits declared → wide.rows = b.rows →
      wide.fields = declared ++ columns.map (fun column => ⟨column, .utf8, true⟩) →
      wide.columns = b.columns ++ constant →
      List.Forall₂ (fun column cells => ∃ value shown, IsValueOf column values value ∧ Shows value shown ∧
        cells = List.replicate b.rows shown) columns constant →
      Widens declared columns values (.ok (some b)) (.ok (some wide))

theorem constant_columns (s : Split) (rows : Nat) (columns : List String) :
    List.Forall₂ (fun column cells => ∃ value shown, IsValueOf column s.values value ∧ Shows value shown ∧
      cells = List.replicate rows shown) columns
      ((columns.map (valueFor s)).map fun v => List.replicate rows (cell v)) := by
  induction columns with
  | nil => exact .nil
  | cons column columns ih => exact .cons ⟨_, _, isValueOf_valueFor s column, shows_cell _, rfl⟩ ih

theorem widens_widenBatch (declared : List Field) (columns : List String) (s : Split) (b : Batch) :
    Widens declared columns s.values (.ok (some b))
      ((widenBatch declared columns (columns.map (valueFor s)) b).map some) := by
  unfold widenBatch
  by_cases hfits : b.fits declared = true
  · rw [if_pos hfits]
    exact .batch (Batch.fits_iff.mp hfits) rfl rfl rfl (constant_columns s b.rows columns)
  · rw [if_neg hfits]
    exact .misfit fun h => hfits (Batch.fits_iff.mpr h)

/-- One pull of a widened reader is one pull of the reader inside, and leaves a widened reader. -/
theorem pull_widen (columns : List String) (s : Split) (r : Reader) :
    (widen columns s r).pull.2 = widen columns s r.pull.2 ∧
      Widens r.fields columns s.values r.pull.1 (widen columns s r).pull.1 := by
  obtain ⟨fields, pulls, closeFault⟩ := r
  -- The fields and the way of closing are no part of a pull, so both sides agree on the reader left.
  cases pulls with
  | nil => exact ⟨rfl, .ended⟩
  | cons answer more =>
    refine ⟨rfl, ?_⟩
    cases answer with
    | error e => exact .fault e
    | ok b => exact widens_widenBatch fields columns s b

theorem after_widen (columns : List String) (s : Split) (k : Nat) : ∀ r : Reader,
    (widen columns s r).after k = widen columns s (r.after k) := by
  induction k with
  | zero => exact fun r => rfl
  | succ k ih =>
    intro r
    rw [Reader.after, (pull_widen columns s r).1, ih, Reader.after]

theorem widens_answer (columns : List String) (s : Split) (r : Reader) (k : Nat) :
    Widens r.fields columns s.values (r.answer k) ((widen columns s r).answer k) := by
  have hpull := (pull_widen columns s (r.after k)).2
  -- The batches of every pull are held against the fields declared at first.
  rw [Reader.after_fields] at hpull
  rw [Reader.answer, Reader.answer, after_widen]
  exact hpull

/-- Wrapping never fails, and the wrapped reader follows the reader inside it, answer by answer. -/
theorem wrapped_reader_follows (selected partitionColumns : List String) :
    ((inner selected partitionColumns).Sublist selected ∧ (appended selected partitionColumns).Sublist selected ∧
      (inner selected partitionColumns ++ appended selected partitionColumns).Perm selected ∧
      (∀ column ∈ selected, column ∈ appended selected partitionColumns ↔
        ∃ p ∈ partitionColumns, sameIgnoringCase p column = true) ∧
      ∀ column ∈ inner selected partitionColumns, column ∉ appended selected partitionColumns) ∧
    (ofColumns selected partitionColumns).innerColumns = inner selected partitionColumns ∧
    ∀ (s : Split) (allocator : String) (r : Reader), ∃ w : Reader,
      (ofColumns selected partitionColumns).wrap s allocator r = .ok w ∧
      (appended selected partitionColumns = [] → w = r) ∧
      (appended selected partitionColumns ≠ [] →
        w.fields = r.fields ++ (appended selected partitionColumns).map (fun column => ⟨column, .utf8, true⟩) ∧
        ∀ k, Widens r.fields (appended selected partitionColumns) s.values (r.answer k) (w.answer k) ∧
          (w.after k).close = (r.after k).close) := by
  refine ⟨⟨List.filter_sublist, List.filter_sublist, inner_append_perm selected partitionColumns, ?_, ?_⟩, rfl, ?_⟩
  · intro column hcolumn
    simp [appended, hcolumn, ← isPartitionColumn_iff]
  · intro column hcolumn
    have hnot : isPartitionColumn partitionColumns column = false := by simpa using (List.mem_filter.mp hcolumn).2
    simp [appended, hnot]
  · intro s allocator r
    by_cases hnone : appended selected partitionColumns = []
    · refine ⟨r, ?_, fun _ => rfl, fun hsome => absurd hnone hsome⟩
      simp [ofColumns, hnone]
    · refine ⟨widen (appended selected partitionColumns) s r, ?_, fun h => absurd h hnone, fun _ => ⟨rfl, fun k => ?_⟩⟩
      · simp [ofColumns, hnone]
      · refine ⟨widens_answer _ s r k, ?_⟩
        rw [after_widen]
        rfl

/-- Rows are counted also where the data files hold none of the selected columns. -/
example : ((ofColumns ["day", "DAY"] ["Day"]).wrap ⟨"s", [], [⟨"dAY", some "1"⟩, ⟨"day", none⟩]⟩ ""
    ⟨[], [.ok ⟨[], [], 2⟩], none⟩).toOption.map (fun w => (w.answer 0).toOption) =
    some (some (some ⟨[⟨"day", .utf8, true⟩, ⟨"DAY", .utf8, true⟩],
      [[.text "1", .text "1"], [.text "1", .text "1"]], 2⟩)) := by
  decide +kernel

end Composite

end TableScan
