/-
  TableScan.Proofs.Prediction — explaining a description foretells the scan of what it describes.

  Explaining plans all splits at once and builds nothing; a scan plans, constructs and wraps a split
  when it is asked for the reader. Where constructing and wrapping cannot fail (`Willing`), both go
  by the `outlook` of the splits: either all of them have one (`Foreseen`), or one is the first
  that has none (`foreseen_or_not`).

  - `drain`: a scan that is asked for readers and nothing else.
  - `Foretold`, `FailsAlike`: what the scan does if explaining gives plans, and if it fails.
  - `explain_predicts_scan`: it is one or the other, for every description.
-/

import Mathlib.Data.List.Forall2
import TableScan.Explain
import TableScan.Proofs.Documents
import TableScan.Proofs.Order

namespace TableScan.Scan

open TableScan.Explain (planAll)

/-! ## Scans that fail only where they are planned -/

/-- Readers are constructed and wrapped without fail, once each, as whoever the process runs. -/
structure Willing (s : Scan) : Prop where
  scope : s.context.scope = .current
  constructors : ∀ strategy before r, ∃ reader, s.constructors strategy before r = .ok reader
  composite : ∀ split allocator reader, ∃ widened, s.composite.wrap split allocator reader = .ok widened

section Willing

variable {s : Scan} {split : Split} {σ τ : Session} {p : Prepared} {e : SplitFault}

theorem Willing.outcome_of_error (h : Willing s) (ho : outlook s split = .error e) (entries before : Nat) :
    outcome s split entries before = .error e := by
  rw [outcome, h.scope]
  exact readerOf_of_error ho _

theorem Willing.outcome_of_ok (h : Willing s) (ho : outlook s split = .ok p) (entries before : Nat) :
    ∃ reader, outcome s split entries before = .ok reader := by
  obtain ⟨reader, hc⟩ := h.constructors p.plan.strategy before (request s split p)
  obtain ⟨widened, hw⟩ := h.composite split (allocatorBelow s.context.allocator split.key) reader
  refine ⟨widened, ?_⟩
  simp [outcome, h.scope, Scope.current, readerOf, ho, hc, hw, bind, Except.bind, orCause]

theorem Willing.demanded (h : Willing s) (split : Split) (entries : Nat) :
    demanded s split entries = demand s split := by
  simp [Scan.demanded, h.scope, Scope.current]

theorem Willing.construct_of_error (h : Willing s) (hσ : Sound s σ) (ho : outlook s split = .error e) :
    ∃ τ, (construct s split).run σ = (.error e, τ) := by
  have hanswer := (construct_leads hσ split).answer
  rw [h.outcome_of_error ho] at hanswer
  rcases hc : (construct s split).run σ with ⟨r, τ⟩
  rw [hc] at hanswer
  cases r with
  | ok number => cases hanswer
  | error fault =>
    cases hanswer
    exact ⟨τ, rfl⟩

theorem Willing.construct_of_ok (h : Willing s) (hσ : Sound s σ) (ho : outlook s split = .ok p) :
    ∃ number τ, (construct s split).run σ = (.ok number, τ) := by
  have hanswer := (construct_leads hσ split).answer
  obtain ⟨reader, hreader⟩ := h.outcome_of_ok ho σ.entries σ.constructions
  rw [hreader] at hanswer
  rcases hc : (construct s split).run σ with ⟨r, τ⟩
  rw [hc] at hanswer
  cases r with
  | ok number => exact ⟨number, τ, rfl⟩
  | error fault => cases hanswer

theorem Moved.failed_of {q q' : Sequence} {m : Move} {a : Answer} {f : ScanFault} (hm : Moved s q m a q')
    (hf : a.next? = some (.failed f)) :
    ∃ split ∈ s.part.splits, ∃ e σ suppressed, (construct s split).run q.session = (.error e, σ) ∧
      f = .ofSplit split.key e suppressed := by
  cases hm with
  | failed _ _ hn hc =>
    cases hf
    exact ⟨_, List.mem_of_getElem? hn, _, _, _, hc, rfl⟩
  | gone _ hmoves =>
    simp only [List.mem_cons, Prod.mk.injEq, List.not_mem_nil, or_false] at hmoves
    rcases hmoves with ⟨-, rfl⟩ | ⟨-, rfl⟩ | ⟨-, rfl⟩ <;> cases hf
  | _ => cases hf

/-- Whatever is done with a scan, what fails is planning. -/
theorem Willing.failed (h : Willing s) (moves : List Move) :
    ∀ f, .failed f ∈ asked (play s moves).1 →
      ∃ split ∈ s.part.splits, ∃ e suppressed, outlook s split = .error e ∧ f = .ofSplit split.key e suppressed := by
  have kept := play_keeps (s := s)
    (I := fun log q => Reached s q.session ∧ ∀ f, .failed f ∈ asked log →
      ∃ split ∈ s.part.splits, ∃ e suppressed, outlook s split = .error e ∧ f = .ofSplit split.key e suppressed)
    ⟨.start, by simp [asked]⟩ ?_ moves
  · exact kept.2
  · intro log q m h'
    obtain ⟨hreached, hfailed⟩ := h'
    have hm := move_cases s q m
    refine ⟨hm.reached hreached, ?_⟩
    intro f hf
    rw [asked_append] at hf
    rcases List.mem_append.mp hf with hf | hf
    · exact hfailed f hf
    · obtain ⟨split, hmem, e, σ, suppressed, hc, rfl⟩ := hm.failed_of (Option.mem_toList.mp hf)
      refine ⟨split, hmem, e, suppressed, ?_, rfl⟩
      cases ho : outlook s split with
      | error e' =>
        obtain ⟨τ, hτ⟩ := h.construct_of_error hreached.sound ho
        cases hc.symm.trans hτ
        rfl
      | ok p =>
        obtain ⟨number, τ, hτ⟩ := h.construct_of_ok hreached.sound ho
        cases hc.symm.trans hτ

end Willing

/-! ## Splits that can be planned -/

/-- These are the outlooks of the splits. -/
def Foreseen (s : Scan) (splits : List Split) (ps : List Prepared) : Prop :=
  List.Forall₂ (fun split p => outlook s split = .ok p) splits ps

/-- All splits can be planned, or one is the first that cannot. -/
theorem foreseen_or_not (s : Scan) (splits : List Split) :
    (∃ ps, Foreseen s splits ps) ∨
      ∃ (i : Nat) (split : Split) (e : SplitFault) (ps : List Prepared), splits[i]? = some split ∧
        outlook s split = .error e ∧ Foreseen s (splits.take i) ps := by
  induction splits with
  | nil => exact .inl ⟨[], .nil⟩
  | cons split rest ih =>
    cases ho : outlook s split with
    | error e => exact .inr ⟨0, split, e, [], rfl, ho, .nil⟩
    | ok p =>
      rcases ih with ⟨ps, hps⟩ | ⟨i, split', e, ps, hi, he, hps⟩
      · exact .inl ⟨p :: ps, .cons ho hps⟩
      · exact .inr ⟨i + 1, split', e, p :: ps, hi, he, .cons ho hps⟩

section Foreseen

variable {s : Scan} {splits : List Split} {ps : List Prepared} {i k : Nat}

theorem Foreseen.whole (h : Foreseen s splits ps) : Foreseen s (splits.take splits.length) ps := by
  rwa [List.take_length]

theorem Foreseen.take (h : Foreseen s (splits.take i) ps) (hk : k ≤ ps.length) :
    Foreseen s (splits.take k) (ps.take k) := by
  have hlen : ps.length = min i splits.length := by rw [← h.length_eq, List.length_take]
  have := List.forall₂_take k h
  rwa [List.take_take, Nat.min_eq_left (by omega)] at this

theorem Foreseen.get (h : Foreseen s (splits.take i) ps) (hk : k < ps.length) :
    ∃ split, splits[k]? = some split ∧ outlook s split = .ok ps[k] := by
  obtain ⟨hlen, hget⟩ := List.forall₂_iff_get.mp h
  rw [List.length_take] at hlen
  have hsplits : k < splits.length := by omega
  refine ⟨splits[k], List.getElem?_eq_getElem hsplits, ?_⟩
  simpa using hget k (by rw [List.length_take]; omega) hk

end Foreseen

section PlanAll

variable {s : Scan} {σ : Session}

theorem planAll_cons (hσ : Remembers s σ) (split : Split) (rest : List Split) :
    ∃ τ, Remembers s τ ∧ planAll s σ (split :: rest) = match outlook s split with
      | .error e => .error (.split split.key e)
      | .ok p => (planAll s τ rest).map (p.plan :: ·) := by
  obtain ⟨τ, hτ, hp⟩ := plan_settles s split σ hσ
  refine ⟨τ, hp.remembers hσ, ?_⟩
  rw [planAll, hτ]
  cases outlook s split with
  | error e => rfl
  | ok p =>
    dsimp only [Except.map]
    cases planAll s τ rest <;> rfl

theorem planAll_of_foreseen {splits : List Split} {ps : List Prepared} (h : Foreseen s splits ps) :
    ∀ {σ : Session}, Remembers s σ → planAll s σ splits = .ok (ps.map (·.plan)) := by
  induction h with
  | nil => exact fun _ => rfl
  | cons ho _ ih =>
    intro σ hσ
    obtain ⟨τ, hτ, hplan⟩ := planAll_cons hσ _ _
    rw [hplan, ho]
    dsimp only
    rw [ih hτ]
    rfl

theorem planAll_of_fault {splits : List Split} {split : Split} {e : SplitFault} (he : outlook s split = .error e) :
    ∀ {i : Nat} {ps : List Prepared} {σ : Session}, splits[i]? = some split → Foreseen s (splits.take i) ps →
      Remembers s σ → planAll s σ splits = .error (.split split.key e) := by
  induction splits with
  | nil => simp
  | cons first rest ih =>
    intro i ps σ hi hf hσ
    obtain ⟨τ, hτ, hplan⟩ := planAll_cons hσ first rest
    rw [hplan]
    cases i with
    | zero =>
      obtain rfl : first = split := by simpa using hi
      rw [he]
    | succ i =>
      obtain ⟨p, ps', ho, hf', -⟩ := List.forall₂_cons_left_iff.mp hf
      rw [ho]
      dsimp only
      rw [ih (by simpa using hi) hf' hτ]
      rfl

end PlanAll

/-! ## A scan that is asked for readers only -/

/-- The run in which readers are asked for so often, and nothing else. -/
def drain (s : Scan) (k : Nat) : Log × Sequence := play s (List.replicate k .next)

/-- The answer is a reader. -/
def Sequence.Next.IsReader (a : Sequence.Next) : Prop := ∃ handle key fields, a = .reader handle key fields

section Drain

variable {s : Scan} {k : Nat} {split : Split} {p : Prepared} {e : SplitFault} {ps : List Prepared}

theorem drain_succ (s : Scan) (k : Nat) :
    drain s (k + 1) = ((drain s k).1 ++ [(.next, ((drain s k).2.move s .next).1)], ((drain s k).2.move s .next).2) := by
  rw [drain, List.replicate_succ', play_append]
  rfl

theorem drain_ended (s : Scan) (k : Nat) : (drain s k).2.ended = false := by
  induction k with
  | zero => rfl
  | succ k ih =>
    rw [drain_succ]
    dsimp only
    have hm := next_cases s (drain s k).2
    rcases hq : (drain s k).2.move s .next with ⟨a, q'⟩
    rw [hq] at hm
    cases hm with
    | unheld _ hmoves => simp at hmoves
    | _ => assumption

/-- Each time there is an answer. -/
theorem asked_drain_succ (s : Scan) (k : Nat) :
    ∃ a, ((drain s k).2.move s .next).1 = .next a ∧ asked (drain s (k + 1)).1 = asked (drain s k).1 ++ [a] := by
  have hended := drain_ended s k
  have hm := next_cases s (drain s k).2
  rw [drain_succ]
  dsimp only
  rw [asked_append]
  rcases hq : (drain s k).2.move s .next with ⟨a, q'⟩
  rw [hq] at hm
  cases hm with
  | gone hgone _ => cases hended.symm.trans hgone
  | unheld _ hmoves => simp at hmoves
  | _ => exact ⟨_, rfl, rfl⟩

theorem length_asked_drain (s : Scan) (k : Nat) : (asked (drain s k).1).length = k := by
  induction k with
  | zero => rfl
  | succ k ih =>
    obtain ⟨a, -, ha⟩ := asked_drain_succ s k
    rw [ha, List.length_append, ih]
    rfl

theorem drain_sound (s : Scan) (k : Nat) : Sound s (drain s k).2.session := (play_reached s _).sound

/-- Where a scan stands after it gave readers of so many splits. -/
structure HasRead (s : Scan) (k : Nat) (ps : List Prepared) : Prop where
  source : (drain s k).2.source = .splits k
  readers : ∀ a ∈ asked (drain s k).1, a.IsReader
  requests : (drain s k).2.session.requests = List.zipWith (request s) (s.part.splits.take k) ps

theorem HasRead.succ (h : HasRead s k ps) (hw : Willing s) (hf : Foreseen s (s.part.splits.take k) ps)
    (hk : s.part.splits[k]? = some split) (ho : outlook s split = .ok p) : HasRead s (k + 1) (ps ++ [p]) := by
  have hended := drain_ended s k
  have hsound := drain_sound s k
  have hrequests := requests_of_next hsound hended h.source hk
  obtain ⟨number, σ, hc⟩ := hw.construct_of_ok hsound ho
  have hmove := move_next_splits hended h.source hk
  rw [hc] at hmove
  dsimp only at hmove
  refine ⟨?_, ?_, ?_⟩
  · rw [drain_succ, hmove]
  · intro a ha
    rw [drain_succ, asked_append, hmove] at ha
    rcases List.mem_append.mp ha with ha | ha
    · exact h.readers a ha
    · exact ⟨_, _, _, by simpa [Answer.next?] using ha⟩
  · rw [drain_succ]
    dsimp only
    rw [hrequests, h.requests, hw.demanded, demand_of_ok ho, List.take_add_one, hk, Option.toList_some,
      List.zipWith_append hf.length_eq]
    rfl

theorem hasRead (hw : Willing s) (hne : s.part.splits ≠ []) {i : Nat} (hf : Foreseen s (s.part.splits.take i) ps)
    (hk : k ≤ ps.length) : HasRead s k (ps.take k) := by
  induction k with
  | zero => exact ⟨by simp [drain, play, playFrom, Sequence.start, hne], by simp [drain, play, playFrom, asked], rfl⟩
  | succ k ih =>
    obtain ⟨split, hget, ho⟩ := hf.get hk
    rw [List.take_add_one, List.getElem?_eq_getElem hk]
    exact (ih (Nat.le_of_lt hk)).succ hw (hf.take (Nat.le_of_lt hk)) hget ho

/-- Behind the last split nothing comes, and nobody is called. -/
theorem drain_over (hne : s.part.splits ≠ []) (hk : s.part.splits.length ≤ k) :
    (drain s (k + 1)).2.session.requests = (drain s k).2.session.requests ∧
      asked (drain s (k + 1)).1 = asked (drain s k).1 ++ [.exhausted] := by
  have hi : InTurn s (asked (drain s k).1) (drain s k).2 := play_inTurn hne _
  have hspent : Spent s (asked (drain s k).1) := .inl (by rwa [length_asked_drain])
  refine ⟨?_, ?_⟩
  · rw [drain_succ]
    exact Session.requests_of_consulted ((next_cases s _).idle hi (.inr (.inr hspent)))
  · obtain ⟨a, hmove, ha⟩ := asked_drain_succ s k
    obtain ⟨a', hmove', hdue⟩ := hi.due (play_lined s _) (drain_ended s k)
    cases hmove.symm.trans hmove'
    rw [ha]
    cases hdue with
    | reader hnot _ => exact absurd hspent hnot
    | failed hnot _ _ => exact absurd hspent hnot
    | exhausted _ => rfl

end Drain

/-! ## What explaining foretells -/

/-- A scan that yields a reader for each split, planned in this way. -/
structure Foretold (s : Scan) (plans : List Plan) : Prop where
  keys : plans.map (·.splitKey) = s.part.splits.map (·.key)
  faultless : ∀ moves f, .failed f ∉ asked (play s moves).1
  readers : ∀ k ≤ s.part.splits.length, ∀ a ∈ asked (drain s k).1, a.IsReader
  handed : ∀ k, (drain s k).2.session.requests.map (fun r => (r.split, r.strategy)) =
    (s.part.splits.zip (plans.map (·.strategy))).take k
  /-- A scan without splits yields one reader all the same. -/
  drained : ∀ k, s.part.splits.length + 1 < k → (asked (drain s k).1).getLast? = some .exhausted

/-- A scan that yields readers up to a split, and for this one its fault. -/
structure FailsAt (s : Scan) (i : Nat) (split : Split) (e : SplitFault) : Prop where
  at_split : s.part.splits[i]? = some split
  readers : ∀ a ∈ asked (drain s i).1, a.IsReader
  fails : ∃ suppressed,
    asked (drain s (i + 1)).1 = asked (drain s i).1 ++ [.failed (.ofSplit split.key e suppressed)]

section Foretelling

variable {s : Scan} {split : Split} {e : SplitFault} {ps : List Prepared} {i : Nat}

theorem outlook_splitKey {p : Prepared} (h : outlook s split = .ok p) : p.plan.splitKey = split.key := by
  obtain ⟨v, t, u, -, -, -, rfl⟩ := outlook_prepared h
  rfl

theorem Foreseen.keys {splits : List Split} (h : Foreseen s splits ps) :
    (ps.map (·.plan)).map (·.splitKey) = splits.map (·.key) := by
  induction h with
  | nil => rfl
  | cons ho _ ih =>
    simp only [List.map_cons, outlook_splitKey ho]
    rw [ih]

theorem Foreseen.requests (hw : Willing s) (hf : Foreseen s s.part.splits ps) (k : Nat) :
    (drain s k).2.session.requests = (List.zipWith (request s) s.part.splits ps).take k := by
  have hlen := hf.length_eq
  by_cases hs : s.part.splits = []
  · have hsilent := (play_blank hs (List.replicate k .next)).silent
    rw [hs]
    simp [drain, Session.requests, hsilent]
  · have hread {k : Nat} (hk : k ≤ s.part.splits.length) :
        (drain s k).2.session.requests = (List.zipWith (request s) s.part.splits ps).take k := by
      rw [(hasRead hw hs hf.whole (hlen ▸ hk)).requests, List.take_zipWith]
    rcases Nat.le_total k s.part.splits.length with hk | hk
    · exact hread hk
    · obtain ⟨j, rfl⟩ := Nat.exists_eq_add_of_le hk
      have hall (j : Nat) : (List.zipWith (request s) s.part.splits ps).take (s.part.splits.length + j) =
          List.zipWith (request s) s.part.splits ps := List.take_of_length_le (by simp [← hlen])
      induction j with
      | zero => exact hread (Nat.le_refl _)
      | succ j ih => rw [hall, ← Nat.add_assoc, (drain_over hs (by omega)).1, ih (by omega), hall]

theorem Foreseen.faultless (hw : Willing s) (hf : Foreseen s s.part.splits ps) (moves : List Move) :
    ∀ f, .failed f ∉ asked (play s moves).1 := by
  intro f hfailed
  obtain ⟨split, hmem, e, -, he, -⟩ := hw.failed moves f hfailed
  obtain ⟨k, hk, rfl⟩ := List.mem_iff_getElem.mp hmem
  obtain ⟨split', hget, ho⟩ := hf.whole.get (hf.length_eq ▸ hk)
  obtain rfl : s.part.splits[k] = split' := by simpa [hk] using hget
  cases he.symm.trans ho

theorem Foreseen.foretold (hw : Willing s) (hf : Foreseen s s.part.splits ps) :
    Foretold s (ps.map (·.plan)) where
  keys := hf.keys
  faultless := hf.faultless hw
  readers k hk := by
    by_cases hs : s.part.splits = []
    · obtain rfl : k = 0 := by simpa [hs] using hk
      simp [drain, play, playFrom, asked]
    · exact (hasRead hw hs hf.whole (hf.length_eq ▸ hk)).readers
  handed k := by
    rw [hf.requests hw k, List.map_take, List.map_zipWith, List.zip, List.map_map, List.zipWith_map_right]
    rfl
  drained k hk := by
    obtain ⟨k, rfl⟩ : ∃ j, k = j + 1 := ⟨k - 1, by omega⟩
    by_cases hs : s.part.splits = []
    · rcases (play_blank hs (List.replicate (k + 1) .next)).answers with hnone | ⟨j, hj⟩
      · have := length_asked_drain s (k + 1)
        rw [drain, hnone] at this
        cases this
      · have hlen := length_asked_drain s (k + 1)
        rw [drain, hj] at hlen ⊢
        cases j with
        | zero => simp [hs] at hk hlen; omega
        | succ j => rw [List.replicate_succ', ← List.cons_append, List.getLast?_concat]
    · rw [(drain_over hs (by omega)).2, List.getLast?_concat]

theorem Foreseen.failsAt (hw : Willing s) (hf : Foreseen s (s.part.splits.take i) ps)
    (hi : s.part.splits[i]? = some split) (he : outlook s split = .error e) : FailsAt s i split e := by
  have hs : s.part.splits ≠ [] := by
    intro hnil
    simp [hnil] at hi
  have hlen : ps.length = i := by
    have := (List.getElem?_eq_some_iff.mp hi).1
    rw [← hf.length_eq, List.length_take]
    omega
  have hread := hasRead hw hs hf (k := i) (Nat.le_of_eq hlen.symm)
  refine ⟨hi, hread.readers, ?_⟩
  obtain ⟨τ, hτ⟩ := hw.construct_of_error (drain_sound s i) he
  have hmove := move_next_splits (drain_ended s i) hread.source hi
  rw [hτ] at hmove
  dsimp only at hmove
  rw [drain_succ, asked_append, hmove]
  exact ⟨_, rfl⟩

end Foretelling

end TableScan.Scan

namespace TableScan.Explain

open TableScan.Json TableScan.Scan

/-! ## Descriptions -/

/-- The scan is of what is described: with the registry, the serialization libraries and the identity that
come with the engine, the deltas that splits record, and constructors that always succeed. -/
structure Description.Runs (d : Description) (s : Scan) : Prop where
  resolver : s.resolver = ⟨.standard, d.libraries⟩
  constructors : ∀ strategy before r, ∃ reader, s.constructors strategy before r = .ok reader
  serdes : s.serdes = .builtIn
  deltas : s.deltas = Delta.recorded
  table : s.table = d.table
  splits : s.part.splits = d.splits.map SplitDescription.split
  columns : s.part.columns = d.columns
  vectorize : s.context.vectorize = d.options.vectorize
  scope : s.context.scope = .current
  composite : s.composite = .ofColumns d.columns d.table.partitionColumns
  settings : s.settings = d.settings

theorem Description.scan_runs (d : Description) : d.Runs d.scan :=
  ⟨rfl, fun _ _ _ => ⟨.empty, rfl⟩, rfl, rfl, rfl, rfl, rfl, rfl, rfl, rfl, rfl⟩

/-- The payload of a described split says what the description does. -/
theorem SplitDescription.details?_split (sd : SplitDescription) : sd.split.details? = some sd.details :=
  sd.details.reads.ofString? (by decide)

section Runs

variable {d : Description} {s : Scan}

theorem Description.Runs.willing (h : d.Runs s) : Willing s where
  scope := h.scope
  constructors := h.constructors
  composite split allocator reader := by
    rw [h.composite]
    exact ⟨_, rfl⟩

theorem Description.Runs.outlook (h : d.Runs s) (split : Split) : outlook s split = outlook d.scan split := by
  obtain ⟨resolver, constructors, serdes, deltas, table, part, ⟨vectorize, user, scope, allocator⟩, composite,
    settings⟩ := s
  obtain ⟨rfl, -, rfl, rfl, rfl, -, -, rfl, -, -, rfl⟩ := h
  rfl

end Runs

/-- What the command does with a file that holds the description, if explaining it fails. -/
def FailsSilently (d : Description) : Prop :=
  ∀ path content json, load path content = .ok d →
    (run path content json).output = "" ∧ (run path content json).exitCode = 1

theorem failsSilently {d : Description} {fault : Fault} (h : explain d = .error fault) : FailsSilently d := by
  intro path content json hload
  simp [run, hload, bind, Except.bind, h]

section Explain

variable {d : Description} {s : Scan}

theorem explain_of_foreseen (h : d.Runs s) {ps : List Prepared} (hf : Foreseen s s.part.splits ps) :
    explain d = .ok (ps.map (·.plan)) := by
  refine planAll_of_foreseen ?_ (remembers_start _)
  change Foreseen d.scan (d.splits.map SplitDescription.split) ps
  rw [← h.splits]
  exact hf.imp fun split p ho => h.outlook split ▸ ho

/-- Explaining fails as the first split does that cannot be planned, and would not without it. -/
theorem explain_of_fault (h : d.Runs s) {i : Nat} {split : Split} {e : SplitFault} {ps : List Prepared}
    (hi : s.part.splits[i]? = some split) (he : outlook s split = .error e)
    (hf : Foreseen s (s.part.splits.take i) ps) :
    explain d = .error (.split split.key e) ∧
      explain { d with splits := d.splits.take i } = .ok (ps.map (·.plan)) := by
  have hf' : Foreseen d.scan (s.part.splits.take i) ps := hf.imp fun split p ho => h.outlook split ▸ ho
  rw [h.splits] at hi hf'
  refine ⟨planAll_of_fault (h.outlook split ▸ he) hi hf' (remembers_start _), ?_⟩
  refine planAll_of_foreseen ?_ (remembers_start _)
  change Foreseen d.scan ((d.splits.take i).map SplitDescription.split) ps
  rwa [List.map_take]

/-- The fault of a described split is that it cannot be planned, not that its payload is damaged. -/
theorem cause_decoded {sd : SplitDescription} {e : SplitFault} (he : outlook s sd.split = .error e) :
    e ≠ .construction .undecodablePayload := by
  have := onlyPlans_outlook sd.details?_split e he
  rintro rfl
  cases this

end Explain

theorem explain_predicts_scan {d : Description} {s : Scan} (h : d.Runs s) :
    ((∃ plans, explain d = .ok plans) ↔ ∀ k f, .failed f ∉ asked (drain s k).1) ∧
    (∀ plans, explain d = .ok plans → Foretold s plans) ∧
    (∀ fault, explain d = .error fault → FailsSilently d ∧
      ∃ (i : Nat) (sd : SplitDescription) (cause : SplitFault), d.splits[i]? = some sd ∧
        fault = .split sd.key cause ∧ cause ≠ .construction .undecodablePayload ∧
        (∃ plans, explain { d with splits := d.splits.take i } = .ok plans) ∧ FailsAt s i sd.split cause) ∧
    ∀ sd ∈ d.splits, sd.split.details? = some sd.details := by
  have hw := h.willing
  refine (foreseen_or_not s s.part.splits).elim ?_ ?_
  · rintro ⟨ps, hf⟩
    have hexplain := explain_of_foreseen h hf
    refine ⟨⟨fun _ k => hf.faultless hw _, fun _ => ⟨_, hexplain⟩⟩, ?_, ?_, fun sd _ => sd.details?_split⟩
    · intro plans hplans
      cases hexplain.symm.trans hplans
      exact hf.foretold hw
    · intro fault hfault
      cases hexplain.symm.trans hfault
  · rintro ⟨i, split, e, ps, hi, he, hf⟩
    obtain ⟨hexplain, hbefore⟩ := explain_of_fault h hi he hf
    have hfails := hf.failsAt hw hi he
    refine ⟨⟨?_, ?_⟩, ?_, ?_, fun sd _ => sd.details?_split⟩
    · rintro ⟨plans, hplans⟩
      cases hexplain.symm.trans hplans
    · intro hclean
      obtain ⟨suppressed, hlast⟩ := hfails.fails
      exact absurd (hlast ▸ List.mem_append_right _ (List.mem_singleton_self _)) (hclean (i + 1) _)
    · intro plans hplans
      cases hexplain.symm.trans hplans
    · intro fault hfault
      cases hexplain.symm.trans hfault
      obtain ⟨sd, hsd, rfl⟩ : ∃ sd, d.splits[i]? = some sd ∧ sd.split = split := by
        simpa [h.splits, List.getElem?_map] using hi
      exact ⟨failsSilently hexplain, i, sd, e, hsd, rfl, cause_decoded he, ⟨_, hbefore⟩, hfails⟩

/-- A split of the one partition that the table knows, and one of another. -/
def strayDescription : Description where
  table :=
    { Table.blank with
      library := some Serde.lazySimple
      properties := Dict.ofList [(Layout.columnsKey, "a"), (Layout.columnTypesKey, "int")]
      partitionColumns := ["ds"]
      partitions := Dict.ofList [(1, .none)] }
  splits := [⟨"a", ⟨some 1, .file ⟨"f", 0, 9⟩⟩, []⟩, ⟨"b", ⟨some 7, .file ⟨"g", 0, 9⟩⟩, []⟩]
  columns := ["a", "ds"]
  options := ⟨true⟩
  libraries := .everything
  settings := .empty

/-- The first of the two splits alone. -/
def knownDescription : Description := { strayDescription with splits := strayDescription.splits.take 1 }

theorem strayDescription_fault :
    (match explain strayDescription with
      | .error (.split key _) => some key
      | _ => none) = some "b" := by
  decide +kernel

theorem knownDescription_strategies :
    (explain knownDescription).toOption.map (·.map (·.strategy)) = some [.default] := by
  decide +kernel

theorem strayDescription_predicted :
    strayDescription.Runs strayDescription.scan ∧ knownDescription.Runs knownDescription.scan ∧
      (∃ sd cause, explain strayDescription = .error (.split "b" cause) ∧ FailsSilently strayDescription ∧
        ∃ i, strayDescription.splits[i]? = some sd ∧ FailsAt strayDescription.scan i sd.split cause) ∧
      ∃ plans, explain knownDescription = .ok plans ∧ plans.map (·.strategy) = [.default] ∧
        Foretold knownDescription.scan plans := by
  refine ⟨Description.scan_runs _, Description.scan_runs _, ?_, ?_⟩
  · obtain ⟨-, -, hfails, -⟩ := explain_predicts_scan strayDescription.scan_runs
    have hkey := strayDescription_fault
    rcases he : explain strayDescription with fault | plans
    · obtain ⟨hsilent, i, sd, cause, hsd, rfl, -, -, hat⟩ := hfails fault he
      rw [he] at hkey
      have hb : sd.key = "b" := Option.some.inj hkey
      exact ⟨sd, cause, by rw [hb], hsilent, i, hsd, hat⟩
    · rw [he] at hkey
      cases hkey
  · obtain ⟨-, hforetold, -⟩ := explain_predicts_scan knownDescription.scan_runs
    have hplans := knownDescription_strategies
    rcases he : explain knownDescription with fault | plans
    · rw [he] at hplans
      cases hplans
    · rw [he] at hplans
      exact ⟨plans, rfl, Option.some.inj hplans, hforetold plans he⟩

end TableScan.Explain
