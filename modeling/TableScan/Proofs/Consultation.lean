/-
  TableScan.Proofs.Consultation — which collaborators a scan calls, how often, in what order and as
  whom.

  Every split that has its turn is one `Consultation`, begun and ended as the user of the scan:
  libraries are set up, deltas are listed, strategies are resolved, the constructor is called and
  its reader wrapped. `Consults` says how many of these calls there are, and when, by what is true
  of the split: its rows have layouts (`HasLayouts`), its deltas are to be listed (`Probes`) and
  were (`Ready`), and the partition is reason to resolve the strategy again (`ResolvesAgain`).

  - `construct_consults`: constructing the reader of a split is such a consultation.
  - `consulted_in_turn`: a run is one consultation after another, of the first splits in order, and
    nothing else is called. Where every split gave a reader the calls are counted.
-/

import Mathlib.Algebra.GroupWithZero.Nat
import TableScan.Proofs.Prediction

namespace TableScan.Scan

/-! ## What decides about a split -/

/-- The rows of the table have a layout, and so have those of the partition, which the table knows. -/
def HasLayouts (s : Scan) (d : SplitDetails) : Prop :=
  (tableLayout? s).isSome = true ∧ (s.table.isPartitioned = true →
    ∃ id, d.partition = some id ∧ (s.table.partition? id).isSome = true ∧ (partitionLayout? s id).isSome = true)

/-- The deltas of the split are to be listed, for this range. -/
def Probes (s : Scan) (split : Split) (range : TransactionalRange) : Prop :=
  ∃ d, split.details? = some d ∧ HasLayouts s d ∧ s.isTransactional = true ∧ d.storage.transactional? = some range

/-- Nothing stands in the way of resolving a strategy: deltas that are to be listed are. -/
def Ready (s : Scan) (split : Split) (d : SplitDetails) : Prop :=
  split.details? = some d ∧ HasLayouts s d ∧ (s.isTransactional = true →
    ∃ range found, d.storage.transactional? = some range ∧ s.deltas (Delta.root range) range = .ok found)

/-- A strategy can be resolved for the table. -/
def TableResolves (s : Scan) (d : SplitDetails) : Prop :=
  ∃ (pending : Bool) (strategy : Strategy), (pending = true ↔ HasDeltas s d) ∧
    s.resolver.resolve ⟨s.table.format, s.context.vectorize, false, s.isTransactional, pending, s.baseSettings⟩
      = .ok strategy

/-- A strategy can be resolved for the partition. -/
def PartitionResolves (s : Scan) (d : SplitDetails) : Prop :=
  ∃ (drifted pending : Bool) (strategy : Strategy), (drifted = true ↔ Drifts s d) ∧ (pending = true ↔ HasDeltas s d) ∧
    s.resolver.resolve
      ⟨effectiveFormat s d, s.context.vectorize, drifted, s.isTransactional, pending, settingsFor s d⟩ = .ok strategy

/-- The strategy of the table does not do for the split. -/
def ResolvesAgain (s : Scan) (d : SplitDetails) : Prop :=
  TableResolves s d ∧ s.table.isPartitioned = true ∧
    (effectiveFormat s d ≠ s.table.format ∨ Drifts s d ∨ HasDeltas s d)

section Stages

variable {s : Scan} {split : Split} {d : SplitDetails} {v : Survey}

theorem toOption_eq_some {ε α : Type} {x : Except ε α} {a : α} : x.toOption = some a ↔ x = .ok a := by
  cases x <;> simp [Except.toOption]

theorem derivedLayout_isSome {partition : Option PartitionId} {settings properties : Properties}
    {library : Option String} : (derivedLayout? s settings library properties).isSome = true ↔
      ∃ rows, rowsOf s partition settings library properties = .ok rows := by
  simp only [rowsOf_eq_ok, derivedLayout?]
  constructor
  · intro h
    obtain ⟨layout, h⟩ := Option.isSome_iff_exists.mp h
    obtain ⟨name, hn, h⟩ := Option.bind_eq_some_iff.mp h
    obtain ⟨handle, hh, hl⟩ := Option.bind_eq_some_iff.mp h
    exact ⟨⟨handle, layout⟩, name, hn, toOption_eq_some.mp hh, toOption_eq_some.mp hl⟩
  · intro h
    obtain ⟨rows, name, hn, hh, hl⟩ := h
    simp [hn, hh, hl, Except.toOption]

theorem partitionOf_isOk : (∃ view, partitionOf s d = .ok view) ↔ (s.table.isPartitioned = true →
    ∃ id, d.partition = some id ∧ (s.table.partition? id).isSome = true ∧ (partitionLayout? s id).isSome = true) := by
  unfold partitionOf
  split
  · rename_i hp
    simp only [bind_eq_ok, orFault_eq_ok, hp, true_implies]
    constructor
    · rintro ⟨_, id, hid, o, ho, rows, hrows, -⟩
      exact ⟨id, hid, Option.isSome_iff_exists.mpr ⟨o, ho⟩, derivedLayout_isSome.mpr ⟨rows, hrows⟩⟩
    · rintro ⟨id, hid, hknown, hlayout⟩
      obtain ⟨o, ho⟩ := Option.isSome_iff_exists.mp hknown
      obtain ⟨rows, hrows⟩ := derivedLayout_isSome.mp hlayout
      exact ⟨_, id, hid, o, ho, rows, hrows, rfl⟩
  · rename_i hp
    exact ⟨fun _ h => absurd h hp, fun _ => ⟨_, rfl⟩⟩

theorem hasLayouts_iff : HasLayouts s d ↔ (∃ rows, tableRowsOf s = .ok rows) ∧ ∃ view, partitionOf s d = .ok view := by
  rw [HasLayouts, partitionOf_isOk, tableLayout?, derivedLayout_isSome]
  rfl

theorem pendingOf_isOk {storage : Storage} : (∃ pending, pendingOf s storage = .ok pending) ↔
    (s.isTransactional = true → ∃ range found, storage.transactional? = some range ∧
      s.deltas (Delta.root range) range = .ok found) := by
  unfold pendingOf
  split
  · rename_i ht
    simp only [bind_eq_ok, orFault_eq_ok, orCause_eq_ok, ht, true_implies]
    constructor
    · rintro ⟨_, range, hrange, found, hfound, -⟩
      exact ⟨range, found, hrange, hfound⟩
    · rintro ⟨range, found, hrange, hfound⟩
      exact ⟨_, range, hrange, found, hfound, rfl⟩
  · rename_i ht
    exact ⟨fun _ h => absurd h ht, fun _ => ⟨_, rfl⟩⟩

theorem ready_iff : Ready s split d ↔ ∃ v, Surveyed s split v ∧ v.details = d := by
  rw [Ready, hasLayouts_iff, ← pendingOf_isOk]
  constructor
  · rintro ⟨hd, ⟨⟨rows, hrows⟩, ⟨layered, view⟩, hview⟩, pending, hpending⟩
    exact ⟨⟨d, rows, layered, view, pending⟩, ⟨hd, hrows, hview, hpending⟩, rfl⟩
  · rintro ⟨v, hv, rfl⟩
    exact ⟨hv.details, ⟨⟨_, hv.tableRows⟩, _, hv.partition⟩, _, hv.pending⟩

theorem Surveyed.tableResolves (h : Surveyed s split v) :
    TableResolves s v.details ↔ ∃ strategy, v.tableStrategy s = .ok strategy := by
  constructor
  · rintro ⟨pending, strategy, hpending, hresolve⟩
    obtain rfl : pending = v.pending := Bool.eq_iff_iff.mpr (hpending.trans h.pending_iff.symm)
    exact ⟨strategy, hresolve⟩
  · rintro ⟨strategy, hresolve⟩
    exact ⟨v.pending, strategy, h.pending_iff, hresolve⟩

theorem Surveyed.partitionResolves (h : Surveyed s split v) :
    PartitionResolves s v.details ↔ ∃ strategy, v.partitionStrategy s = .ok strategy := by
  rw [PartitionResolves, ← h.format_eq, ← h.settings_eq]
  constructor
  · rintro ⟨drifted, pending, strategy, hdrifted, hpending, hresolve⟩
    obtain rfl : drifted = v.drifted := Bool.eq_iff_iff.mpr (hdrifted.trans h.drifted_iff.symm)
    obtain rfl : pending = v.pending := Bool.eq_iff_iff.mpr (hpending.trans h.pending_iff.symm)
    exact ⟨strategy, hresolve⟩
  · rintro ⟨strategy, hresolve⟩
    exact ⟨v.drifted, v.pending, strategy, h.drifted_iff, h.pending_iff, hresolve⟩

theorem Surveyed.resolvesAgain (h : Surveyed s split v) :
    ResolvesAgain s v.details ↔ (∃ strategy, v.tableStrategy s = .ok strategy) ∧ v.again s = true := by
  rw [ResolvesAgain, h.tableResolves, h.again_iff]

end Stages

/-! ## Consultations -/

/-- The calls to collaborators on account of one split. -/
structure Consultation where
  libraries : List String
  /-- The roots under which deltas were listed, each with what was found. -/
  listings : List (String × Option (List String))
  /-- The formats that strategies were resolved for. -/
  resolutions : List (Option String)
  requests : List Request
  /-- The splits whose readers were wrapped, each with its allocator. -/
  wraps : List (String × String)

namespace Consultation

/-- The calls of planning but for those that set up libraries. -/
def planning (c : Consultation) : List Event :=
  c.listings.map (fun l => .listed l.1 l.2) ++ c.resolutions.map .resolved

/-- The calls in order. -/
def calls (c : Consultation) : List Event :=
  c.libraries.map .setUp ++ c.planning ++ c.requests.map .constructed ++ c.wraps.map fun w => .wrapped w.1 w.2

/-- The calls, all of them made as the user. -/
def callsAs (user : String) (c : Consultation) : List Event := .entered user :: (c.calls ++ [.left user])

/-- How often the lister and the resolver are called, and what for. -/
structure Plans (s : Scan) (split : Split) (c : Consultation) : Prop where
  listed : ∀ range, Probes s split range →
    c.listings = [(Delta.root range, (s.deltas (Delta.root range) range).toOption)]
  unlisted : (∀ range, ¬ Probes s split range) → c.listings = []
  unresolved : (∀ d, ¬ Ready s split d) → c.resolutions = []
  resolvedOnce : ∀ d, Ready s split d → ¬ ResolvesAgain s d → c.resolutions = [s.table.format]
  resolvedTwice : ∀ d, Ready s split d → ResolvesAgain s d →
    c.resolutions = [s.table.format, effectiveFormat s d]

/-- How often collaborators are called, and what for. -/
structure Consults (s : Scan) (split : Split) (c : Consultation) : Prop extends Plans s split c where
  requests : c.requests = demand s split
  constructed : c.requests ≠ [] ↔
    ∃ d, Ready s split d ∧ TableResolves s d ∧ (ResolvesAgain s d → PartitionResolves s d)
  wrapped : c.wraps = [] ∨
    c.requests ≠ [] ∧ c.wraps = [(split.key, allocatorBelow s.context.allocator split.key)]

end Consultation

open Consultation

/-! ## Planning a split -/

section Planning

variable {s : Scan} {split : Split} {d : SplitDetails} {v : Survey}

theorem planningCalls_of_not_layouts (h : ∀ d, split.details? = some d → ¬ HasLayouts s d) :
    planningCalls s split = [] := by
  cases hd : split.details? with
  | none => simp [planningCalls, hd, orFault, onOk]
  | some d =>
    have hno := h d hd
    rw [hasLayouts_iff] at hno
    cases hrows : tableRowsOf s with
    | error e => simp [planningCalls, hd, hrows, orFault, onOk]
    | ok rows =>
      cases hview : partitionOf s d with
      | error e => simp [planningCalls, hd, hrows, hview, orFault, onOk]
      | ok view => exact absurd ⟨⟨rows, hrows⟩, view, hview⟩ hno

/-- Without layouts nobody is called but to set up libraries. -/
theorem plans_of_not_layouts (h : ∀ d, split.details? = some d → ¬ HasLayouts s d) :
    Plans s split ⟨[], [], [], [], []⟩ where
  listed := fun _ ⟨d, hd, hl, _⟩ => absurd hl (h d hd)
  unlisted _ := rfl
  unresolved _ := rfl
  resolvedOnce := fun d ⟨hd, hl, _⟩ => absurd hl (h d hd)
  resolvedTwice := fun d ⟨hd, hl, _⟩ => absurd hl (h d hd)

/-- The listings of a split whose rows have layouts. -/
def listingsOf (s : Scan) (storage : Storage) : List (String × Option (List String)) :=
  (if s.isTransactional then storage.transactional? else none).toList.map fun range =>
    (Delta.root range, (s.deltas (Delta.root range) range).toOption)

theorem listings_eq (storage : Storage) :
    listings s storage = (listingsOf s storage).map fun l => .listed l.1 l.2 := by
  unfold listings listingsOf
  rw [List.map_map]
  split <;> rfl

theorem listed_of_layouts (hd : split.details? = some d) (hl : HasLayouts s d) :
    (∀ range, Probes s split range →
      listingsOf s d.storage = [(Delta.root range, (s.deltas (Delta.root range) range).toOption)]) ∧
    ((∀ range, ¬ Probes s split range) → listingsOf s d.storage = []) := by
  constructor
  · rintro range ⟨d', hd', -, ht, hr⟩
    obtain rfl := Option.some.inj (hd.symm.trans hd')
    simp [listingsOf, ht, hr]
  · intro hno
    unfold listingsOf
    split
    · rename_i ht
      cases hr : d.storage.transactional? with
      | none => rfl
      | some range => exact absurd ⟨d, hd, hl, ht, hr⟩ (hno range)
    · rfl

/-- The formats that strategies are resolved for. -/
def formatsOf (s : Scan) (v : Survey) : List (Option String) :=
  s.table.format :: if (v.tableStrategy s).toOption.isSome && v.again s then [v.format s] else []

theorem resolutions_eq (v : Survey) : v.resolutions s = (formatsOf s v).map .resolved := by
  unfold Survey.resolutions formatsOf
  cases v.tableStrategy s with
  | error e => rfl
  | ok strategy => cases v.again s <;> rfl

theorem Surveyed.resolved (h : Surveyed s split v) :
    (¬ ResolvesAgain s v.details → formatsOf s v = [s.table.format]) ∧
    (ResolvesAgain s v.details → formatsOf s v = [s.table.format, effectiveFormat s v.details]) := by
  rw [h.resolvesAgain]
  constructor
  · intro hno
    unfold formatsOf
    rw [if_neg]
    rw [Bool.and_eq_true, Option.isSome_iff_exists]
    rintro ⟨⟨strategy, hok⟩, ha⟩
    exact hno ⟨⟨strategy, toOption_eq_some.mp hok⟩, ha⟩
  · rintro ⟨⟨strategy, hok⟩, ha⟩
    simp [formatsOf, hok, ha, Except.toOption, h.format_eq]

theorem plans_of_layouts (hd : split.details? = some d) (hl : HasLayouts s d) :
    ∃ c, Plans s split c ∧ planningCalls s split = c.planning := by
  obtain ⟨⟨rows, hrows⟩, view, hview⟩ := hasLayouts_iff.mp hl
  obtain ⟨hlisted, hunlisted⟩ := listed_of_layouts hd hl
  have hcalls : planningCalls s split = listings s d.storage ++ onOk (pendingOf s d.storage) fun pending =>
      Survey.resolutions s ⟨d, rows, view.1, view.2, pending⟩ := by
    simp [planningCalls, hd, hrows, hview, orFault, onOk]
  rw [hcalls, listings_eq]
  cases hpending : pendingOf s d.storage with
  | error e =>
    have hready : ∀ d', ¬ Ready s split d' := by
      rintro d' ⟨hd', -, hdeltas⟩
      obtain rfl := Option.some.inj (hd.symm.trans hd')
      obtain ⟨pending, hok⟩ := pendingOf_isOk.mpr hdeltas
      cases hpending.symm.trans hok
    refine ⟨⟨[], listingsOf s d.storage, [], [], []⟩, ⟨hlisted, hunlisted, fun _ => rfl, ?_, ?_⟩, rfl⟩
    · exact fun d' hd' => absurd hd' (hready d')
    · exact fun d' hd' => absurd hd' (hready d')
  | ok pending =>
    have hv : Surveyed s split ⟨d, rows, view.1, view.2, pending⟩ := ⟨hd, hrows, hview, hpending⟩
    obtain ⟨honce, htwice⟩ := hv.resolved
    refine ⟨⟨[], listingsOf s d.storage, formatsOf s ⟨d, rows, view.1, view.2, pending⟩, [], []⟩,
      ⟨hlisted, hunlisted, ?_, ?_, ?_⟩, ?_⟩
    · exact fun hno => absurd (ready_iff.mpr ⟨_, hv, rfl⟩) (hno d)
    · rintro d' ⟨hd', -⟩ hno
      obtain rfl := Option.some.inj (hd.symm.trans hd')
      exact honce hno
    · rintro d' ⟨hd', -⟩ hagain
      obtain rfl := Option.some.inj (hd.symm.trans hd')
      exact htwice hagain
    · rw [onOk, resolutions_eq]
      rfl

theorem planning_plans (s : Scan) (split : Split) : ∃ c, Plans s split c ∧ planningCalls s split = c.planning := by
  by_cases h : ∃ d, split.details? = some d ∧ HasLayouts s d
  · obtain ⟨d, hd, hl⟩ := h
    exact plans_of_layouts hd hl
  · have hno : ∀ d, split.details? = some d → ¬ HasLayouts s d := fun d hd hl => h ⟨d, hd, hl⟩
    exact ⟨_, plans_of_not_layouts hno, planningCalls_of_not_layouts hno⟩

end Planning

/-! ## Building a reader -/

namespace Session

theorem consulted_record (σ : Session) (e : Event) :
    (σ.record e).consulted = σ.consulted ++ [e].filter Event.isConsultation := List.filter_append ..

theorem consulted_recordAll (σ : Session) {calls : List Event} (h : ∀ e ∈ calls, e.isConsultation = true) :
    (σ.recordAll calls).consulted = σ.consulted ++ calls := by
  rw [consulted, recordAll, List.filter_append, List.filter_eq_self.mpr h, consulted]

end Session

section Building

variable {s : Scan} {split : Split} {σ : Session}

theorem outlook_isOk : (∃ p, outlook s split = .ok p) ↔
    ∃ d, Ready s split d ∧ TableResolves s d ∧ (ResolvesAgain s d → PartitionResolves s d) := by
  simp only [outlook_eq_ok, decide_eq_ok]
  constructor
  · rintro ⟨p, v, hv, tableStrategy, strategy, ht, hs, -⟩
    refine ⟨v.details, ready_iff.mpr ⟨v, hv, rfl⟩, hv.tableResolves.mpr ⟨_, ht⟩, ?_⟩
    intro hagain
    rw [if_pos (hv.resolvesAgain.mp hagain).2] at hs
    exact hv.partitionResolves.mpr ⟨_, hs⟩
  · rintro ⟨d, hd, ht, hp⟩
    obtain ⟨v, hv, rfl⟩ := ready_iff.mp hd
    obtain ⟨tableStrategy, ht⟩ := hv.tableResolves.mp ht
    by_cases ha : v.again s = true
    · obtain ⟨strategy, hs⟩ := hv.partitionResolves.mp (hp (hv.resolvesAgain.mpr ⟨⟨_, ht⟩, ha⟩))
      exact ⟨_, v, hv, tableStrategy, strategy, ht, by rw [if_pos ha, hs], rfl⟩
    · exact ⟨_, v, hv, tableStrategy, tableStrategy, ht, by rw [if_neg ha], rfl⟩

/-- The consultation that planning begins, with the call to the constructor if there is one. -/
theorem Consultation.Plans.consults {c : Consultation} (h : Plans s split c) (libraries : List String)
    {wraps : List (String × String)} (hwraps : wraps = [] ∨
      demand s split ≠ [] ∧ wraps = [(split.key, allocatorBelow s.context.allocator split.key)]) :
    Consults s split { c with libraries, requests := demand s split, wraps } where
  listed := h.listed
  unlisted := h.unlisted
  unresolved := h.unresolved
  resolvedOnce := h.resolvedOnce
  resolvedTwice := h.resolvedTwice
  requests := rfl
  constructed := by
    rw [← outlook_isOk]
    cases ho : outlook s split with
    | error e => simp [demand_of_error ho]
    | ok p => simp [demand_of_ok ho]
  wrapped := hwraps

theorem isConsultation_of_planning (libraries : List String) (c : Consultation) :
    ∀ e ∈ libraries.map .setUp ++ c.planning, e.isConsultation = true := by
  intro e he
  simp only [planning, List.mem_append, List.mem_map] at he
  rcases he with ⟨_, -, rfl⟩ | ⟨_, -, rfl⟩ | ⟨_, -, rfl⟩ <;> rfl

theorem consulted_warnUnwrapped (fault : Option ReaderFault) (σ : Session) :
    (warnUnwrapped split fault σ).consulted = σ.consulted := by
  cases fault <;> rfl

theorem prepare_consulted (h : Remembers s σ) (split : Split) :
    ∃ (c : Consultation) (libraries : List String) (τ : Session), Plans s split c ∧
      (prepare s split).run σ = (outlook s split, τ) ∧
      τ.consulted = σ.consulted ++ (libraries.map .setUp ++ c.planning) := by
  obtain ⟨c, hc, hplanning⟩ := planning_plans s split
  obtain ⟨libraries, known, hrun, -⟩ := prepare_asks s split σ h
  rw [hplanning] at hrun
  -- To remember the rows of the table is no call.
  exact ⟨c, libraries, _, hc, hrun, σ.consulted_recordAll (isConsultation_of_planning libraries c)⟩

theorem consulted_wrapping (p : Prepared) (reader : Reader) (σ : Session) :
    (wrapping s split p reader σ).consulted = σ.consulted ++
      [.constructed (request s split p), .wrapped split.key (allocatorBelow s.context.allocator split.key)] := by
  have htaken : (taken (request s split p) reader σ).consulted = σ.consulted ++ [.constructed (request s split p)] :=
    σ.consulted_record (.constructed (request s split p))
  rw [wrapping, Session.consulted_record, htaken, List.append_assoc]
  rfl

theorem build_consults (h : Remembers s σ) (split : Split) :
    ∃ c, Consults s split c ∧ ((build s split).run σ).2.consulted = σ.consulted ++ c.calls := by
  obtain ⟨c, libraries, τ, hc, hrun, hplanned⟩ := prepare_consulted h split
  simp only [build, Act.run_bind, hrun]
  cases ho : outlook s split with
  | error e =>
    refine ⟨_, hc.consults libraries (.inl rfl), hplanned.trans ?_⟩
    simp [calls, planning, demand_of_error ho]
  | ok p =>
    have hdemand := demand_of_ok ho
    simp only [run_callConstructor]
    cases s.constructors (request s split p).strategy τ.constructions (request s split p) with
    | error cause =>
      refine ⟨_, hc.consults libraries (.inl rfl), ?_⟩
      dsimp only
      rw [Session.consulted_record, hplanned]
      simp [calls, planning, hdemand, Event.isConsultation]
    | ok reader =>
      have hwrapping : (wrapping s split p reader τ).consulted = _ := consulted_wrapping p reader τ
      rw [hplanned] at hwrapping
      simp only [run_wrap, reader_taken]
      refine ⟨_, hc.consults libraries (.inr ⟨by simp [hdemand], rfl⟩), ?_⟩
      cases s.composite.wrap split (allocatorBelow s.context.allocator split.key) reader with
      | ok widened =>
        refine hwrapping.trans ?_
        simp [calls, planning, hdemand]
      | error cause =>
        -- Closing the reader is no call to a collaborator.
        have hclosed (n : Nat) : ((wrapping s split p reader τ).record (.closed n)).consulted =
            (wrapping s split p reader τ).consulted := by
          rw [Session.consulted_record]
          exact List.append_nil _
        dsimp only
        rw [consulted_warnUnwrapped]
        refine (hclosed _).trans (hwrapping.trans ?_)
        simp [calls, planning, hdemand]

end Building

/-! ## Turns -/

/-- The scope runs all work, and once. -/
def Scope.RunsOnce (scope : Scope) : Prop := ∀ entries user, scope entries user = .runs 0

theorem Scope.current_runsOnce : Scope.current.RunsOnce := fun _ _ => rfl

/-- The answer is about a split that was attempted. -/
def Sequence.Next.isAttempt : Sequence.Next → Bool
  | .reader _ _ _ | .failed _ => true
  | _ => false

/-- How many splits were attempted, if the scan has any. -/
def attempts (log : Log) : Nat := (asked log).countP Sequence.Next.isAttempt

section Turns

variable {s : Scan} {split : Split} {σ : Session} {log : Log} {q q' : Sequence} {m : Move} {a : Answer}
  {turns : List Consultation}

theorem construct_consults (hscope : s.context.scope.RunsOnce) (h : Sound s σ) (split : Split) :
    ∃ c, Consults s split c ∧
      ((construct s split).run σ).2.consulted = σ.consulted ++ c.callsAs s.context.user := by
  obtain ⟨c, hc, hbuild⟩ := build_consults (h.record (e := .entered s.context.user) rfl).remembers split
  refine ⟨c, hc, ?_⟩
  rw [construct, run_asUser, hscope]
  dsimp only [repeated]
  rw [Session.consulted_record, hbuild, Session.consulted_record, List.append_assoc, List.append_assoc]
  rfl

/-- What was called so far: one consultation for each split that was attempted. -/
structure Turns (s : Scan) (log : Log) (q : Sequence) (turns : List Consultation) : Prop where
  consulted : q.session.consulted = turns.flatMap (callsAs s.context.user)
  splits : List.Forall₂ (Consults s) (s.part.splits.take turns.length) turns
  attempts : turns.length = attempts log
  reading : ∀ n, q.source = .splits n → turns.length = n
  planned : (∀ f, .failed f ∉ asked log) → ∀ split ∈ s.part.splits.take turns.length, ∃ p, outlook s split = .ok p

theorem attempts_append (log : Log) (m : Move) (a : Answer) :
    attempts (log ++ [(m, a)]) = attempts log + a.next?.toList.countP Sequence.Next.isAttempt := by
  rw [attempts, asked_append, List.countP_append, attempts]

theorem start_turns (hne : s.part.splits ≠ []) : Turns s [] (.start s) [] where
  consulted := rfl
  splits := .nil
  attempts := rfl
  reading n hn := ((start_inTurn hne).reading n hn).1
  planned _ split h := by cases h

/-- A move that attempts no split. -/
theorem Turns.aside (h : Turns s log q turns) (hc : q'.session.consulted = q.session.consulted)
    (ha : a.next?.toList.countP Sequence.Next.isAttempt = 0)
    (hs : q'.source = q.source ∨ q'.source = .finished) : Turns s (log ++ [(m, a)]) q' turns where
  consulted := hc.trans h.consulted
  splits := h.splits
  attempts := by rw [attempts_append, ha, h.attempts, Nat.add_zero]
  reading n hn := by
    rcases hs with hs | hs
    · exact h.reading n (hs ▸ hn)
    · cases hs.symm.trans hn
  planned hok := by
    refine h.planned fun f hf => hok f ?_
    rw [asked_append]
    exact List.mem_append_left _ hf

/-- A move that attempts the split whose turn it is. -/
theorem Turns.attempt (h : Turns s log q turns) (hr : Sound s q.session) (hscope : s.context.scope.RunsOnce)
    {n : Nat} (hs : q.source = .splits n) (hn : s.part.splits[n]? = some split)
    (hc : q'.session.consulted = ((construct s split).run q.session).2.consulted)
    (ha : a.next?.toList.countP Sequence.Next.isAttempt = 1)
    (hs' : q'.source = .splits (n + 1) ∨ q'.source = .finished)
    (hok : (∀ f, a.next? ≠ some (.failed f)) → ∃ p, outlook s split = .ok p) :
    ∃ turns', Turns s (log ++ [(m, a)]) q' turns' := by
  obtain ⟨c, hconsults, hcalls⟩ := construct_consults hscope hr split
  have hlen := h.reading n hs
  have htake : s.part.splits.take (turns ++ [c]).length = s.part.splits.take turns.length ++ [split] := by
    rw [List.length_append, List.length_singleton, List.take_add_one, hlen, hn]
    rfl
  refine ⟨turns ++ [c], ?_, ?_, ?_, ?_, ?_⟩
  · rw [hc, hcalls, h.consulted, List.flatMap_append, List.flatMap_singleton]
  · rw [htake]
    exact List.rel_append h.splits (.cons hconsults .nil)
  · rw [attempts_append, ha, ← h.attempts, List.length_append, List.length_singleton]
  · intro k hk
    rcases hs' with hs' | hs'
    · cases hs'.symm.trans hk
      rw [List.length_append, hlen, List.length_singleton]
    · cases hs'.symm.trans hk
  · intro hfailed
    rw [asked_append] at hfailed
    rw [htake]
    intro other hother
    rcases List.mem_append.mp hother with hother | hother
    · exact h.planned (fun f hf => hfailed f (List.mem_append_left _ hf)) other hother
    · obtain rfl := List.mem_singleton.mp hother
      exact hok fun f hf => hfailed f (List.mem_append_right _ (Option.mem_toList.mpr hf))

theorem Moved.keepsTurns (hm : Moved s q m a q') (h : Turns s log q turns) (hr : Sound s q.session)
    (hi : InTurn s (asked log) q) (hscope : s.context.scope.RunsOnce) :
    ∃ turns', Turns s (log ++ [(m, a)]) q' turns' := by
  have hquiet := hm.idle hi
  cases hm with
  | gone _ hmoves =>
    refine ⟨turns, h.aside rfl ?_ (.inl rfl)⟩
    simp only [List.mem_cons, Prod.mk.injEq, List.not_mem_nil, or_false] at hmoves
    rcases hmoves with ⟨-, rfl⟩ | ⟨-, rfl⟩ | ⟨-, rfl⟩ <;> rfl
  | unheld _ _ | exhausted _ _ | refused _ _ | closedBefore _ _ | gaveUp _ => exact ⟨turns, h.aside rfl rfl (.inl rfl)⟩
  | ranOut _ _ _ => exact ⟨turns, h.aside rfl rfl (.inr rfl)⟩
  | nothingToRead _ hs => exact absurd hs hi.nonblank
  | pulled _ _ | closed _ _ => exact ⟨turns, h.aside (hquiet (.inl (by simp))) rfl (.inl rfl)⟩
  | closedAll _ | dropped _ => exact ⟨turns, h.aside (hquiet (.inl (by simp))) rfl (.inr rfl)⟩
  | yielded _ hs hn hc =>
    refine h.attempt hr hscope hs hn (by rw [hc]) rfl (.inl rfl) fun _ => ?_
    obtain ⟨r, hdemanded⟩ := List.exists_mem_of_ne_nil _ (demanded_ne_nil hr hc)
    obtain ⟨p, ho, -⟩ := mem_demanded hdemanded
    exact ⟨p, ho⟩
  | failed _ hs hn hc =>
    refine h.attempt hr hscope hs hn ?_ rfl (.inr rfl) fun hno => absurd rfl (hno _)
    rw [hc]
    exact Session.consulted_closeEach ..

theorem play_turns (hne : s.part.splits ≠ []) (hscope : s.context.scope.RunsOnce) (moves : List Move) :
    ∃ turns, Turns s (play s moves).1 (play s moves).2 turns := by
  have kept := play_keeps (s := s)
    (I := fun log q => Reached s q.session ∧ InTurn s (asked log) q ∧ ∃ turns, Turns s log q turns)
    ⟨.start, start_inTurn hne, [], start_turns hne⟩
    (by
      rintro log q m ⟨hr, hi, turns, ht⟩
      have hm := move_cases s q m
      exact ⟨hm.reached hr, asked_append log m _ ▸ hm.inTurn hi, hm.keepsTurns ht hr.sound hi hscope⟩)
    moves
  exact kept.2.2

end Turns

/-! ## Calls counted -/

/-- How often deltas were listed. -/
def Session.probes (σ : Session) : Nat := σ.count fun | .listed _ _ => true | _ => false

/-- The calls of a scan with a plan for every split. -/
structure Totals (s : Scan) (ps : List Prepared) (σ : Session) : Prop where
  entries : σ.entries = s.part.splits.length
  probes : σ.probes = if s.isTransactional then s.part.splits.length else 0
  resolutions : σ.resolutions = s.part.splits.length + ps.countP (·.plan.partitionResolved)
  constructions : σ.constructions = s.part.splits.length

section Totals

variable {s : Scan} {split : Split} {σ : Session} {turns : List Consultation}

/-- Calls to collaborators are counted turn by turn. -/
theorem count_turns {user : String} (h : σ.consulted = turns.flatMap (callsAs user)) {p : Event → Bool}
    (hp : ∀ n, p (.pulled n) = false ∧ p (.closed n) = false) {f : Consultation → Nat}
    (hf : ∀ c : Consultation, (c.callsAs user).countP p = f c) : σ.count p = (turns.map f).sum := by
  have hconsulted : σ.count p = σ.consulted.countP p := by
    rw [Session.consulted, List.countP_filter, Session.count]
    refine List.countP_congr fun e _ => ?_
    cases e <;> simp [Event.isConsultation, hp]
  rw [hconsulted, h, List.countP_flatMap]
  exact congrArg List.sum (List.map_congr_left fun c _ => hf c)

theorem Consultation.Consults.tally {c : Consultation} {p : Prepared} (h : Consults s split c)
    (ho : outlook s split = .ok p) :
    c.listings.length = (if s.isTransactional then 1 else 0) ∧
      c.resolutions.length = 1 + (if p.plan.partitionResolved then 1 else 0) ∧ c.requests.length = 1 := by
  obtain ⟨v, tableStrategy, strategy, hv, ht, -, rfl⟩ := outlook_prepared ho
  have hready : Ready s split v.details := ready_iff.mpr ⟨v, hv, rfl⟩
  refine ⟨?_, ?_, by rw [h.requests, demand_of_ok ho]; rfl⟩
  · by_cases htransactional : s.isTransactional = true
    · obtain ⟨hd, hl, hdeltas⟩ := hready
      obtain ⟨range, _, hrange, -⟩ := hdeltas htransactional
      rw [h.listed range ⟨_, hd, hl, htransactional, hrange⟩, if_pos htransactional]
      rfl
    · rw [h.unlisted fun range ⟨_, _, _, ht, _⟩ => htransactional ht, if_neg htransactional]
      rfl
  · have hagain : ResolvesAgain s v.details ↔ v.again s = true := by
      rw [hv.resolvesAgain]
      exact ⟨And.right, fun ha => ⟨⟨_, ht⟩, ha⟩⟩
    change c.resolutions.length = 1 + if v.again s = true then 1 else 0
    by_cases ha : v.again s = true
    · rw [h.resolvedTwice _ hready (hagain.mpr ha), if_pos ha]
      rfl
    · rw [h.resolvedOnce _ hready fun hr => ha (hagain.mp hr), if_neg ha]
      rfl

theorem sums {splits : List Split} (h : List.Forall₂ (Consults s) splits turns) :
    ∀ {ps : List Prepared}, Foreseen s splits ps →
      (turns.map (·.listings.length)).sum = (if s.isTransactional then splits.length else 0) ∧
      (turns.map (·.resolutions.length)).sum = splits.length + ps.countP (·.plan.partitionResolved) ∧
      (turns.map (·.requests.length)).sum = splits.length := by
  induction h with
  | nil =>
    intro ps hps
    cases hps
    simp
  | cons hc _ ih =>
    intro ps hps
    cases hps with
    | cons ho hps =>
      obtain ⟨hlistings, hresolutions, hrequests⟩ := hc.tally ho
      obtain ⟨ihlistings, ihresolutions, ihrequests⟩ := ih hps
      simp only [List.map_cons, List.sum_cons, List.length_cons, List.countP_cons, hlistings, hresolutions,
        hrequests, ihlistings, ihresolutions, ihrequests]
      refine ⟨?_, by omega, by omega⟩
      split <;> omega

theorem totals (h : σ.consulted = turns.flatMap (callsAs s.context.user))
    (hc : List.Forall₂ (Consults s) s.part.splits turns) {ps : List Prepared} (hps : Foreseen s s.part.splits ps) :
    Totals s ps σ := by
  obtain ⟨hlistings, hresolutions, hrequests⟩ := sums hc hps
  refine ⟨?_, ?_, ?_, ?_⟩
  · have hentries : σ.entries = (turns.map fun _ => 1).sum :=
      count_turns h (fun _ => ⟨rfl, rfl⟩) fun c => by
        simp [callsAs, calls, planning, Function.comp_def]
    rw [hentries, List.map_const', List.sum_replicate_nat, Nat.mul_one, hc.length_eq]
  · rw [← hlistings]
    exact count_turns h (fun _ => ⟨rfl, rfl⟩) fun c => by
      simp [callsAs, calls, planning, Function.comp_def]
  · rw [← hresolutions]
    exact count_turns h (fun _ => ⟨rfl, rfl⟩) fun c => by
      simp [callsAs, calls, planning, Function.comp_def]
  · rw [← hrequests]
    exact count_turns h (fun _ => ⟨rfl, rfl⟩) fun c => by
      simp [callsAs, calls, planning, Function.comp_def]

end Totals

/-! ## Whole runs -/

theorem foreseen_of_all {s : Scan} {splits : List Split} (h : ∀ split ∈ splits, ∃ p, outlook s split = .ok p) :
    ∃ ps, Foreseen s splits ps := by
  rcases foreseen_or_not s splits with hps | ⟨i, split, e, -, hi, he, -⟩
  · exact hps
  · obtain ⟨p, hp⟩ := h split (List.mem_of_getElem? hi)
    cases he.symm.trans hp

/-- Collaborators are called turn by turn, each turn as the user of the scan. -/
theorem consulted_in_turn (s : Scan) (hscope : s.context.scope.RunsOnce) (moves : List Move) :
    ∃ turns : List Consultation,
      (play s moves).2.session.consulted = turns.flatMap (callsAs s.context.user) ∧
      List.Forall₂ (Consults s) (s.part.splits.take turns.length) turns ∧
      (s.part.splits ≠ [] → turns.length = attempts (play s moves).1) ∧
      (turns.length = s.part.splits.length → (∀ f, .failed f ∉ asked (play s moves).1) →
        ∃ ps, Foreseen s s.part.splits ps ∧ Totals s ps (play s moves).2.session) := by
  by_cases hne : s.part.splits = []
  · have hsilent : (play s moves).2.session.consulted = ([] : List Consultation).flatMap (callsAs s.context.user) := by
      rw [Session.consulted, (play_blank hne moves).silent]
      rfl
    have hnone : List.Forall₂ (Consults s) s.part.splits [] := by
      rw [hne]
      exact .nil
    have hunforeseen : Foreseen s s.part.splits [] := by
      rw [hne]
      exact .nil
    exact ⟨[], hsilent, .nil, fun h => absurd hne h, fun _ _ => ⟨[], hunforeseen, totals hsilent hnone hunforeseen⟩⟩
  · obtain ⟨turns, ht⟩ := play_turns hne hscope moves
    refine ⟨turns, ht.consulted, ht.splits, fun _ => ht.attempts, ?_⟩
    intro hlen hok
    have hsplits := ht.splits
    have hplanned := ht.planned hok
    rw [hlen, List.take_length] at hsplits hplanned
    obtain ⟨ps, hps⟩ := foreseen_of_all hplanned
    exact ⟨ps, hps, totals ht.consulted hsplits hps⟩

/-- Its one split drifted, so that the strategy is resolved twice. -/
def driftingRun : Scan := { driftingScan with part := ⟨[driftingSplit], ["a"], none⟩ }

theorem driftingRun_consulted : driftingRun.context.scope.RunsOnce ∧
    ∃ turns : List Consultation, turns.length = 1 ∧
      (play driftingRun [.next, .next]).2.session.consulted = turns.flatMap (callsAs "reader") ∧
      List.Forall₂ (Consults driftingRun) [driftingSplit] turns ∧
      ∃ ps, Foreseen driftingRun [driftingSplit] ps ∧
        Totals driftingRun ps (play driftingRun [.next, .next]).2.session := by
  have hscope : driftingRun.context.scope.RunsOnce := Scope.current_runsOnce
  obtain ⟨turns, hcalls, hsplits, hattempts, htotals⟩ := consulted_in_turn driftingRun hscope [.next, .next]
  have hone : attempts (play driftingRun [.next, .next]).1 = 1 := by decide +kernel
  have hlen : turns.length = 1 := (hattempts (by simp [driftingRun])).trans hone
  have hok : ∀ f, .failed f ∉ asked (play driftingRun [.next, .next]).1 := by
    have hall : (asked (play driftingRun [.next, .next]).1).all (fun
        | .failed _ => false
        | .gone | .exhausted | .reader _ _ _ => true) = true := by
      decide +kernel
    intro f hf
    cases List.all_eq_true.mp hall _ hf
  rw [hlen] at hsplits
  exact ⟨hscope, turns, hlen, hcalls, hsplits, htotals hlen hok⟩

end TableScan.Scan
