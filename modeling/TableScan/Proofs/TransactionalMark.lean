/-
  TableScan.Proofs.TransactionalMark — a table that is marked as transactional has its deltas listed
  before any reader of it is constructed, unless the engine's settings hide the mark.

  Settings are merged before the mark is looked up, and the spelling in small letters is preferred
  there, from whichever layer it comes. So a table that spells its mark in capitals is taken for
  another one where the engine has a word of its own in small letters (`Hidden`); in every other
  case the mark is seen.

  - `Chronicle`: how the events of a scan come about, whatever is planned, constructed and pulled, and
    however often the scope repeats its work (`Reached.chronicle`).
  - `Covered`: deltas were listed before any call to a constructor.
  - `marked_unless_hidden`: the mark is seen unless it is hidden. If it is seen all is covered; if it is
    hidden no deltas are ever listed.
-/

import TableScan.Proofs.Layers

namespace TableScan.Scan

/-! ## How events come about -/

/-- The event is neither a call that planning makes of the lister or the resolver, nor one to a constructor. -/
def Event.isAside : Event → Bool
  | .listed _ _ | .resolved _ | .constructed _ => false
  | _ => true

/-- Events of a scan, in order. A constructor is called right after its split was planned. -/
inductive Chronicle (s : Scan) : List Event → Prop
  | nil : Chronicle s []
  | aside {events : List Event} {e : Event} : Chronicle s events → e.isAside = true → Chronicle s (events ++ [e])
  | planned {events : List Event} (split : Split) : Chronicle s events →
      Chronicle s (events ++ planningCalls s split)
  | constructed {events : List Event} {split : Split} {p : Prepared} : Chronicle s events →
      outlook s split = .ok p →
      Chronicle s (events ++ planningCalls s split ++ [.constructed (request s split p)])

section Chronicle

variable {s : Scan} {σ : Session} {events : List Event}

theorem Chronicle.asides (h : Chronicle s events) {more : List Event} (hmore : ∀ e ∈ more, e.isAside = true) :
    Chronicle s (events ++ more) := by
  induction more generalizing events with
  | nil => rwa [List.append_nil]
  | cons e rest ih =>
    have he := h.aside (hmore e (List.mem_cons_self ..))
    have hrest := ih he fun e' he' => hmore e' (List.mem_cons_of_mem e he')
    rwa [List.append_assoc] at hrest

theorem Chronicle.libraries (h : Chronicle s events) (libraries : List String) :
    Chronicle s (events ++ libraries.map .setUp) := by
  refine h.asides ?_
  intro e he
  obtain ⟨library, -, rfl⟩ := List.mem_map.mp he
  rfl

theorem prepare_events (hσ : Remembers s σ) (h : Chronicle s σ.events) (split : Split) :
    ∃ (events : List Event) (τ : Session), Chronicle s events ∧ (prepare s split).run σ = (outlook s split, τ) ∧
      τ.events = events ++ planningCalls s split := by
  obtain ⟨libraries, known, hrun, -⟩ := prepare_asks s split σ hσ
  exact ⟨_, _, h.libraries libraries, hrun, (List.append_assoc ..).symm⟩

theorem plan_chronicle (hσ : Remembers s σ) (h : Chronicle s σ.events) (split : Split) :
    Chronicle s ((plan s split).run σ).2.events := by
  obtain ⟨events, τ, hevents, hrun, hτ⟩ := prepare_events hσ h split
  have hplanned : Chronicle s τ.events := hτ ▸ hevents.planned split
  rw [plan, Act.run_bind, hrun]
  cases outlook s split with
  | ok p => exact hplanned
  | error e => exact hplanned

theorem build_chronicle (hσ : Remembers s σ) (h : Chronicle s σ.events) (split : Split) :
    Chronicle s ((build s split).run σ).2.events := by
  obtain ⟨events, τ, hevents, hrun, hτ⟩ := prepare_events hσ h split
  simp only [build, Act.run_bind, hrun]
  cases ho : outlook s split with
  | error e => exact hτ ▸ hevents.planned split
  | ok p =>
    have hcalled : Chronicle s (τ.events ++ [.constructed (request s split p)]) := hτ ▸ hevents.constructed ho
    simp only [run_callConstructor]
    cases s.constructors (request s split p).strategy τ.constructions (request s split p) with
    | error cause => exact hcalled
    | ok reader =>
      have hwrapping : Chronicle s (wrapping s split p reader τ).events := hcalled.aside rfl
      simp only [run_wrap, reader_taken]
      cases s.composite.wrap split (allocatorBelow s.context.allocator split.key) reader with
      | ok widened => exact hwrapping
      | error cause =>
        -- A warning is no event.
        have hclosed := hwrapping.aside (e := .closed τ.built.length) rfl
        cases reader.closeFault <;> exact hclosed

theorem construct_chronicle (hσ : Sound s σ) (h : Chronicle s σ.events) (split : Split) :
    Chronicle s ((construct s split).run σ).2.events := by
  rw [construct, run_asUser]
  have hentered : Chronicle s (σ.record (.entered s.context.user)).events := h.aside rfl
  cases s.context.scope σ.entries s.context.user with
  | refuses cause => exact hentered.aside rfl
  | runs again =>
    have hbuild : ∀ τ, Sound s τ ∧ Chronicle s τ.events →
        Sound s ((build s split).run τ).2 ∧ Chronicle s ((build s split).run τ).2.events := by
      rintro τ ⟨hτ, hc⟩
      exact ⟨(build_cases hτ.remembers split).sound hτ, build_chronicle hτ.remembers hc split⟩
    have hends := run_repeated_ends (P := fun _ τ => Sound s τ ∧ Chronicle s τ.events) hbuild hbuild again
      (σ.record (.entered s.context.user)) ⟨hσ.record rfl, hentered⟩
    exact hends.2.aside rfl

theorem Reached.chronicle (h : Reached s σ) : Chronicle s σ.events := by
  induction h with
  | start => exact .nil
  | planned split hr ih => exact plan_chronicle hr.sound.remembers ih split
  | constructed split hr ih => exact construct_chronicle hr.sound ih split
  | pulled reader _ ih => exact ih.aside rfl
  | closed reader _ ih => exact ih.aside rfl
  | warned text _ ih => exact ih

end Chronicle

/-! ## Deltas listed first -/

/-- Before any call to a constructor the deltas of its split were listed. -/
def Covered (events : List Event) : Prop :=
  ∀ (earlier later : List Event) (r : Request), events = earlier ++ .constructed r :: later →
    ∃ range found, r.details.storage.transactional? = some range ∧
      .listed (Delta.root range) (some found) ∈ earlier

theorem Covered.snoc {events : List Event} {e : Event} (h : Covered events)
    (he : ∀ r, e = .constructed r → ∃ range found, r.details.storage.transactional? = some range ∧
      .listed (Delta.root range) (some found) ∈ events) : Covered (events ++ [e]) := by
  intro earlier later r hsplit
  rcases List.eq_nil_or_concat later with rfl | ⟨front, last, rfl⟩
  · obtain ⟨rfl, hlast⟩ := List.append_inj' hsplit rfl
    exact he r (List.cons.inj hlast).1
  · rw [List.concat_eq_append, ← List.cons_append, ← List.append_assoc] at hsplit
    exact h earlier front r (List.append_inj' hsplit rfl).1

theorem Covered.append {events : List Event} (h : Covered events) {more : List Event}
    (hmore : ∀ r, .constructed r ∉ more) : Covered (events ++ more) := by
  induction more generalizing events with
  | nil => rwa [List.append_nil]
  | cons e rest ih =>
    have he := h.snoc (e := e) fun r hr => absurd (hr ▸ List.mem_cons_self ..) (hmore r)
    have hrest := ih he fun r hr => hmore r (List.mem_cons_of_mem e hr)
    rwa [List.append_assoc] at hrest

section Listings

variable {s : Scan} {split : Split} {p : Prepared} {events : List Event}

theorem constructed_not_planning (r : Request) : .constructed r ∉ planningCalls s split :=
  fun h => absurd (isPlanning_of_mem h) Bool.false_ne_true

/-- If the mark is seen, a split has an outlook only once its deltas are listed. -/
theorem listed_of_outlook (hs : s.isTransactional = true) (ho : outlook s split = .ok p) :
    ∃ range found, p.details.storage.transactional? = some range ∧
      .listed (Delta.root range) (some found) ∈ planningCalls s split := by
  obtain ⟨v, tableStrategy, strategy, hv, -, -, rfl⟩ := outlook_prepared ho
  have hpending := hv.pending
  rw [pendingOf, if_pos hs] at hpending
  simp only [bind_eq_ok, orFault_eq_ok, orCause_eq_ok] at hpending
  obtain ⟨range, hrange, found, hfound, -⟩ := hpending
  refine ⟨range, found, hrange, ?_⟩
  simp only [planningCalls, mem_onOk, List.mem_append]
  refine ⟨v.details, orFault_eq_ok.mpr hv.details, v.tableRows, hv.tableRows, _, hv.partition, .inl ?_⟩
  simp [listings, hs, hrange, hfound, Except.toOption]

theorem Chronicle.covered (hs : s.isTransactional = true) (h : Chronicle s events) : Covered events := by
  induction h with
  | nil => exact fun earlier later r h => by simp at h
  | aside _ he ih =>
    refine ih.snoc ?_
    rintro r rfl
    cases he
  | planned split _ ih => exact ih.append constructed_not_planning
  | constructed _ ho ih =>
    refine (ih.append constructed_not_planning).snoc ?_
    intro r hr
    obtain ⟨range, found, hrange, hmem⟩ := listed_of_outlook hs ho
    cases hr
    exact ⟨range, found, hrange, List.mem_append_right _ hmem⟩

/-- If the mark is not seen, nobody is asked for deltas. -/
theorem Chronicle.unlisted (hs : s.isTransactional = false) (h : Chronicle s events) (root : String)
    (found : Option (List String)) : .listed root found ∉ events := by
  have hplanning (split : Split) : .listed root found ∉ planningCalls s split := by
    intro hmem
    simp only [planningCalls, mem_onOk, List.mem_append] at hmem
    obtain ⟨d, -, rows, -, view, -, hmem | ⟨pending, -, hmem⟩⟩ := hmem
    · simp [listings, hs] at hmem
    · rw [Survey.resolutions, List.mem_cons, mem_onOk] at hmem
      rcases hmem with hmem | ⟨strategy, -, hmem⟩
      · cases hmem
      · split at hmem <;> simp at hmem
  induction h with
  | nil => exact List.not_mem_nil
  | aside _ he ih =>
    intro hmem
    rcases List.mem_append.mp hmem with hmem | hmem
    · exact ih hmem
    · cases List.mem_singleton.mp hmem
      cases he
  | planned split _ ih => exact fun hmem => (List.mem_append.mp hmem).elim ih (hplanning split)
  | constructed _ _ ih =>
    intro hmem
    rcases List.mem_append.mp hmem with hmem | hmem
    · exact (List.mem_append.mp hmem).elim ih (hplanning _)
    · cases List.mem_singleton.mp hmem

end Listings

/-! ## The mark -/

/-- The table has its mark in capitals only, and the engine has another word in small letters. -/
def Hidden (s : Scan) : Prop :=
  s.table.properties.get? Properties.transactionalKey = none ∧
    ∃ word, s.settings.get? Properties.transactionalKey = some word ∧ ¬ Text.sameIgnoringCase word "true" = true

theorem isTransactional_iff {s : Scan} (h : s.table.properties.marksTransactional = true) :
    s.isTransactional = true ↔ ¬ Hidden s := by
  unfold isTransactional Properties.marksTransactional
  unfold Properties.marksTransactional at h
  rw [get?_baseSettings, get?_baseSettings]
  cases hown : s.table.properties.get? Properties.transactionalKey with
  | some word =>
    -- The word of the table is found first, as it is without the engine's settings.
    rw [hown, Option.some_or] at h
    rw [Option.some_or, Option.some_or]
    exact ⟨fun _ hidden => absurd (hown.symm.trans hidden.1) (by simp), fun _ => h⟩
  | none =>
    rw [hown, Option.none_or] at h
    rw [Option.none_or]
    cases hengine : s.settings.get? Properties.transactionalKey with
    | some word =>
      rw [Option.some_or]
      constructor
      · rintro hword ⟨-, other, hother, hno⟩
        obtain rfl := Option.some.inj (hengine.symm.trans hother)
        exact hno hword
      · intro hseen
        exact Decidable.byContradiction fun hno => hseen ⟨hown, word, hengine, hno⟩
    | none =>
      cases hcapitals : s.table.properties.get? "TRANSACTIONAL" with
      | none =>
        rw [hcapitals] at h
        cases h
      | some word =>
        rw [hcapitals] at h
        rw [Option.none_or, Option.some_or]
        refine ⟨fun _ hidden => ?_, fun _ => h⟩
        obtain ⟨-, other, hother, -⟩ := hidden
        cases hengine.symm.trans hother

/-- A mark of the table is seen unless it is hidden. If it is seen, no constructor is called before the deltas
of its split were listed; if it is hidden, none are listed at all. -/
theorem marked_unless_hidden (s : Scan) (h : s.table.properties.marksTransactional = true) :
    (s.isTransactional = true ↔ ¬ Hidden s) ∧
    (¬ Hidden s → ∀ σ, Reached s σ → Covered σ.events) ∧
    (Hidden s → ∀ σ, Reached s σ → ∀ root found, .listed root found ∉ σ.events) := by
  refine ⟨isTransactional_iff h, ?_, ?_⟩
  · intro hseen σ hσ
    exact hσ.chronicle.covered ((isTransactional_iff h).mpr hseen)
  · intro hidden σ hσ root found
    have hunseen : s.isTransactional = false :=
      eq_false_of_ne_true fun hs => (isTransactional_iff h).mp hs hidden
    exact hσ.chronicle.unlisted hunseen root found

/-- A table with its mark in capitals, where the engine has this word in small letters. -/
def capitalsScan (word : String) : Scan :=
  { driftingScan with
    table := { driftingTable with
      properties := Dict.ofList
        [(Layout.columnsKey, "a"), (Layout.columnTypesKey, "int"), ("TRANSACTIONAL", "true")] }
    settings := Dict.ofList [(Properties.transactionalKey, word)] }

theorem capitalsScan_seen_or_hidden :
    (capitalsScan "True").table.properties.marksTransactional = true ∧
    (capitalsScan "False").table.properties.marksTransactional = true ∧
    (∀ σ, Reached (capitalsScan "True") σ → Covered σ.events) ∧
    ∀ σ, Reached (capitalsScan "False") σ → ∀ root found, .listed root found ∉ σ.events := by
  have hseen : (capitalsScan "True").table.properties.marksTransactional = true := by decide +kernel
  have hhidden : (capitalsScan "False").table.properties.marksTransactional = true := by decide +kernel
  have hmark : (capitalsScan "True").isTransactional = true := by decide +kernel
  have hnone : (capitalsScan "False").table.properties.get? Properties.transactionalKey = none := by decide +kernel
  have hword : (capitalsScan "False").settings.get? Properties.transactionalKey = some "False" := by decide +kernel
  obtain ⟨hiff, hcovered, -⟩ := marked_unless_hidden (capitalsScan "True") hseen
  obtain ⟨-, -, hunlisted⟩ := marked_unless_hidden (capitalsScan "False") hhidden
  exact ⟨hseen, hhidden, hcovered (hiff.mp hmark), hunlisted ⟨hnone, "False", hword, by decide +kernel⟩⟩

theorem capitalsScan_not_transactional :
    ¬ ∀ s : Scan, s.table.properties.marksTransactional = true → s.isTransactional = true := by
  intro h
  have hmarked : (capitalsScan "false").table.properties.marksTransactional = true := by decide +kernel
  have hunseen : (capitalsScan "false").isTransactional = false := by decide +kernel
  cases hunseen.symm.trans (h _ hmarked)

end TableScan.Scan
