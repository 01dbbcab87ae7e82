/-
  TableScan.Proofs.Preparation — what is worked out about a split is a function of the scan and
  the split. `prepare` keeps a session, with the row format of the table remembered from the
  first split that derived it; `outlook` says the same without one.

  - `Makes`: an act that does nothing but make calls, told with the calls. All of planning is
    such, but for what is remembered.
  - `Remembers`: what a session remembers is what would be derived again. It holds of every
    session that a scan reaches (`Reached.sound`).
  - `prepare_asks`: from such a session, `prepare` answers `outlook`. It sets up libraries, and
    then calls the lister and the resolver as `planningCalls` says.
  - `prepare_settles`: it does nothing but planning (`Planned`): it builds no reader and calls none.
-/

import TableScan.Scan.Construction

namespace TableScan.Scan

variable {α β ε : Type}

/-! ## Runs of acts -/

namespace Act

@[simp] theorem run_pure (a : α) (σ : Session) : (pure a : Act α).run σ = (.ok a, σ) := rfl

@[simp] theorem run_record (e : Event) (σ : Session) : (record e).run σ = (.ok (), σ.record e) := rfl

@[simp] theorem run_get (σ : Session) : (get : Act Session).run σ = (.ok σ, σ) := rfl

@[simp] theorem run_modify (f : Session → Session) (σ : Session) :
    (modify f : Act Unit).run σ = (.ok (), f σ) := rfl

@[simp] theorem run_modifyGet (f : Session → α × Session) (σ : Session) :
    (modifyGet f : Act α).run σ = (.ok (f σ).1, (f σ).2) := rfl

/-- A sequence of acts ends with the first fault. -/
theorem run_bind (a : Act α) (f : α → Act β) (σ : Session) :
    (a >>= f).run σ = match a.run σ with
      | (.ok v, τ) => (f v).run τ
      | (.error e, τ) => (.error e, τ) := by
  unfold ExceptT.run
  simp only [bind, ExceptT.bind, ExceptT.mk, StateT.bind]
  rcases a σ with ⟨r, τ⟩
  cases r <;> rfl

theorem run_discard (a : Act α) (σ : Session) :
    (discard a).run σ = match a.run σ with
      | (.ok _, τ) => (.ok (), τ)
      | (.error e, τ) => (.error e, τ) := by
  unfold ExceptT.run
  simp only [discard, Functor.mapConst, Function.comp, ExceptT.map, ExceptT.mk, bind, StateT.bind]
  rcases a σ with ⟨r, τ⟩
  cases r <;> rfl

theorem run_tryCatch (a : Act α) (f : SplitFault → Act α) (σ : Session) :
    (tryCatch a f).run σ = match a.run σ with
      | (.ok v, τ) => (.ok v, τ)
      | (.error e, τ) => (f e).run τ := by
  unfold ExceptT.run
  simp only [tryCatch, tryCatchThe, MonadExceptOf.tryCatch, ExceptT.tryCatch, ExceptT.mk, bind,
    StateT.bind]
  rcases a σ with ⟨r, τ⟩
  cases r <;> rfl

end Act

/-! ## The same without a session -/

def orFault (fault : ConstructionFault) : Option α → Except SplitFault α
  | some a => .ok a
  | none => .error (.construction fault)

def orCause (fault : ε → ConstructionFault) : Except ε α → Except SplitFault α
  | .ok a => .ok a
  | .error e => .error (.construction (fault e))

/-- The row format that a library derives from properties. -/
def rowsOf (s : Scan) (partition : Option PartitionId) (settings : Properties)
    (library : Option String) (properties : Properties) : Except SplitFault RowFormat := do
  let library ← orFault (.missingLibrary partition) library
  let handle ← orCause (.serde partition) (s.serdes settings library properties)
  let layout ← orCause (.layout library partition) handle.layout
  return ⟨handle, layout⟩

def tableRowsOf (s : Scan) : Except SplitFault RowFormat :=
  rowsOf s none s.baseSettings s.table.library s.table.properties

def partitionOf (s : Scan) (details : SplitDetails) :
    Except SplitFault (Properties × Option PartitionView) :=
  if s.table.isPartitioned then do
    let id ← orFault .missingPartition details.partition
    let _ ← orFault (.unknownPartition id) (s.table.partition? id)
    let properties := s.table.partitionProperties id
    let settings := s.baseSettings.overlay properties
    let rows ← rowsOf s (some id) settings (s.table.partitionLibrary? id) properties
    return (settings, some ⟨id, rows⟩)
  else return (s.baseSettings, none)

def pendingOf (s : Scan) (storage : Storage) : Except SplitFault Bool :=
  if s.isTransactional then do
    let range ← orFault (.notTransactional storage.path) storage.transactional?
    return !(← orCause .deltas (s.deltas (Delta.root range) range)).isEmpty
  else return false

/-- All that is known of a split before a strategy is resolved for it. -/
structure Survey where
  details : SplitDetails
  tableRows : RowFormat
  /-- The settings, before the input format is recorded in them. -/
  layered : Properties
  partition : Option PartitionView
  pending : Bool

def survey (s : Scan) (split : Split) : Except SplitFault Survey := do
  let details ← orFault .undecodablePayload split.details?
  let tableRows ← tableRowsOf s
  let (layered, partition) ← partitionOf s details
  let pending ← pendingOf s details.storage
  return ⟨details, tableRows, layered, partition, pending⟩

namespace Survey

variable (s : Scan) (v : Survey)

def format : Option String :=
  match v.partition with
  | some p => s.table.partitionFormat? p.id
  | none => s.table.format

def settings : Properties :=
  match v.format s with
  | some f => v.layered.withInputFormat f
  | none => v.layered

def drifted : Bool := v.partition.any fun p => p.rows.layout.driftsFrom v.tableRows.layout

/-- The strategy is resolved for the partition too. -/
def again : Bool :=
  v.partition.isSome
    && (v.format s != s.table.format || v.drifted || (s.isTransactional && v.pending))

def tableStrategy : Except NativeLibrary.NotLoaded Strategy :=
  s.resolver.resolve
    ⟨s.table.format, s.context.vectorize, false, s.isTransactional, v.pending, s.baseSettings⟩

def partitionStrategy : Except NativeLibrary.NotLoaded Strategy :=
  s.resolver.resolve
    ⟨v.format s, s.context.vectorize, v.drifted, s.isTransactional, v.pending, v.settings s⟩

def prepared (split : Split) (tableStrategy strategy : Strategy) : Prepared where
  details := v.details
  settings := v.settings s
  tableRows := v.tableRows
  partitionRows := v.partition.map (·.rows)
  plan := ⟨split.key, v.partition.map (·.id), v.format s, tableStrategy, strategy, v.again s,
    v.drifted, s.isTransactional, v.pending⟩

/-- The strategies for the table and for the split, and what follows from them. -/
def decide (split : Split) : Except NativeLibrary.NotLoaded Prepared := do
  let tableStrategy ← v.tableStrategy s
  let strategy ← if v.again s then v.partitionStrategy s else pure tableStrategy
  return v.prepared s split tableStrategy strategy

end Survey

/-- What is worked out about a split, or why it cannot be. -/
def outlook (s : Scan) (split : Split) : Except SplitFault Prepared := do
  (← survey s split).decide s split |>.mapError .capability

/-! ## Acts that only make calls -/

/-- The session after these calls. -/
def Session.recordAll (calls : List Event) (σ : Session) : Session := { σ with events := σ.events ++ calls }

theorem Session.recordAll_nil (σ : Session) : σ.recordAll [] = σ := by
  rw [recordAll, List.append_nil]

theorem Session.recordAll_append (σ : Session) (calls more : List Event) :
    σ.recordAll (calls ++ more) = (σ.recordAll calls).recordAll more := by
  rw [recordAll, recordAll, recordAll, List.append_assoc]

/-- The calls that follow a success. -/
def onOk (x : Except ε α) (calls : α → List Event) : List Event :=
  match x with
  | .ok a => calls a
  | .error _ => []

@[simp] theorem onOk_nil (x : Except ε α) : onOk x (fun _ => []) = [] := by
  cases x <;> rfl

theorem mem_onOk {x : Except ε α} {calls : α → List Event} {e : Event} :
    e ∈ onOk x calls ↔ ∃ a, x = .ok a ∧ e ∈ calls a := by
  cases x with
  | error _ => exact ⟨nofun, nofun⟩
  | ok a => exact ⟨fun h => ⟨a, rfl, h⟩, fun ⟨_, ha, he⟩ => Except.ok.inj ha ▸ he⟩

/-- In every session the act answers `r` and makes these calls, and it changes nothing else. -/
def Makes (a : Act α) (r : Except SplitFault α) (calls : List Event) : Prop :=
  ∀ σ, a.run σ = (r, σ.recordAll calls)

section Makes

variable {s : Scan}

theorem makes_pure (a : α) : Makes (pure a) (.ok a) [] := by
  intro σ
  rw [Session.recordAll_nil]
  rfl

theorem makes_throw (e : SplitFault) : Makes (throw e : Act α) (.error e) [] := by
  intro σ
  rw [Session.recordAll_nil]
  rfl

theorem makes_record (e : Event) : Makes (Act.record e) (.ok ()) [e] := fun _ => rfl

theorem makes_need (f : ConstructionFault) (o : Option α) : Makes (Act.need f o) (orFault f o) [] := by
  cases o with
  | none => exact makes_throw _
  | some a => exact makes_pure a

theorem makes_lift (f : ε → ConstructionFault) (x : Except ε α) : Makes (Act.lift f x) (orCause f x) [] := by
  cases x with
  | error e => exact makes_throw _
  | ok a => exact makes_pure a

theorem makes_bind {a : Act α} {r : Except SplitFault α} {f : α → Act β} {g : α → Except SplitFault β}
    {calls : List Event} {more : α → List Event} (ha : Makes a r calls)
    (hf : ∀ v, r = .ok v → Makes (f v) (g v) (more v)) :
    Makes (a >>= f) (r >>= g) (calls ++ onOk r more) := by
  intro σ
  rw [Act.run_bind, ha σ, Session.recordAll_append]
  cases r with
  | error e =>
    rw [onOk, Session.recordAll_nil]
    rfl
  | ok v => exact hf v rfl _

theorem makes_resolve (c : Circumstances) :
    Makes (resolve s c) ((s.resolver.resolve c).mapError .capability) [.resolved c.format] := by
  intro σ
  unfold resolve
  rw [Act.run_bind, Act.run_record]
  cases s.resolver.resolve c <;> rfl

/-- The call to the lister, if there is one. -/
def listings (s : Scan) (storage : Storage) : List Event :=
  if s.isTransactional then
    storage.transactional?.toList.map fun range =>
      .listed (Delta.root range) (s.deltas (Delta.root range) range).toOption
  else []

theorem makes_pendingDeltas (storage : Storage) :
    Makes (pendingDeltas s storage) (pendingOf s storage) (listings s storage) := by
  unfold pendingDeltas pendingOf listings
  split
  · cases storage.transactional? with
    | none => exact makes_throw _
    | some range =>
      have hfound := makes_bind (makes_lift .deltas (s.deltas (Delta.root range) range)) fun found _ =>
        makes_pure !found.isEmpty
      simp only [onOk_nil, List.append_nil] at hfound
      exact makes_bind (makes_record (.listed (Delta.root range) (s.deltas (Delta.root range) range).toOption))
        fun _ _ => hfound
  · exact makes_pure _

theorem mapError_bind {ε' : Type} (c : ε → ε') (x : Except ε α) (f : α → Except ε β) :
    (x >>= f).mapError c = x.mapError c >>= fun a => (f a).mapError c := by
  cases x <;> rfl

/-- The calls to the resolver for a split. -/
def Survey.resolutions (s : Scan) (v : Survey) : List Event :=
  .resolved s.table.format ::
    onOk (v.tableStrategy s) fun _ => if v.again s then [.resolved (v.format s)] else []

theorem onOk_mapError {ε' : Type} (c : ε → ε') (x : Except ε α) (calls : α → List Event) :
    onOk (x.mapError c) calls = onOk x calls := by
  cases x <;> rfl

theorem makes_decide (v : Survey) (split : Split) :
    Makes
      (resolve s ⟨s.table.format, s.context.vectorize, false, s.isTransactional, v.pending,
          s.baseSettings⟩ >>= fun tableStrategy =>
        if v.again s then
          resolve s ⟨v.format s, s.context.vectorize, v.drifted, s.isTransactional, v.pending,
            v.settings s⟩ >>= fun strategy => pure (v.prepared s split tableStrategy strategy)
        else pure (v.prepared s split tableStrategy tableStrategy))
      ((v.decide s split).mapError .capability) (v.resolutions s) := by
  have hresolve := makes_resolve (s := s)
    ⟨s.table.format, s.context.vectorize, false, s.isTransactional, v.pending, s.baseSettings⟩
  unfold Survey.decide Survey.resolutions
  rw [mapError_bind, ← onOk_mapError SplitFault.capability]
  refine makes_bind hresolve fun tableStrategy _ => ?_
  by_cases ha : v.again s = true
  · simp only [ha, if_true, mapError_bind]
    have hagain := makes_bind (makes_resolve (s := s)
      ⟨v.format s, s.context.vectorize, v.drifted, s.isTransactional, v.pending, v.settings s⟩) fun strategy _ =>
        makes_pure (v.prepared s split tableStrategy strategy)
    rwa [onOk_nil, List.append_nil] at hagain
  · simp only [ha, pure_bind]
    exact makes_pure _

end Makes

/-- All calls of the act set up libraries. -/
def SetsUp (a : Act α) (r : Except SplitFault α) : Prop :=
  ∃ libraries : List String, Makes a r (libraries.map .setUp)

section SetsUp

variable {s : Scan}

theorem setsUp_bind {a : Act α} {r : Except SplitFault α} {f : α → Act β} {g : α → Except SplitFault β}
    (ha : SetsUp a r) (hf : ∀ v, r = .ok v → SetsUp (f v) (g v)) : SetsUp (a >>= f) (r >>= g) := by
  obtain ⟨libraries, ha⟩ := ha
  cases r with
  | error e =>
    refine ⟨libraries, ?_⟩
    have h : Makes (a >>= f) (.error e >>= g) (libraries.map .setUp ++ onOk (.error e) fun _ => []) :=
      makes_bind ha nofun
    rwa [onOk_nil, List.append_nil] at h
  | ok v =>
    obtain ⟨more, hf⟩ := hf v rfl
    refine ⟨libraries ++ more, ?_⟩
    have h : Makes (a >>= f) (.ok v >>= g) (libraries.map .setUp ++ onOk (.ok v) fun _ => more.map .setUp) :=
      makes_bind ha fun w hw => Except.ok.inj hw ▸ hf
    rw [List.map_append]
    exact h

theorem setsUp_pure (a : α) : SetsUp (pure a) (.ok a) := ⟨[], makes_pure a⟩

theorem setsUp_record (library : String) {a : Act α} {r : Except SplitFault α} (h : SetsUp a r) :
    SetsUp (Act.record (.setUp library) >>= fun _ => a) r :=
  setsUp_bind (r := .ok ()) (g := fun _ => r) ⟨[library], makes_record _⟩ fun _ _ => h

theorem setsUp_need (f : ConstructionFault) (o : Option α) : SetsUp (Act.need f o) (orFault f o) :=
  ⟨[], makes_need f o⟩

theorem setsUp_lift (f : ε → ConstructionFault) (x : Except ε α) : SetsUp (Act.lift f x) (orCause f x) :=
  ⟨[], makes_lift f x⟩

theorem setsUp_rowFormat (partition : Option PartitionId) (settings : Properties)
    (library : Option String) (properties : Properties) :
    SetsUp (rowFormat s partition settings library properties)
      (rowsOf s partition settings library properties) := by
  refine setsUp_bind (setsUp_need _ _) fun library _ => ?_
  refine setsUp_record library ?_
  refine setsUp_bind (setsUp_lift _ _) fun handle _ => ?_
  exact setsUp_bind (setsUp_lift _ _) fun layout _ => setsUp_pure _

theorem setsUp_partitionView (details : SplitDetails) :
    SetsUp (partitionView s details) (partitionOf s details) := by
  unfold partitionView partitionOf
  split
  · refine setsUp_bind (setsUp_need _ _) fun id _ => ?_
    refine setsUp_bind (setsUp_need _ _) fun _ _ => ?_
    exact setsUp_bind (setsUp_rowFormat _ _ _ _) fun rows _ => setsUp_pure _
  · exact setsUp_pure _

end SetsUp

/-! ## Sessions that remember -/

/-- What a session remembers is what would be derived again. -/
def Remembers (s : Scan) (σ : Session) : Prop :=
  ∀ rows, σ.tableRows = some rows → tableRowsOf s = .ok rows

theorem remembers_start (s : Scan) : Remembers s .start := by
  intro rows h
  cases h

def Event.isPlanning : Event → Bool
  | .setUp _ | .listed _ _ | .resolved _ => true
  | _ => false

/-- From one session to another nothing was done but planning. -/
structure Planned (s : Scan) (σ τ : Session) : Prop where
  remembers : Remembers s σ → Remembers s τ
  built : τ.built = σ.built
  warnings : τ.warnings = σ.warnings
  trail : ∃ trail, τ.events = σ.events ++ trail ∧ ∀ e ∈ trail, e.isPlanning = true

/-- Whatever a session remembers, the act answers `r`. It sets up libraries, then makes these calls, and does
nothing else but remember. -/
def Asks (s : Scan) (a : Act α) (r : Except SplitFault α) (calls : List Event) : Prop :=
  ∀ σ, Remembers s σ → ∃ (libraries : List String) (known : Option RowFormat),
    a.run σ = (r, { σ.recordAll (libraries.map .setUp ++ calls) with tableRows := known }) ∧
    ∀ rows, known = some rows → tableRowsOf s = .ok rows

section Asks

variable {s : Scan}

theorem Makes.asks {a : Act α} {r : Except SplitFault α} {calls : List Event} (h : Makes a r calls) :
    Asks s a r calls := fun σ hσ => ⟨[], σ.tableRows, h σ, hσ⟩

theorem SetsUp.asks {a : Act α} {r : Except SplitFault α} (h : SetsUp a r) : Asks s a r [] := by
  obtain ⟨libraries, h⟩ := h
  exact fun σ hσ => ⟨libraries, σ.tableRows, by rw [List.append_nil]; exact h σ, hσ⟩

/-- An act that only sets up libraries may come first. -/
theorem asks_bind {a : Act α} {r : Except SplitFault α} {f : α → Act β} {g : α → Except SplitFault β}
    {calls : α → List Event} (ha : Asks s a r []) (hf : ∀ v, r = .ok v → Asks s (f v) (g v) (calls v)) :
    Asks s (a >>= f) (r >>= g) (onOk r calls) := by
  intro σ hσ
  obtain ⟨libraries, known, hrun, hknown⟩ := ha σ hσ
  rw [Act.run_bind, hrun]
  cases r with
  | error e => exact ⟨libraries, known, rfl, hknown⟩
  | ok v =>
    obtain ⟨more, known', hrun', hknown'⟩ :=
      hf v rfl { σ.recordAll (libraries.map .setUp ++ []) with tableRows := known } hknown
    refine ⟨libraries ++ more, known', hrun'.trans ?_, hknown'⟩
    simp only [Session.recordAll, onOk, List.map_append, List.append_nil, List.append_assoc]
    rfl

/-- The row format of the table is what it would be if nothing were remembered. -/
theorem asks_tableRows : Asks s (tableRows s) (tableRowsOf s) [] := by
  intro σ h
  simp only [tableRows, Act.run_bind, Act.run_get]
  cases hm : σ.tableRows with
  | some rows =>
    refine ⟨[], some rows, by simp [h rows hm, Session.recordAll, ← hm], ?_⟩
    exact fun rows' h' => h rows' (hm.trans h')
  | none =>
    obtain ⟨libraries, hmakes⟩ : SetsUp _ (tableRowsOf s) := setsUp_rowFormat _ _ _ _
    simp only [Act.run_bind, hmakes σ]
    cases hrows : tableRowsOf s with
    | error e => exact ⟨libraries, none, by simp [Session.recordAll, hm], nofun⟩
    | ok rows =>
      exact ⟨libraries, some rows, by simp [Session.recordAll], fun rows' h' => Option.some.inj h' ▸ rfl⟩

/-- The calls of planning a split but for those that set up libraries. -/
def planningCalls (s : Scan) (split : Split) : List Event :=
  onOk (orFault .undecodablePayload split.details?) fun details =>
  onOk (tableRowsOf s) fun rows =>
  onOk (partitionOf s details) fun view =>
    listings s details.storage ++ onOk (pendingOf s details.storage) fun pending =>
      Survey.resolutions s ⟨details, rows, view.1, view.2, pending⟩

theorem prepare_asks (s : Scan) (split : Split) :
    Asks s (prepare s split) (outlook s split) (planningCalls s split) := by
  simp only [prepare, outlook, survey, bind_assoc, pure_bind]
  refine asks_bind (makes_need _ _).asks fun details _ => ?_
  refine asks_bind asks_tableRows fun rows _ => ?_
  refine asks_bind (setsUp_partitionView _).asks fun view _ => ?_
  refine Makes.asks (makes_bind (makes_pendingDeltas _) fun pending _ => ?_)
  exact makes_decide ⟨details, rows, view.1, view.2, pending⟩ split

end Asks

/-- Whatever a session remembers, the act answers `r`, and it does nothing but planning. -/
def Settles (s : Scan) (a : Act α) (r : Except SplitFault α) : Prop :=
  ∀ σ, Remembers s σ → ∃ τ, a.run σ = (r, τ) ∧ Planned s σ τ

theorem isPlanning_of_mem {s : Scan} {split : Split} {e : Event} (h : e ∈ planningCalls s split) :
    e.isPlanning = true := by
  simp only [planningCalls, mem_onOk, List.mem_append] at h
  obtain ⟨d, -, rows, -, view, -, h | ⟨pending, -, h⟩⟩ := h
  · unfold listings at h
    split at h
    · obtain ⟨range, -, rfl⟩ := List.mem_map.mp h
      rfl
    · cases h
  · rw [Survey.resolutions, List.mem_cons, mem_onOk] at h
    rcases h with rfl | ⟨strategy, -, h⟩
    · rfl
    · split at h
      · obtain rfl := List.mem_singleton.mp h
        rfl
      · cases h

theorem prepare_settles (s : Scan) (split : Split) : Settles s (prepare s split) (outlook s split) := by
  intro σ h
  obtain ⟨libraries, known, hrun, hknown⟩ := prepare_asks s split σ h
  refine ⟨_, hrun, fun _ => hknown, rfl, rfl, _, rfl, ?_⟩
  intro e he
  rcases List.mem_append.mp he with he | he
  · obtain ⟨library, -, rfl⟩ := List.mem_map.mp he
    rfl
  · exact isPlanning_of_mem he

theorem plan_settles (s : Scan) (split : Split) :
    Settles s (plan s split) ((outlook s split).map (·.plan)) := by
  intro σ h
  obtain ⟨τ, hτ, hp⟩ := prepare_settles s split σ h
  refine ⟨τ, ?_, hp⟩
  unfold plan
  rw [Act.run_bind, hτ]
  cases outlook s split <;> rfl

/-! ## Successful outlooks -/

theorem bind_eq_ok {x : Except ε α} {f : α → Except ε β} {b : β} :
    (x >>= f) = .ok b ↔ ∃ a, x = .ok a ∧ f a = .ok b := by
  cases x with
  | error e => exact ⟨nofun, nofun⟩
  | ok a => exact ⟨fun h => ⟨a, rfl, h⟩, fun ⟨_, ha, hb⟩ => Except.ok.inj ha ▸ hb⟩

theorem orFault_eq_ok {f : ConstructionFault} {o : Option α} {a : α} : orFault f o = .ok a ↔ o = some a := by
  cases o <;> simp [orFault]

theorem orCause_eq_ok {f : ε → ConstructionFault} {x : Except ε α} {a : α} :
    orCause f x = .ok a ↔ x = .ok a := by
  cases x <;> simp [orCause]

theorem mapError_eq_ok {ε' : Type} {c : ε → ε'} {x : Except ε α} {a : α} :
    x.mapError c = .ok a ↔ x = .ok a := by
  cases x with
  | error e => exact ⟨nofun, nofun⟩
  | ok b => exact ⟨fun h => congrArg _ (Except.ok.inj h), fun h => congrArg _ (Except.ok.inj h)⟩

theorem rowsOf_eq_ok {s : Scan} {partition : Option PartitionId} {settings : Properties}
    {library : Option String} {properties : Properties} {rows : RowFormat} :
    rowsOf s partition settings library properties = .ok rows ↔
      ∃ name, library = some name ∧ s.serdes settings name properties = .ok rows.handle ∧
        rows.handle.layout = .ok rows.layout := by
  simp only [rowsOf, bind_eq_ok, orFault_eq_ok, orCause_eq_ok]
  constructor
  · intro h
    obtain ⟨name, hn, handle, hh, layout, hl, hrows⟩ := h
    cases hrows
    exact ⟨name, hn, hh, hl⟩
  · intro h
    obtain ⟨name, hn, hh, hl⟩ := h
    exact ⟨name, hn, rows.handle, hh, rows.layout, hl, rfl⟩

/-- What a survey that came about says. -/
structure Surveyed (s : Scan) (split : Split) (v : Survey) : Prop where
  details : split.details? = some v.details
  tableRows : tableRowsOf s = .ok v.tableRows
  partition : partitionOf s v.details = .ok (v.layered, v.partition)
  pending : pendingOf s v.details.storage = .ok v.pending

theorem survey_eq_ok {s : Scan} {split : Split} {v : Survey} :
    survey s split = .ok v ↔ Surveyed s split v := by
  simp only [survey, bind_eq_ok, orFault_eq_ok]
  constructor
  · intro h
    obtain ⟨d, hd, rows, hr, view, hp, pending, hq, hv⟩ := h
    cases hv
    exact ⟨hd, hr, hp, hq⟩
  · intro h
    obtain ⟨hd, hr, hp, hq⟩ := h
    exact ⟨_, hd, _, hr, _, hp, _, hq, rfl⟩

theorem decide_eq_ok {s : Scan} {split : Split} {v : Survey} {p : Prepared} :
    v.decide s split = .ok p ↔ ∃ tableStrategy strategy, v.tableStrategy s = .ok tableStrategy ∧
      (if v.again s then v.partitionStrategy s else .ok tableStrategy) = .ok strategy ∧
      v.prepared s split tableStrategy strategy = p := by
  unfold Survey.decide
  rw [bind_eq_ok]
  by_cases ha : v.again s = true
  · simp only [ha, if_true, bind_eq_ok]
    constructor
    · intro h
      obtain ⟨t, ht, u, hu, hp⟩ := h
      exact ⟨t, u, ht, hu, Except.ok.inj hp⟩
    · intro h
      obtain ⟨t, u, ht, hu, rfl⟩ := h
      exact ⟨t, ht, u, hu, rfl⟩
  · simp only [ha]
    constructor
    · intro h
      obtain ⟨t, ht, hp⟩ := h
      exact ⟨t, t, ht, rfl, Except.ok.inj hp⟩
    · intro h
      obtain ⟨t, u, ht, hu, rfl⟩ := h
      cases hu
      exact ⟨t, ht, rfl⟩

theorem outlook_eq_ok {s : Scan} {split : Split} {p : Prepared} :
    outlook s split = .ok p ↔ ∃ v, Surveyed s split v ∧ v.decide s split = .ok p := by
  simp only [outlook, bind_eq_ok, survey_eq_ok, mapError_eq_ok]

/-- A split that has an outlook was surveyed, and strategies were resolved for what was found. -/
theorem outlook_prepared {s : Scan} {split : Split} {p : Prepared} (h : outlook s split = .ok p) :
    ∃ v tableStrategy strategy, Surveyed s split v ∧ v.tableStrategy s = .ok tableStrategy ∧
      (if v.again s then v.partitionStrategy s else .ok tableStrategy) = .ok strategy ∧
      v.prepared s split tableStrategy strategy = p := by
  obtain ⟨v, hv, hd⟩ := outlook_eq_ok.mp h
  obtain ⟨tableStrategy, strategy, ht, hu, hp⟩ := decide_eq_ok.mp hd
  exact ⟨v, tableStrategy, strategy, hv, ht, hu, hp⟩

/-- Planning that came about is a part of the outlook. -/
theorem plan_foreseen {s : Scan} {split : Split} {σ τ : Session} {p : Plan} (hσ : Remembers s σ)
    (h : (plan s split).run σ = (.ok p, τ)) : ∃ q, outlook s split = .ok q ∧ q.plan = p := by
  obtain ⟨υ, hυ, -⟩ := plan_settles s split σ hσ
  have ho : (outlook s split).map (·.plan) = .ok p := congrArg Prod.fst (hυ.symm.trans h)
  cases hq : outlook s split with
  | error e => simp [hq, Except.map] at ho
  | ok q => exact ⟨q, rfl, by simpa [hq, Except.map] using ho⟩

end TableScan.Scan
