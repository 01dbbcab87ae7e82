/-
  TableScan.Proofs.Independence — a split is read as if it were the only one.

  What a reader is constructed from is its `Basis`. Neither the splits before it, nor those that
  failed, nor what other partitions say has a part in it (`splits_independent`): the row
  format of the table that is kept between splits is what would be derived again, and
  the settings of a split are laid over those of the scan anew each time.

  - `Akin`: two scans that differ in siblings and other partitions only.
  - `GoesBy`: what asking for the reader of a split comes to, told by its basis.
  - `Call`: what is asked of a factory of readers, in any order and however often.
-/

import TableScan.Proofs.Outcome
import TableScan.Proofs.Run
import TableScan.Proofs.StrategyRule

namespace TableScan.Scan

/-! ## What a reader is constructed from -/

structure Basis where
  strategy : Strategy
  settings : Properties
  tableRows : RowFormat
  partitionRows : Option RowFormat

def Prepared.basis (p : Prepared) : Basis := ⟨p.plan.strategy, p.settings, p.tableRows, p.partitionRows⟩

def Request.basis (r : Request) : Basis := ⟨r.strategy, r.settings, r.tableRows, r.partitionRows⟩

/-- The basis of a split's reader as it is worked out in a session, or why it cannot be. -/
def basisIn (s : Scan) (σ : Session) (split : Split) : Except SplitFault Basis :=
  ((prepare s split).run σ).1.map Prepared.basis

/-- What constructors are handed when the next reader is asked for. -/
def handedNext (s : Scan) (q : Sequence) : List Request :=
  (q.move s .next).2.session.requests.drop q.session.requests.length

/-- Asking for the next reader fails, with this fault of the split. -/
def FailsWith (s : Scan) (q : Sequence) (split : Split) (fault : SplitFault) : Prop :=
  ∃ suppressed, (q.move s .next).1 = .next (.failed (.ofSplit split.key fault suppressed))

/-- Asking for the reader of a split goes by this basis: constructors are handed nothing else, and a
fault in place of a basis is what the split fails with. The scope may still refuse the work. -/
structure GoesBy (s : Scan) (q : Sequence) (split : Split) (basis : Except SplitFault Basis) : Prop where
  workedOut : basisIn s q.session split = basis
  handed : ∀ r ∈ handedNext s q, basis = .ok r.basis
  constructs : ∀ again x, s.context.scope q.session.entries s.context.user = .runs again →
    basis = .ok x → handedNext s q ≠ []
  fails : ∀ again e, s.context.scope q.session.entries s.context.user = .runs again → basis = .error e →
    handedNext s q = [] ∧ FailsWith s q split e

/-- After these moves the split is the next to be read. -/
def Reaches (s : Scan) (moves : List Move) (split : Split) : Prop :=
  (play s moves).2.ended = false ∧
    ∃ n, (play s moves).2.source = .splits n ∧ s.part.splits[n]? = some split

theorem Sound.basisIn_eq {s : Scan} {σ : Session} (h : Sound s σ) (split : Split) :
    basisIn s σ split = (outlook s split).map Prepared.basis := by
  obtain ⟨τ, hτ, -⟩ := prepare_settles s split σ h.remembers
  rw [basisIn, hτ]

section Asking

variable {s : Scan} {q : Sequence} {n : Nat} {split : Split}

theorem requests_of_next (h : Sound s q.session) (he : q.ended = false) (hs : q.source = .splits n)
    (hn : s.part.splits[n]? = some split) :
    (q.move s .next).2.session.requests = q.session.requests ++ demanded s split q.session.entries := by
  have hc := (construct_leads h split).requests
  rw [move_next_splits he hs hn]
  rcases hr : (construct s split).run q.session with ⟨r, σ⟩
  rw [hr] at hc
  cases r with
  | ok number => exact hc
  | error fault => exact (σ.requests_closeEach _).trans hc

theorem ofSplit_inj {key : String} {f f' : SplitFault} {suppressed suppressed' : List ReleaseFault}
    (h : ScanFault.ofSplit key f suppressed = ScanFault.ofSplit key f' suppressed') : f = f' := by
  cases f with
  | capability cause =>
    cases f' with
    | capability cause' => exact congrArg _ (ScanFault.configuration.inj h).2.1
    | construction cause' => cases h
  | construction cause =>
    cases f' with
    | capability cause' => cases h
    | construction cause' => exact congrArg _ (ScanFault.construction.inj h).2.1

theorem failsWith_iff {fault : SplitFault} (h : Sound s q.session) (he : q.ended = false)
    (hs : q.source = .splits n) (hn : s.part.splits[n]? = some split) :
    FailsWith s q split fault ↔
      outcome s split q.session.entries q.session.constructions = .error fault := by
  have hc := (construct_leads h split).answer
  rw [FailsWith, move_next_splits he hs hn]
  rcases hr : (construct s split).run q.session with ⟨r, σ⟩
  rw [hr] at hc
  rw [← hc]
  cases r with
  | ok number => simp [Except.map]
  | error e =>
    constructor
    · intro h
      obtain ⟨suppressed, h⟩ := h
      rw [ofSplit_inj (Sequence.Next.failed.inj (Answer.next.inj h))]
      rfl
    · intro h
      obtain rfl := Except.error.inj h
      exact ⟨_, rfl⟩

/-- Asking for a reader goes by what is worked out then and there. -/
theorem goesBy (h : Sound s q.session) (he : q.ended = false) (hs : q.source = .splits n)
    (hn : s.part.splits[n]? = some split) : GoesBy s q split (basisIn s q.session split) := by
  have hhanded : handedNext s q = demanded s split q.session.entries := by
    rw [handedNext, requests_of_next h he hs hn, List.drop_left]
  refine ⟨rfl, ?_, ?_, ?_⟩
  · intro r hr
    obtain ⟨p, hp, rfl⟩ := mem_demanded (hhanded ▸ hr)
    rw [h.basisIn_eq, hp]
    rfl
  · intro again x hscope hx
    rw [h.basisIn_eq] at hx
    cases hp : outlook s split with
    | error e => simp [hp, Except.map] at hx
    | ok p => simp [hhanded, demanded, hscope, demand_of_ok hp, List.replicate_succ]
  · intro again e hscope hx
    rw [h.basisIn_eq] at hx
    cases hp : outlook s split with
    | ok p => simp [hp, Except.map] at hx
    | error e' =>
      obtain rfl : e' = e := by simpa [hp, Except.map] using hx
      refine ⟨by simp [hhanded, demanded, hscope, demand_of_error hp], ?_⟩
      rw [failsWith_iff h he hs hn, outcome, hscope]
      exact readerOf_of_error hp _

end Asking

/-! ## Siblings and other partitions -/

theorem map_mapError {α β ε ε' : Type} (c : ε → ε') (f : α → β) (x : Except ε α) :
    (x.mapError c).map f = (x.map f).mapError c := by
  cases x <;> rfl

/-- Two scans that differ at most in the other splits and in what other partitions say. Without partition
columns no partition has a say, and it does not matter which of them the split names. -/
structure Akin (s s' : Scan) (split split' : Split) : Prop where
  scan : ∃ partitions splits, s' =
    { s with table := { s.table with partitions }, part := { s.part with splits } }
  partition : s.table.isPartitioned = true →
    ∀ d id, split.details? = some d → d.partition = some id → s'.table.partition? id = s.table.partition? id
  details : s.table.isPartitioned = true → split'.details? = split.details?
  storage : split'.details?.map (·.storage) = split.details?.map (·.storage)

/-- The scan of this one split. -/
def alone (s : Scan) (split : Split) : Scan := { s with part := { s.part with splits := [split] } }

theorem akin_alone (s : Scan) (split : Split) : Akin s (s.alone split) split split :=
  ⟨⟨s.table.partitions, [split], rfl⟩, fun _ _ _ _ _ => rfl, fun _ => rfl, rfl⟩

theorem reaches_alone (s : Scan) (split : Split) : Reaches (s.alone split) [] split :=
  ⟨rfl, 0, rfl, rfl⟩

section Akin

variable {s s' : Scan} {split split' : Split} {d d' : SplitDetails}

theorem Akin.tableRows (h : Akin s s' split split') : tableRowsOf s' = tableRowsOf s := by
  obtain ⟨partitions, splits, rfl⟩ := h.scan
  rfl

theorem Akin.pending (h : Akin s s' split split') (storage : Storage) :
    pendingOf s' storage = pendingOf s storage := by
  obtain ⟨partitions, splits, rfl⟩ := h.scan
  rfl

theorem Akin.resolver (h : Akin s s' split split') : s'.resolver = s.resolver := by
  obtain ⟨partitions, splits, rfl⟩ := h.scan
  rfl

theorem Akin.context (h : Akin s s' split split') : s'.context = s.context := by
  obtain ⟨partitions, splits, rfl⟩ := h.scan
  rfl

theorem Akin.baseSettings (h : Akin s s' split split') : s'.baseSettings = s.baseSettings := by
  obtain ⟨partitions, splits, rfl⟩ := h.scan
  rfl

theorem Akin.isTransactional (h : Akin s s' split split') : s'.isTransactional = s.isTransactional := by
  rw [Scan.isTransactional, h.baseSettings, Scan.isTransactional]

theorem Akin.tableFormat (h : Akin s s' split split') : s'.table.format = s.table.format := by
  obtain ⟨partitions, splits, rfl⟩ := h.scan
  rfl

theorem Akin.isPartitioned (h : Akin s s' split split') : s'.table.isPartitioned = s.table.isPartitioned := by
  obtain ⟨partitions, splits, rfl⟩ := h.scan
  rfl

theorem Akin.partitionOf (h : Akin s s' split split') (hd : split.details? = some d)
    (hd' : split'.details? = some d') : partitionOf s' d' = Scan.partitionOf s d := by
  have hpart := h.isPartitioned
  by_cases hp : s.table.isPartitioned = true
  · obtain rfl : d' = d := by simpa [hd, hd'] using h.details hp
    simp only [Scan.partitionOf, hpart, hp, if_true]
    cases hid : d'.partition with
    | none => rfl
    | some id =>
      have hown := h.partition hp d' id hd hid
      obtain ⟨partitions, splits, rfl⟩ := h.scan
      simp only [orFault, bind, Except.bind, Table.partitionProperties, Table.partitionLibrary?, hown]
      rfl
  · obtain ⟨partitions, splits, rfl⟩ := h.scan
    simp only [Scan.partitionOf, hpart, hp]
    rfl

theorem Akin.format (h : Akin s s' split split') (hd : split.details? = some d) {settings : Properties}
    {view : Option PartitionView} (hview : Scan.partitionOf s d = .ok (settings, view)) {v v' : Survey}
    (hv : v.partition = view) (hv' : v'.partition = view) : v'.format s' = v.format s := by
  unfold Survey.format
  rw [hv, hv']
  rcases partitionOf_eq_ok hview with ⟨-, -, rfl⟩ | ⟨hp, id, rows, hid, -, rfl, -⟩
  · obtain ⟨partitions, splits, rfl⟩ := h.scan
    rfl
  · have hown := h.partition hp d id hd hid
    obtain ⟨partitions, splits, rfl⟩ := h.scan
    simp only [Table.partitionFormat?, hown]

/-- Once the same is known of both splits, the same is decided. -/
theorem Akin.decide (h : Akin s s' split split') {v v' : Survey} (hformat : v'.format s' = v.format s)
    (hrows : v'.tableRows = v.tableRows) (hlayered : v'.layered = v.layered)
    (hview : v'.partition = v.partition) (hpending : v'.pending = v.pending) :
    (v'.decide s' split').map Prepared.basis = (v.decide s split).map Prepared.basis := by
  have hsettings : v'.settings s' = v.settings s := by
    simp only [Survey.settings, hformat, hlayered]
  have hdrifted : v'.drifted = v.drifted := by
    simp only [Survey.drifted, hview, hrows]
  have hagain : v'.again s' = v.again s := by
    simp only [Survey.again, hview, hformat, h.tableFormat, hdrifted, h.isTransactional, hpending]
  have htable : v'.tableStrategy s' = v.tableStrategy s := by
    simp only [Survey.tableStrategy, h.resolver, h.tableFormat, h.context, h.isTransactional, hpending,
      h.baseSettings]
  have hpartition : v'.partitionStrategy s' = v.partitionStrategy s := by
    simp only [Survey.partitionStrategy, h.resolver, hformat, h.context, hdrifted, h.isTransactional,
      hpending, hsettings]
  have hbasis (t u : Strategy) : (v'.prepared s' split' t u).basis = (v.prepared s split t u).basis := by
    simp only [Survey.prepared, Prepared.basis, hsettings, hrows, hview]
  simp only [Survey.decide, hagain, htable, hpartition]
  cases v.tableStrategy s with
  | error e => rfl
  | ok t =>
    cases v.again s with
    | false => exact congrArg Except.ok (hbasis t t)
    | true =>
      cases v.partitionStrategy s with
      | error e => rfl
      | ok u => exact congrArg Except.ok (hbasis t u)

theorem Akin.outlook (h : Akin s s' split split') :
    (Scan.outlook s' split').map Prepared.basis = (Scan.outlook s split).map Prepared.basis := by
  have hstorage := h.storage
  simp only [Scan.outlook, survey]
  cases hd : split.details? with
  | none =>
    obtain hd' : split'.details? = none := by simpa [hd] using hstorage
    rw [hd']
    rfl
  | some d =>
    obtain ⟨d', hd', hst⟩ : ∃ d', split'.details? = some d' ∧ d'.storage = d.storage := by
      simpa [hd] using hstorage
    rw [hd']
    simp only [orFault, bind, Except.bind, h.tableRows, h.partitionOf hd hd', h.pending, hst]
    cases tableRowsOf s with
    | error e => rfl
    | ok rows =>
      cases hview : Scan.partitionOf s d with
      | error e => rfl
      | ok view =>
        cases pendingOf s d.storage with
        | error e => rfl
        | ok pending =>
          have hdecide : (Survey.decide s' ⟨d', rows, view.1, view.2, pending⟩ split').map Prepared.basis =
              (Survey.decide s ⟨d, rows, view.1, view.2, pending⟩ split).map Prepared.basis :=
            h.decide (h.format hd hview rfl rfl) rfl rfl rfl rfl
          simp only [pure, Except.pure, map_mapError, hdecide]

end Akin

/-! ## Calls to a factory of readers -/

/-- What is asked of a factory of readers. -/
inductive Call
  | plan (split : Split)
  | construct (split : Split)

inductive Reply
  | plan (answer : Except SplitFault Plan)
  | reader (answer : Except SplitFault Reader)

namespace Call

/-- The reply to a call, and the session after it. -/
def perform (s : Scan) (σ : Session) : Call → Reply × Session
  | .plan split => let (answer, τ) := (Scan.plan s split).run σ; (.plan answer, τ)
  | .construct split => let (answer, τ) := (Scan.construct s split).run σ; (.reader (answer.map τ.reader), τ)

/-- The reply of a factory that remembers nothing, where scope and constructors were asked so often. -/
def reply (s : Scan) (entries before : Nat) : Call → Reply
  | .plan split => .plan ((outlook s split).map (·.plan))
  | .construct split => .reader (outcome s split entries before)

theorem perform_eq (c : Call) {s : Scan} {σ : Session} (h : Sound s σ) :
    (c.perform s σ).1 = c.reply s σ.entries σ.constructions := by
  cases c with
  | plan split =>
    obtain ⟨τ, hτ, -⟩ := plan_settles s split σ h.remembers
    rw [perform, hτ, reply]
  | construct split => exact congrArg Reply.reader (construct_leads h split).answer

theorem perform_reached (c : Call) {s : Scan} {σ : Session} (h : Reached s σ) :
    Reached s (c.perform s σ).2 := by
  cases c with
  | plan split => exact h.planned split
  | construct split => exact h.constructed split

end Call

/-- The session of a factory after these calls. -/
def afterCalls (s : Scan) (calls : List Call) : Session :=
  calls.foldl (fun σ c => (c.perform s σ).2) .start

theorem afterCalls_reached (s : Scan) (calls : List Call) : Reached s (afterCalls s calls) := by
  have hfold : ∀ (calls : List Call) (σ : Session), Reached s σ →
      Reached s (calls.foldl (fun σ c => (c.perform s σ).2) σ) := by
    intro calls
    induction calls with
    | nil => exact fun σ h => h
    | cons c calls ih => exact fun σ h => ih _ (c.perform_reached h)
  exact hfold calls .start .start

/-- The session as a factory finds it that is made only now. -/
def Session.forgetting (σ : Session) : Session := { σ with tableRows := none }

theorem Sound.forgetting {s : Scan} {σ : Session} (h : Sound s σ) : Sound s σ.forgetting := by
  refine ⟨?_, h.requested⟩
  intro rows hrows
  cases hrows

/-- Scope and constructors take no account of how often they were asked. -/
structure Unvarying (s : Scan) : Prop where
  scope : ∀ m n user, s.context.scope m user = s.context.scope n user
  constructors : ∀ strategy m n r, s.constructors strategy m r = s.constructors strategy n r

theorem Unvarying.outcome {s : Scan} (h : Unvarying s) (split : Split) (m n m' n' : Nat) :
    Scan.outcome s split m n = Scan.outcome s split m' n' := by
  have hreader (k k' : Nat) : readerOf s split k = readerOf s split k' := by
    unfold readerOf
    congr
    funext p
    rw [h.constructors p.plan.strategy k k' _]
  simp only [Scan.outcome, h.scope m m']
  cases s.context.scope m' s.context.user with
  | refuses cause => rfl
  | runs again => exact hreader _ _

/-! ## The settings of a split -/

/-- The partition that a split belongs to. -/
def partitionFor (s : Scan) (d : SplitDetails) : Option PartitionId :=
  if s.table.isPartitioned then d.partition else none

/-- The properties of the partition over the settings of the scan. -/
def layeredFor (s : Scan) (d : SplitDetails) : Properties :=
  match partitionFor s d with
  | some id => s.baseSettings.overlay (s.table.partitionProperties id)
  | none => s.baseSettings

def settingsFor (s : Scan) (d : SplitDetails) : Properties :=
  match effectiveFormat s d with
  | some format => (layeredFor s d).withInputFormat format
  | none => layeredFor s d

theorem Surveyed.settings_eq {s : Scan} {split : Split} {v : Survey} (h : Surveyed s split v) :
    v.settings s = settingsFor s v.details := by
  have hlayered : v.layered = layeredFor s v.details := by
    rcases partitionOf_eq_ok h.partition with ⟨hp, hs, -⟩ | ⟨hp, id, rows, hid, hs, -, -⟩
    · simp [layeredFor, partitionFor, hp, hs]
    · simp [layeredFor, partitionFor, hp, hid, hs]
  cases hformat : effectiveFormat s v.details <;>
    simp only [Survey.settings, settingsFor, h.format_eq, hlayered, hformat]

theorem Sound.request_settings {s : Scan} {σ : Session} (h : Sound s σ) {r : Request} (hr : r ∈ σ.requests) :
    ∃ d, r.split.details? = some d ∧ r.settings = settingsFor s d := by
  obtain ⟨p, hp, hrp⟩ := h.requested r hr
  obtain ⟨v, t, u, hv, -, -, rfl⟩ := outlook_prepared hp
  refine ⟨v.details, hv.details, ?_⟩
  rw [hrp]
  exact hv.settings_eq

theorem outlook_transactional {s : Scan} {split : Split} {p : Prepared} (h : outlook s split = .ok p) :
    p.plan.transactional = s.isTransactional := by
  obtain ⟨v, t, u, -, -, -, rfl⟩ := outlook_prepared h
  rfl

/-! ## Independence -/

/-- A call is answered as by a factory that is made for it, from the settings that all began with. -/
structure AsIfFirst (s : Scan) (σ : Session) (c : Call) : Prop where
  reply : (c.perform s σ).1 = (c.perform s σ.forgetting).1
  requests : (c.perform s σ).2.requests = (c.perform s σ.forgetting).2.requests
  plan : ∀ split, c = .plan split → (c.perform s σ).1 = (c.perform s .start).1
  unvarying : Unvarying s → (c.perform s σ).1 = (c.perform s .start).1
  settings : ∀ r ∈ (c.perform s σ).2.requests, ∃ d, r.split.details? = some d ∧ r.settings = settingsFor s d
  transactional : ∀ p, (c.perform s σ).1 = .plan (.ok p) → p.transactional = s.isTransactional

theorem Call.requests_perform (c : Call) {s : Scan} {σ : Session} (h : Sound s σ) :
    (c.perform s σ).2.requests = (c.perform s σ.forgetting).2.requests := by
  cases c with
  | plan split =>
    obtain ⟨τ, hτ, hp⟩ := plan_settles s split σ h.remembers
    obtain ⟨υ, hυ, hq⟩ := plan_settles s split σ.forgetting h.forgetting.remembers
    rw [perform, perform, hτ, hυ]
    exact hp.requests.trans hq.requests.symm
  | construct split =>
    exact (construct_leads h split).requests.trans (construct_leads h.forgetting split).requests.symm

theorem asIfFirst {s : Scan} {σ : Session} (h : Reached s σ) (c : Call) : AsIfFirst s σ c := by
  have hreply := c.perform_eq h.sound
  refine ⟨?_, c.requests_perform h.sound, ?_, ?_, ?_, ?_⟩
  · rw [hreply, c.perform_eq h.sound.forgetting]
    rfl
  · rintro split rfl
    rw [hreply, Call.perform_eq _ sound_start]
    rfl
  · intro hu
    rw [hreply, c.perform_eq sound_start]
    cases c with
    | plan split => rfl
    | construct split => exact congrArg Reply.reader (hu.outcome split _ _ _ _)
  · intro r hr
    exact (c.perform_reached h).sound.request_settings hr
  · intro p hp
    cases c with
    | construct split => cases hp
    | plan split =>
      have hplan : (outlook s split).map (·.plan) = .ok p := Reply.plan.inj (hreply.symm.trans hp)
      cases ho : outlook s split with
      | error e => simp [ho, Except.map] at hplan
      | ok x =>
        obtain rfl : x.plan = p := by simpa [ho, Except.map] using hplan
        exact outlook_transactional ho

theorem Reaches.failsWith_iff {s : Scan} {moves : List Move} {split : Split} (h : Reaches s moves split)
    (hu : Unvarying s) (fault : SplitFault) :
    FailsWith s (play s moves).2 split fault ↔ outcome s split 0 0 = .error fault := by
  obtain ⟨he, n, hs, hn⟩ := h
  rw [Scan.failsWith_iff (play_reached s moves).sound he hs hn, hu.outcome split _ _ 0 0]

theorem Reaches.goesBy {s : Scan} {moves : List Move} {split : Split} (h : Reaches s moves split) :
    GoesBy s (play s moves).2 split ((outlook s split).map Prepared.basis) := by
  obtain ⟨he, n, hs, hn⟩ := h
  have hsound := (play_reached s moves).sound
  exact hsound.basisIn_eq split ▸ Scan.goesBy hsound he hs hn

theorem splits_independent (s : Scan) :
    (∀ moves split, Reaches s moves split →
      ∃ basis, GoesBy s (play s moves).2 split basis ∧
        GoesBy (s.alone split) (.start (s.alone split)) split basis ∧
        (Unvarying s → ∀ fault, FailsWith s (play s moves).2 split fault ↔
          FailsWith (s.alone split) (.start (s.alone split)) split fault) ∧
        ∀ s' split' moves', Akin s s' split split' → Reaches s' moves' split' →
          GoesBy s' (play s' moves').2 split' basis) ∧
    ∀ calls c, AsIfFirst s (afterCalls s calls) c := by
  constructor
  · intro moves split h
    have hakin {s' : Scan} {split' : Split} {moves' : List Move} (ha : Akin s s' split split')
        (h' : Reaches s' moves' split') : GoesBy s' (play s' moves').2 split'
          ((outlook s split).map Prepared.basis) := ha.outlook ▸ h'.goesBy
    refine ⟨(outlook s split).map Prepared.basis, h.goesBy, ?_, ?_, fun _ _ _ => hakin⟩
    · exact hakin (akin_alone s split) (reaches_alone s split)
    · intro hu fault
      rw [h.failsWith_iff hu]
      exact ((reaches_alone s split).failsWith_iff ⟨hu.scope, hu.constructors⟩ fault).symm
  · exact fun calls c => asIfFirst (afterCalls_reached s calls) c

/-- The split of the drifting table behind another. -/
def siblingScan : Scan :=
  { driftingScan with part := ⟨[⟨"r", driftingSplit.payload, []⟩, driftingSplit], ["a"], none⟩ }

/-- The same split, first of two, with another partition beside its own. -/
def restatedScan : Scan :=
  { siblingScan with
    table := driftingTable.withPartition 2 { PartitionOverride.none with format := some "text" }
    part := ⟨[driftingSplit, ⟨"r", [], []⟩], ["a"], none⟩ }

theorem siblingScan_independent :
    Reaches siblingScan [.next] driftingSplit ∧
      Akin siblingScan restatedScan driftingSplit driftingSplit ∧
      ∃ basis, GoesBy siblingScan (play siblingScan [.next]).2 driftingSplit basis ∧
        GoesBy (siblingScan.alone driftingSplit) (.start (siblingScan.alone driftingSplit)) driftingSplit basis ∧
        GoesBy restatedScan (.start restatedScan) driftingSplit basis := by
  have hreaches : Reaches siblingScan [.next] driftingSplit := ⟨by decide +kernel, 1, by decide +kernel, rfl⟩
  have hown : driftingSplit.details?.bind (·.partition) = some 1 := by decide +kernel
  have hakin : Akin siblingScan restatedScan driftingSplit driftingSplit := by
    refine ⟨⟨_, _, rfl⟩, ?_, fun _ => rfl, rfl⟩
    intro _ d id hd hid
    obtain rfl : id = 1 := by simpa [hd, hid] using hown
    decide +kernel
  obtain ⟨basis, hgoes, halone, -, hothers⟩ := (splits_independent siblingScan).1 [.next] driftingSplit hreaches
  exact ⟨hreaches, hakin, basis, hgoes, halone, hothers restatedScan driftingSplit [] hakin ⟨rfl, 0, rfl, rfl⟩⟩

end TableScan.Scan
