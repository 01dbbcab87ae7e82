/-
  TableScan.Proofs.Outcome — what constructing the reader of a split answers, in closed form.

  `outcome` says it without a session. All it takes of the past is how often the scope of the
  identity and the constructors were asked before, because these may answer differently each
  time. `construct_leads`: constructing answers `outcome`, hands constructors what
  `demanded` says, and leaves all readers built before as they are (`Leads`).
-/

import TableScan.Proofs.Construction

namespace TableScan.Scan

variable {α β ε : Type}

/-! ## In closed form -/

/-- The reader of a split, where constructors were asked so often before. -/
def readerOf (s : Scan) (split : Split) (before : Nat) : Except SplitFault Reader := do
  let p ← outlook s split
  let reader ← orCause (.constructor p.plan.strategy)
    (s.constructors p.plan.strategy before (request s split p))
  orCause (.wrap · reader.closeFault)
    (s.composite.wrap split (allocatorBelow s.context.allocator split.key) reader)

/-- What a constructor is handed if the reader of a split is built. -/
def demand (s : Scan) (split : Split) : List Request := (outlook s split).toOption.toList.map (request s split)

def outcome (s : Scan) (split : Split) (entries before : Nat) : Except SplitFault Reader :=
  match s.context.scope entries s.context.user with
  | .runs again => readerOf s split (before + again)
  | .refuses cause => .error (.construction (.identity s.context.user cause))

/-- What constructors are handed for a split, once for each time that the scope runs the work. -/
def demanded (s : Scan) (split : Split) (entries : Nat) : List Request :=
  match s.context.scope entries s.context.user with
  | .runs again => (List.replicate (again + 1) (demand s split)).flatten
  | .refuses _ => []

section Demand

variable {s : Scan} {split : Split}

theorem demand_of_error {e : SplitFault} (h : outlook s split = .error e) : demand s split = [] := by
  rw [demand, h]
  rfl

theorem demand_of_ok {p : Prepared} (h : outlook s split = .ok p) : demand s split = [request s split p] := by
  rw [demand, h]
  rfl

theorem mem_demand {r : Request} : r ∈ demand s split ↔ ∃ p, outlook s split = .ok p ∧ r = request s split p := by
  cases h : outlook s split with
  | error e => simp [demand_of_error h]
  | ok p => simp [demand_of_ok h]

theorem mem_demanded {entries : Nat} {r : Request} (h : r ∈ demanded s split entries) :
    ∃ p, outlook s split = .ok p ∧ r = request s split p := by
  unfold demanded at h
  split at h
  · simp only [List.mem_flatten, List.mem_replicate] at h
    obtain ⟨rs, ⟨-, rfl⟩, hr⟩ := h
    exact mem_demand.mp hr
  · cases h

/-- Without an outlook no constructor is asked, so it does not matter how often they were. -/
theorem readerOf_of_error {e : SplitFault} (h : outlook s split = .error e) (before : Nat) :
    readerOf s split before = .error e := by
  rw [readerOf, h]
  rfl

end Demand

/-! ## Readers of a session -/

namespace Session

theorem constructions_eq (σ : Session) : σ.constructions = σ.requests.length := by
  rw [requests, List.length_filterMap_eq_countP, constructions, count]
  congr 1
  funext e
  cases e <;> rfl

theorem reader_eq_of_built {σ τ : Session} (h : τ.built = σ.built) (n : Nat) : τ.reader n = σ.reader n := by
  rw [reader, reader, h]

theorem reader_setReader_self {σ : Session} {n : Nat} (r : Reader) (hn : n < σ.built.length) :
    (σ.setReader n r).reader n = r := by
  simp [reader, setReader, hn]

theorem reader_setReader_of_ne {σ : Session} {m n : Nat} (r : Reader) (h : m ≠ n) :
    (σ.setReader m r).reader n = σ.reader n := by
  simp [reader, setReader, h]

theorem reader_taken_of_lt {σ : Session} {n : Nat} (r : Request) (reader : Reader) (hn : n < σ.built.length) :
    (taken r reader σ).reader n = σ.reader n := by
  simp [Session.reader, taken, List.getElem?_append_left hn]

end Session

/-! ## Faults of planning -/

/-- The fault is that a reader could not be wrapped. -/
def SplitFault.isWrap : SplitFault → Bool
  | .construction (.wrap _ _) => true
  | _ => false

/-- The fault is one of planning a split whose payload was decoded. -/
def SplitFault.isPlanning : SplitFault → Bool
  | .construction .undecodablePayload | .construction (.identity _ _) | .construction (.constructor _ _)
  | .construction (.wrap _ _) => false
  | _ => true

/-- Nothing fails to be wrapped. -/
def NeverWraps (x : Except SplitFault α) : Prop := ∀ e, x = .error e → e.isWrap = false

/-- Nothing fails but planning. -/
def OnlyPlans (x : Except SplitFault α) : Prop := ∀ e, x = .error e → e.isPlanning = true

theorem onlyPlans_ok (a : α) : OnlyPlans (.ok a) := by
  intro e h
  cases h

theorem onlyPlans_error {e : SplitFault} (h : e.isPlanning = true) : OnlyPlans (.error e : Except SplitFault α) := by
  intro e' he
  exact Except.error.inj he ▸ h

theorem onlyPlans_bind {x : Except SplitFault α} {f : α → Except SplitFault β} (hx : OnlyPlans x)
    (hf : ∀ a, OnlyPlans (f a)) : OnlyPlans (x >>= f) := by
  cases x with
  | error e => exact onlyPlans_error (hx e rfl)
  | ok a => exact hf a

theorem onlyPlans_orFault {f : ConstructionFault} (o : Option α)
    (hf : (SplitFault.construction f).isPlanning = true) : OnlyPlans (orFault f o) := by
  cases o with
  | none => exact onlyPlans_error hf
  | some a => exact onlyPlans_ok a

theorem onlyPlans_orCause {f : ε → ConstructionFault} (x : Except ε α)
    (hf : ∀ e, (SplitFault.construction (f e)).isPlanning = true) : OnlyPlans (orCause f x) := by
  cases x with
  | error e => exact onlyPlans_error (hf e)
  | ok a => exact onlyPlans_ok a

theorem onlyPlans_rowsOf (s : Scan) (partition : Option PartitionId) (settings : Properties)
    (library : Option String) (properties : Properties) :
    OnlyPlans (rowsOf s partition settings library properties) := by
  refine onlyPlans_bind (onlyPlans_orFault _ rfl) fun library => ?_
  refine onlyPlans_bind (onlyPlans_orCause _ fun _ => rfl) fun handle => ?_
  exact onlyPlans_bind (onlyPlans_orCause _ fun _ => rfl) fun layout => onlyPlans_ok _

theorem onlyPlans_partitionOf (s : Scan) (details : SplitDetails) : OnlyPlans (partitionOf s details) := by
  unfold partitionOf
  split
  · refine onlyPlans_bind (onlyPlans_orFault _ rfl) fun id => ?_
    refine onlyPlans_bind (onlyPlans_orFault _ rfl) fun _ => ?_
    exact onlyPlans_bind (onlyPlans_rowsOf _ _ _ _ _) fun rows => onlyPlans_ok _
  · exact onlyPlans_ok _

theorem onlyPlans_pendingOf (s : Scan) (storage : Storage) : OnlyPlans (pendingOf s storage) := by
  unfold pendingOf
  split
  · refine onlyPlans_bind (onlyPlans_orFault _ rfl) fun range => ?_
    exact onlyPlans_bind (onlyPlans_orCause _ fun _ => rfl) fun found => onlyPlans_ok _
  · exact onlyPlans_ok _

section Decoded

variable {s : Scan} {split : Split} {d : SplitDetails}

theorem onlyPlans_survey (h : split.details? = some d) : OnlyPlans (survey s split) := by
  unfold survey
  rw [h]
  refine onlyPlans_bind (onlyPlans_ok d) fun details => ?_
  refine onlyPlans_bind (onlyPlans_rowsOf _ _ _ _ _) fun rows => ?_
  refine onlyPlans_bind (onlyPlans_partitionOf _ _) fun view => ?_
  exact onlyPlans_bind (onlyPlans_pendingOf _ _) fun pending => onlyPlans_ok _

theorem onlyPlans_outlook (h : split.details? = some d) : OnlyPlans (outlook s split) := by
  refine onlyPlans_bind (onlyPlans_survey h) fun v => ?_
  cases v.decide s split with
  | error e => exact onlyPlans_error rfl
  | ok p => exact onlyPlans_ok p

end Decoded

theorem outlook_undecodable {s : Scan} {split : Split} (h : split.details? = none) :
    outlook s split = .error (.construction .undecodablePayload) := by
  rw [outlook, survey, h]
  rfl

theorem neverWraps_outlook (s : Scan) (split : Split) : NeverWraps (outlook s split) := by
  intro e he
  cases hd : split.details? with
  | none =>
    cases (outlook_undecodable hd).symm.trans he
    rfl
  | some d =>
    have := onlyPlans_outlook hd e he
    rcases e with _ | cause
    · rfl
    · cases cause <;> first | rfl | cases this

/-! ## Attempts to build a reader -/

/-- Work on a split leads to this answer, by way of these requests. Its reader is a new one, and no reader is
closed but new ones: the last of those that could not be wrapped is the one that the fault is about. -/
structure Leads (answer : Except SplitFault Reader) (requests : List Request) (σ : Session)
    (r : Except SplitFault Nat) (τ : Session) : Prop where
  answer : r.map τ.reader = answer
  requests : τ.requests = σ.requests ++ requests
  built : σ.built.length ≤ τ.built.length
  readers : ∀ n < σ.built.length, τ.reader n = σ.reader n
  numbered : ∀ n, r = .ok n → σ.built.length ≤ n ∧ n < τ.built.length
  closed : ∃ lost : List Nat, τ.calls = σ.calls ++ lost.map .close ∧
    (∀ n ∈ lost, σ.built.length ≤ n ∧ n < τ.built.length) ∧
    ∀ cause cleanup, r = .error (.construction (.wrap cause cleanup)) →
      ∃ n ∈ lost, (τ.reader n).closeFault = cleanup

/-- What so many attempts more than one at the reader of a split come to. -/
def Attempted (s : Scan) (split : Split) (again : Nat) (σ : Session) (r : Except SplitFault Nat)
    (τ : Session) : Prop :=
  Leads (readerOf s split (σ.constructions + again)) (List.replicate (again + 1) (demand s split)).flatten σ r τ

section Attempts

variable {s : Scan} {split : Split} {σ τ : Session} {r : Except SplitFault Nat}

theorem Planned.reader (h : Planned s σ τ) (n : Nat) : τ.reader n = σ.reader n :=
  Session.reader_eq_of_built h.built n

theorem Planned.constructions (h : Planned s σ τ) : τ.constructions = σ.constructions := by
  rw [τ.constructions_eq, σ.constructions_eq, h.requests]

theorem Leads.record {answer : Except SplitFault Reader} {requests : List Request} {e e' : Event}
    (h : Leads answer requests (σ.record e) r τ) (hr : e.request? = none) (hr' : e'.request? = none)
    (hc : e.call? = none) (hc' : e'.call? = none) : Leads answer requests σ r (τ.record e') := by
  refine ⟨h.answer, by simpa [hr, hr'] using h.requests, h.built, h.readers, h.numbered, ?_⟩
  obtain ⟨lost, hcalls, hlost⟩ := h.closed
  exact ⟨lost, by simpa [hc, hc'] using hcalls, hlost⟩

/-- Readers built before a split stay as they are while its own is wrapped. -/
theorem reader_wrapping {p : Prepared} {reader : Reader} (hp : Planned s σ τ) {n : Nat}
    (hn : n < σ.built.length) : (wrapping s split p reader τ).reader n = σ.reader n := by
  rw [← hp.reader n]
  exact Session.reader_taken_of_lt _ _ (hp.built.symm ▸ hn)

theorem Building.attempted (h : Building s split σ r τ) : Attempted s split 0 σ r τ := by
  cases h with
  | @unplanned e _ ho hp =>
    refine ⟨(readerOf_of_error ho _).symm, ?_, hp.built ▸ Nat.le_refl _, fun n _ => hp.reader n, by simp, ?_⟩
    · simp [demand_of_error ho, hp.requests]
    · refine ⟨[], by simp [hp.calls], by simp, ?_⟩
      intro cause cleanup hr
      cases (neverWraps_outlook s split e ho).symm.trans (congrArg _ (Except.error.inj hr))
  | @unconstructed p τ cause ho hp hc =>
    refine ⟨?_, ?_, hp.built ▸ Nat.le_refl _, fun n _ => hp.reader n, by simp, ?_⟩
    · rw [hp.constructions] at hc
      simp [readerOf, ho, hc, bind, Except.bind, orCause, Except.map]
    · simp [demand_of_ok ho, hp.requests, Event.request?]
    · exact ⟨[], by simp [hp.calls, Event.call?], by simp, by simp⟩
  | @wrapped p τ reader widened ho hp hc hw =>
    refine ⟨?_, ?_, ?_, ?_, ?_, ?_⟩
    · rw [hp.constructions] at hc
      have hself : ((wrapping s split p reader τ).setReader σ.built.length widened).reader σ.built.length
          = widened := Session.reader_setReader_self _ (by simp [wrapping, hp.built])
      simp [readerOf, ho, hc, hw, bind, Except.bind, orCause, Except.map, hself]
    · simp [wrapping, demand_of_ok ho, hp.requests, Event.request?]
    · simp [wrapping, hp.built]
    · intro n hn
      rw [Session.reader_setReader_of_ne _ (Nat.ne_of_gt hn), reader_wrapping hp hn]
    · intro n hn
      obtain rfl := Except.ok.inj hn
      exact ⟨Nat.le_refl _, by simp [wrapping, hp.built]⟩
    · exact ⟨[], by simp [wrapping, hp.calls, Event.call?], by simp, by simp⟩
  | @unwrapped p τ reader cause ho hp hc hw =>
    have hbuilt := built_warnUnwrapped split reader.closeFault
      ((wrapping s split p reader τ).record (.closed σ.built.length))
    refine ⟨?_, ?_, ?_, ?_, by simp, ?_⟩
    · rw [hp.constructions] at hc
      simp [readerOf, ho, hc, hw, bind, Except.bind, orCause, Except.map]
    · simp [wrapping, demand_of_ok ho, hp.requests, Event.request?]
    · simp [wrapping, hp.built]
    · intro n hn
      rw [Session.reader_eq_of_built hbuilt]
      exact reader_wrapping hp hn
    · refine ⟨[σ.built.length], by simp [wrapping, hp.calls, Event.call?], by simp [wrapping, hp.built], ?_⟩
      intro _ cleanup hr
      obtain ⟨-, rfl⟩ := ConstructionFault.wrap.inj (SplitFault.construction.inj (Except.error.inj hr))
      refine ⟨σ.built.length, List.mem_singleton_self _, ?_⟩
      rw [Session.reader_eq_of_built hbuilt, ← hp.built]
      exact congrArg _ (reader_taken _ reader τ)

/-- A first attempt before the others; its answer is forgotten. -/
theorem Attempted.before {again : Nat} {r' : Except SplitFault Nat} {υ : Session}
    (h : Attempted s split 0 σ r' τ) (k : Attempted s split again τ r υ) : Attempted s split (again + 1) σ r υ := by
  have hrequests : τ.requests = σ.requests ++ demand s split := by simpa using h.requests
  refine ⟨?_, ?_, Nat.le_trans h.built k.built, ?_, ?_, ?_⟩
  · rw [k.answer]
    cases ho : outlook s split with
    | error e => rw [readerOf_of_error ho, readerOf_of_error ho]
    | ok p =>
      rw [τ.constructions_eq, σ.constructions_eq, hrequests, demand_of_ok ho, List.length_append,
        Nat.add_assoc, Nat.add_comm _ again]
      rfl
  · rw [k.requests, hrequests, List.replicate_succ (n := again + 1), List.flatten_cons, List.append_assoc]
  · intro n hn
    rw [k.readers n (Nat.lt_of_lt_of_le hn h.built), h.readers n hn]
  · intro n hn
    exact ⟨Nat.le_trans h.built (k.numbered n hn).1, (k.numbered n hn).2⟩
  · obtain ⟨lost, hcalls, hlost, -⟩ := h.closed
    obtain ⟨more, hmore, hnew, hcleanup⟩ := k.closed
    refine ⟨lost ++ more, by rw [hmore, hcalls, List.map_append, List.append_assoc], ?_, ?_⟩
    · intro n hn
      rcases List.mem_append.mp hn with hn | hn
      · exact ⟨(hlost n hn).1, Nat.lt_of_lt_of_le (hlost n hn).2 k.built⟩
      · exact ⟨Nat.le_trans h.built (hnew n hn).1, (hnew n hn).2⟩
    · intro cause cleanup hr
      obtain ⟨n, hn, hfault⟩ := hcleanup cause cleanup hr
      exact ⟨n, List.mem_append_right _ hn, hfault⟩

theorem repeated_attempted (again : Nat) : ∀ {σ : Session}, Sound s σ →
    Attempted s split again σ ((repeated (build s split) again).run σ).1
      ((repeated (build s split) again).run σ).2 := by
  induction again with
  | zero => exact fun h => (build_cases h.remembers split).attempted
  | succ again ih =>
    intro σ h
    have hfirst := build_cases h.remembers split
    simp only [repeated, Act.run_bind, Act.run_tryCatch, Act.run_discard]
    rcases hr : (build s split).run σ with ⟨r, τ⟩
    rw [hr] at hfirst
    have hrest := ih (hfirst.sound h)
    cases r with
    | ok n => exact hfirst.attempted.before hrest
    | error e => exact hfirst.attempted.before hrest

/-! ## Constructing -/

theorem construct_leads (h : Sound s σ) (split : Split) :
    Leads (outcome s split σ.entries σ.constructions) (demanded s split σ.entries) σ
      ((construct s split).run σ).1 ((construct s split).run σ).2 := by
  rw [construct, run_asUser]
  cases hs : s.context.scope σ.entries s.context.user with
  | refuses cause =>
    refine ⟨?_, ?_, Nat.le_refl _, fun _ _ => rfl, by simp, ?_⟩
    · rw [outcome, hs]
      rfl
    · simp [demanded, hs, Event.request?]
    · exact ⟨[], by simp [Event.call?], by simp, by simp⟩
  | runs again =>
    have hconstructions : (σ.record (.entered s.context.user)).constructions = σ.constructions := by
      simp [Session.constructions_eq, Event.request?]
    have ha : Attempted s split again (σ.record (.entered s.context.user)) _ _ :=
      repeated_attempted again (h.record rfl)
    rw [Attempted, hconstructions] at ha
    rw [outcome, demanded, hs]
    exact ha.record rfl rfl rfl rfl

end Attempts

end TableScan.Scan
