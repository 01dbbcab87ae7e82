/-
  TableScan.Proofs.Construction — what constructing the reader of a split does to the session.

  - `Session.requests`: what constructors were handed; `Session.calls`: the calls to readers.
  - `Reached`: the sessions of a scan, after any planning and constructing. In each of them
    every request is the one that its own split demands (`Reached.sound`).
  - `construct_yields`: in a scope that repeats no work, constructing builds one reader or
    none, and calls a reader only to close one that could not be wrapped.
-/

import TableScan.Proofs.Preparation

namespace TableScan.Scan

variable {α : Type}

/-! ## The calls of a session -/

inductive ReaderCall
  | pull (reader : Nat)
  | close (reader : Nat)
  deriving DecidableEq, Repr

def Event.call? : Event → Option ReaderCall
  | .pulled n => some (.pull n)
  | .closed n => some (.close n)
  | _ => none

def Event.request? : Event → Option Request
  | .constructed r => some r
  | _ => none

namespace Session

/-- The calls to readers, in order. -/
def calls (σ : Session) : List ReaderCall := σ.events.filterMap Event.call?

/-- What constructors were handed, in order. -/
def requests (σ : Session) : List Request := σ.events.filterMap Event.request?

@[simp] theorem calls_record (σ : Session) (e : Event) :
    (σ.record e).calls = σ.calls ++ e.call?.toList := by
  simp only [calls, record, List.filterMap_append]
  cases e <;> rfl

@[simp] theorem requests_record (σ : Session) (e : Event) :
    (σ.record e).requests = σ.requests ++ e.request?.toList := by
  simp only [requests, record, List.filterMap_append]
  cases e <;> rfl

@[simp] theorem built_record (σ : Session) (e : Event) : (σ.record e).built = σ.built := rfl

@[simp] theorem calls_setReader (σ : Session) (n : Nat) (r : Reader) : (σ.setReader n r).calls = σ.calls := rfl

@[simp] theorem requests_setReader (σ : Session) (n : Nat) (r : Reader) :
    (σ.setReader n r).requests = σ.requests := rfl

@[simp] theorem length_setReader (σ : Session) (n : Nat) (r : Reader) :
    (σ.setReader n r).built.length = σ.built.length := by
  simp [setReader]

end Session

theorem Planned.calls {s : Scan} {σ τ : Session} (h : Planned s σ τ) : τ.calls = σ.calls := by
  obtain ⟨trail, ht, hp⟩ := h.trail
  have : trail.filterMap Event.call? = [] := List.filterMap_eq_nil_iff.mpr fun e he => by
    have := hp e he
    cases e <;> first | rfl | cases this
  rw [Session.calls, ht, List.filterMap_append, this, List.append_nil, Session.calls]

theorem Planned.requests {s : Scan} {σ τ : Session} (h : Planned s σ τ) : τ.requests = σ.requests := by
  obtain ⟨trail, ht, hp⟩ := h.trail
  have : trail.filterMap Event.request? = [] := List.filterMap_eq_nil_iff.mpr fun e he => by
    have := hp e he
    cases e <;> first | rfl | cases this
  rw [Session.requests, ht, List.filterMap_append, this, List.append_nil, Session.requests]

/-! ## Runs -/

/-- The session once a constructor has built a reader as it was asked to. -/
def taken (r : Request) (reader : Reader) (σ : Session) : Session :=
  { σ.record (.constructed r) with built := σ.built ++ [⟨r.split.key, reader⟩] }

@[simp] theorem calls_taken (r : Request) (reader : Reader) (σ : Session) :
    (taken r reader σ).calls = σ.calls := Session.calls_record σ (.constructed r) |>.trans (List.append_nil _)

@[simp] theorem requests_taken (r : Request) (reader : Reader) (σ : Session) :
    (taken r reader σ).requests = σ.requests ++ [r] := Session.requests_record σ (.constructed r)

@[simp] theorem length_taken (r : Request) (reader : Reader) (σ : Session) :
    (taken r reader σ).built.length = σ.built.length + 1 := by
  simp [taken]

theorem reader_taken (r : Request) (reader : Reader) (σ : Session) :
    (taken r reader σ).reader σ.built.length = reader := by
  simp [Session.reader, taken]

theorem run_callConstructor (s : Scan) (r : Request) (σ : Session) :
    (callConstructor s r).run σ = match s.constructors r.strategy σ.constructions r with
      | .error cause => (.error (.construction (.constructor r.strategy cause)), σ.record (.constructed r))
      | .ok reader => (.ok σ.built.length, taken r reader σ) := by
  simp only [callConstructor, Act.run_bind, Act.run_get, Act.run_record]
  cases s.constructors r.strategy σ.constructions r <;> rfl

/-- The warning of a reader that could be neither wrapped nor closed. -/
def warnUnwrapped (split : Split) (fault : Option ReaderFault) (σ : Session) : Session :=
  match fault with
  | none => σ
  | some fault =>
    σ.warn ("split " ++ split.key ++ ": failed to release unwrapped reader: " ++ fault.message)

@[simp] theorem tableRows_warnUnwrapped (split : Split) (fault : Option ReaderFault) (σ : Session) :
    (warnUnwrapped split fault σ).tableRows = σ.tableRows := by
  cases fault <;> rfl

@[simp] theorem built_warnUnwrapped (split : Split) (fault : Option ReaderFault) (σ : Session) :
    (warnUnwrapped split fault σ).built = σ.built := by
  cases fault <;> rfl

@[simp] theorem calls_warnUnwrapped (split : Split) (fault : Option ReaderFault) (σ : Session) :
    (warnUnwrapped split fault σ).calls = σ.calls := by
  cases fault <;> rfl

@[simp] theorem requests_warnUnwrapped (split : Split) (fault : Option ReaderFault) (σ : Session) :
    (warnUnwrapped split fault σ).requests = σ.requests := by
  cases fault <;> rfl

theorem run_wrap (s : Scan) (split : Split) (n : Nat) (σ : Session) :
    let allocator := allocatorBelow s.context.allocator split.key
    let τ := σ.record (.wrapped split.key allocator)
    (wrap s split n).run σ = match s.composite.wrap split allocator (σ.reader n) with
      | .ok wrapped => (.ok (), τ.setReader n wrapped)
      | .error cause => (.error (.construction (.wrap cause (σ.reader n).closeFault)),
          warnUnwrapped split (σ.reader n).closeFault (τ.record (.closed n))) := by
  intro allocator τ
  have hreader : τ.reader n = σ.reader n := rfl
  simp only [wrap, Act.run_bind, Act.run_get, Act.run_record]
  change ExceptT.run (match s.composite.wrap split allocator (τ.reader n) with
    | .ok wrapped => (_ : Act Unit)
    | .error cause => _) τ = _
  rw [hreader]
  cases s.composite.wrap split allocator (σ.reader n) with
  | ok wrapped => rfl
  | error cause =>
    simp only [Act.run_bind, Act.run_modifyGet, Session.close, hreader, Reader.close]
    cases (σ.reader n).closeFault <;> rfl

theorem run_asUser (s : Scan) (work : Act α) (σ : Session) :
    (asUser s work).run σ = match s.context.scope σ.entries s.context.user with
      | .runs again =>
        let result := (repeated work again).run (σ.record (.entered s.context.user))
        (result.1, result.2.record (.left s.context.user))
      | .refuses cause => (.error (.construction (.identity s.context.user cause)),
          (σ.record (.entered s.context.user)).record (.left s.context.user)) := by
  simp only [asUser, Act.run_bind, Act.run_get, Act.run_record, Act.run_tryCatch]
  cases s.context.scope σ.entries s.context.user with
  | refuses cause => rfl
  | runs again =>
    simp only [Act.run_bind]
    rcases (repeated work again).run (σ.record (.entered s.context.user)) with ⟨r, τ⟩
    cases r <;> rfl

/-! ## Building a reader -/

/-- The session when the reader is about to be wrapped. -/
def wrapping (s : Scan) (split : Split) (p : Prepared) (reader : Reader) (τ : Session) : Session :=
  (taken (request s split p) reader τ).record
    (.wrapped split.key (allocatorBelow s.context.allocator split.key))

/-- All that building the reader of a split can come to. -/
inductive Building (s : Scan) (split : Split) (σ : Session) : Except SplitFault Nat → Session → Prop
  | unplanned {e : SplitFault} {τ : Session} : outlook s split = .error e → Planned s σ τ →
      Building s split σ (.error e) τ
  | unconstructed {p : Prepared} {τ : Session} {cause : String} : outlook s split = .ok p → Planned s σ τ →
      s.constructors p.plan.strategy τ.constructions (request s split p) = .error cause →
      Building s split σ (.error (.construction (.constructor p.plan.strategy cause)))
        (τ.record (.constructed (request s split p)))
  | wrapped {p : Prepared} {τ : Session} {reader widened : Reader} : outlook s split = .ok p → Planned s σ τ →
      s.constructors p.plan.strategy τ.constructions (request s split p) = .ok reader →
      s.composite.wrap split (allocatorBelow s.context.allocator split.key) reader = .ok widened →
      Building s split σ (.ok σ.built.length)
        ((wrapping s split p reader τ).setReader σ.built.length widened)
  | unwrapped {p : Prepared} {τ : Session} {reader : Reader} {cause : String} : outlook s split = .ok p →
      Planned s σ τ → s.constructors p.plan.strategy τ.constructions (request s split p) = .ok reader →
      s.composite.wrap split (allocatorBelow s.context.allocator split.key) reader = .error cause →
      Building s split σ (.error (.construction (.wrap cause reader.closeFault)))
        (warnUnwrapped split reader.closeFault
          ((wrapping s split p reader τ).record (.closed σ.built.length)))

theorem build_cases {s : Scan} {σ : Session} (h : Remembers s σ) (split : Split) :
    Building s split σ ((build s split).run σ).1 ((build s split).run σ).2 := by
  obtain ⟨τ, hτ, hp⟩ := prepare_settles s split σ h
  simp only [build, Act.run_bind, hτ]
  cases ho : outlook s split with
  | error e => exact .unplanned ho hp
  | ok p =>
    simp only [run_callConstructor]
    cases hc : s.constructors (request s split p).strategy τ.constructions (request s split p) with
    | error cause => exact .unconstructed ho hp hc
    | ok reader =>
      simp only [run_wrap, reader_taken]
      cases hw : s.composite.wrap split (allocatorBelow s.context.allocator split.key) reader with
      | ok widened =>
        have := Building.wrapped ho hp hc hw
        rw [← hp.built] at this
        exact this
      | error cause =>
        have := Building.unwrapped ho hp hc hw
        rw [← hp.built] at this
        exact this

/-! ## Sessions that a scan reaches -/

/-- What a session remembers is right, and so is what constructors were handed. -/
structure Sound (s : Scan) (σ : Session) : Prop where
  remembers : Remembers s σ
  requested : ∀ r ∈ σ.requests, ∃ p, outlook s r.split = .ok p ∧ r = request s r.split p

section Sound

variable {s : Scan} {σ τ : Session}

theorem sound_start : Sound s .start := by
  refine ⟨remembers_start s, ?_⟩
  intro r hr
  cases hr

theorem Sound.planned (h : Sound s σ) (hp : Planned s σ τ) : Sound s τ :=
  ⟨hp.remembers h.remembers, hp.requests ▸ h.requested⟩

/-- Whatever hands nothing to a constructor and leaves what is remembered alone. -/
theorem Sound.of_eq (h : Sound s σ) (hm : τ.tableRows = σ.tableRows) (hr : τ.requests = σ.requests) :
    Sound s τ := by
  refine ⟨?_, hr ▸ h.requested⟩
  intro rows hrows
  exact h.remembers rows (hm ▸ hrows)

theorem Sound.record (h : Sound s σ) {e : Event} (he : e.request? = none) : Sound s (σ.record e) :=
  h.of_eq rfl (by simp [he])

theorem Sound.constructed (h : Sound s σ) {split : Split} {p : Prepared} (ho : outlook s split = .ok p) :
    Sound s (σ.record (.constructed (request s split p))) := by
  refine ⟨h.remembers, ?_⟩
  intro r hr
  rw [Session.requests_record] at hr
  rcases List.mem_append.mp hr with hr | hr
  · exact h.requested r hr
  · obtain rfl : r = request s split p := by simpa [Event.request?] using hr
    exact ⟨p, ho, rfl⟩

theorem Building.sound {split : Split} {r : Except SplitFault Nat} (hb : Building s split σ r τ)
    (h : Sound s σ) : Sound s τ := by
  cases hb with
  | unplanned _ hp => exact h.planned hp
  | unconstructed ho hp _ => exact (h.planned hp).constructed ho
  | wrapped ho hp _ _ => exact ((h.planned hp).constructed ho).of_eq rfl (by simp [wrapping, Event.request?])
  | unwrapped ho hp _ _ =>
    exact ((h.planned hp).constructed ho).of_eq (by simp; rfl) (by simp [wrapping, Event.request?])

/-- What holds whenever a piece of work that keeps `I` is done, holds after any repetition of it. -/
theorem run_repeated_ends {α : Type} {I : Session → Prop} {P : Except SplitFault α → Session → Prop}
    {work : Act α} (hw : ∀ σ, I σ → I (work.run σ).2) (hp : ∀ σ, I σ → P (work.run σ).1 (work.run σ).2)
    (again : Nat) : ∀ σ, I σ → P ((repeated work again).run σ).1 ((repeated work again).run σ).2 := by
  induction again with
  | zero => exact hp
  | succ again ih =>
    intro σ hσ
    have hfirst := hw σ hσ
    simp only [repeated, Act.run_bind, Act.run_tryCatch, Act.run_discard]
    rcases hr : work.run σ with ⟨r, τ⟩
    rw [hr] at hfirst
    cases r with
    | ok a => exact ih τ hfirst
    | error e => exact ih τ hfirst

theorem construct_sound (h : Sound s σ) (split : Split) : Sound s ((construct s split).run σ).2 := by
  rw [construct, run_asUser]
  cases s.context.scope σ.entries s.context.user with
  | refuses cause => exact (h.record rfl).record rfl
  | runs again =>
    refine Sound.record ?_ rfl
    have hbuild : ∀ τ, Sound s τ → Sound s ((build s split).run τ).2 :=
      fun τ hτ => (build_cases hτ.remembers split).sound hτ
    exact run_repeated_ends (P := fun _ τ => Sound s τ) hbuild hbuild again _ (h.record rfl)

/-- If the scope runs the work, constructing comes to what building comes to. -/
theorem construct_ends {P : Except SplitFault Nat → Session → Prop} {split : Split} {again : Nat}
    (h : Sound s σ) (hscope : s.context.scope σ.entries s.context.user = .runs again)
    (hbuild : ∀ τ r υ, Building s split τ r υ → P r υ) (hrecord : ∀ r τ e, P r τ → P r (τ.record e)) :
    P ((construct s split).run σ).1 ((construct s split).run σ).2 := by
  rw [construct, run_asUser, hscope]
  refine hrecord _ _ _ ?_
  refine run_repeated_ends (I := Sound s) ?_ ?_ again _ (h.record rfl)
  · exact fun τ hτ => (build_cases hτ.remembers split).sound hτ
  · exact fun τ hτ => hbuild τ _ _ (build_cases hτ.remembers split)

end Sound

/-- The sessions of a scan, whatever splits it plans and constructs, and whatever is done with the
readers. -/
inductive Reached (s : Scan) : Session → Prop
  | start : Reached s .start
  | planned {σ : Session} (split : Split) : Reached s σ → Reached s ((plan s split).run σ).2
  | constructed {σ : Session} (split : Split) : Reached s σ → Reached s ((construct s split).run σ).2
  | pulled {σ : Session} (reader : Nat) : Reached s σ → Reached s (σ.pull reader).2
  | closed {σ : Session} (reader : Nat) : Reached s σ → Reached s (σ.close reader).2
  | warned {σ : Session} (text : String) : Reached s σ → Reached s (σ.warn text)

theorem Reached.sound {s : Scan} {σ : Session} (h : Reached s σ) : Sound s σ := by
  induction h with
  | start => exact sound_start
  | planned split _ ih =>
    obtain ⟨τ, hτ, hp⟩ := plan_settles s split _ ih.remembers
    rw [hτ]
    exact ih.planned hp
  | constructed split _ ih => exact construct_sound ih split
  | pulled n _ ih => exact ih.of_eq rfl (by simp [Session.pull, Event.request?])
  | closed n _ ih => exact ih.record rfl
  | warned text _ ih => exact ih.of_eq rfl rfl

/-! ## Scopes that repeat no work -/

/-- The scope runs work once, or refuses it. -/
def Scope.NeverRepeats (scope : Scope) : Prop :=
  ∀ entries user again, scope entries user = .runs again → again = 0

theorem Scope.current_neverRepeats : Scope.current.NeverRepeats := by
  intro entries user again h
  cases h
  rfl

/-- The readers built, and the calls to them, while the reader of one split is constructed. -/
inductive Yield (σ : Session) : Except SplitFault Nat → Session → Prop
  | nothing {fault : SplitFault} {τ : Session} : τ.built.length = σ.built.length → τ.calls = σ.calls →
      Yield σ (.error fault) τ
  | reader {τ : Session} : τ.built.length = σ.built.length + 1 → τ.calls = σ.calls →
      Yield σ (.ok σ.built.length) τ
  | lost {fault : SplitFault} {τ : Session} : τ.built.length = σ.built.length + 1 →
      τ.calls = σ.calls ++ [.close σ.built.length] → Yield σ (.error fault) τ

section Yield

variable {s : Scan} {split : Split} {σ τ : Session} {r : Except SplitFault Nat}

theorem Building.yield (h : Building s split σ r τ) : Yield σ r τ := by
  cases h with
  | unplanned _ hp => exact .nothing (congrArg List.length hp.built) hp.calls
  | unconstructed _ hp _ =>
    exact .nothing (congrArg List.length hp.built) (by simp [Event.call?, hp.calls])
  | wrapped _ hp _ _ =>
    exact .reader (by simp [wrapping, hp.built]) (by simp [wrapping, Event.call?, hp.calls])
  | unwrapped _ hp _ _ =>
    exact .lost (by simp [wrapping, hp.built]) (by simp [wrapping, Event.call?, hp.calls])

theorem Yield.record (h : Yield σ r τ) {e : Event} (he : e.call? = none) : Yield σ r (τ.record e) := by
  cases h with
  | nothing hb hc => exact .nothing hb (by simp [he, hc])
  | reader hb hc => exact .reader hb (by simp [he, hc])
  | lost hb hc => exact .lost hb (by simp [he, hc])

theorem Yield.after (e : Event) (he : e.call? = none) (h : Yield (σ.record e) r τ) : Yield σ r τ := by
  have hcalls : (σ.record e).calls = σ.calls := by simp [he]
  cases h with
  | nothing hb hc => exact .nothing hb (hc.trans hcalls)
  | reader hb hc => exact .reader hb (hc.trans hcalls)
  | lost hb hc => exact .lost hb (hc.trans (congrArg (· ++ [.close σ.built.length]) hcalls))

theorem construct_yields (hscope : s.context.scope.NeverRepeats) (h : Sound s σ)
    (hc : (construct s split).run σ = (r, τ)) : Yield σ r τ := by
  rw [construct, run_asUser] at hc
  cases hs : s.context.scope σ.entries s.context.user with
  | refuses cause =>
    rw [hs] at hc
    cases hc
    exact .nothing rfl (by simp [Event.call?])
  | runs again =>
    obtain rfl := hscope _ _ _ hs
    rw [hs] at hc
    cases hc
    have hb := build_cases (h.record (e := .entered s.context.user) rfl).remembers split
    exact (hb.yield.record rfl).after _ rfl

end Yield

end TableScan.Scan
