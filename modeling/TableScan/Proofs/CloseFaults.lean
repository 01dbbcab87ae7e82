/-
  TableScan.Proofs.CloseFaults — every reader that fails to close is told of once, and in the right
  place.

  What a caller hears of such failures stands in the answers: that of a handle's own close, that of
  a split that failed, and that of closing all. `Placed` says for one state of a run what
  each of these answers holds; `ToldOnce` compares all answers of a run with all calls
  to close a reader: the failures are the same, in the same order. Only a drop has no answer,
  and what fails there is warned of.

  - `Moved.held`: slots only ever lose readers, or gain one that is new (`Numbered`).
  - `Moved.told`: the failures of one move, against its answer and its warnings.
-/

import Mathlib.Data.List.Basic
import TableScan.Proofs.Outcome
import TableScan.Proofs.Release

namespace TableScan.Scan

/-! ## Readers in slots are new -/

/-- Slots hold distinct readers, all of them built. -/
structure Numbered (q : Sequence) : Prop where
  nodup : (holding q.slots).Nodup
  built : ∀ n ∈ holding q.slots, n < q.session.built.length

section Held

variable {s : Scan} {q q' : Sequence} {m : Move} {a : Answer}

theorem holding_set_sublist {slots : List Slot} {h : Nat} {slot : Slot} (hs : slots[h]? = some slot) :
    (holding (slots.set h slot.emptied)).Sublist (holding slots) := by
  obtain ⟨before, after, rfl, hset⟩ := split_at_slot hs
  rw [hset, holding_append, holding_append]
  refine (List.Sublist.refl _).append ?_
  simp only [holding, List.filterMap_cons, Slot.number?_emptied]
  cases slot.number? with
  | none => exact List.Sublist.refl _
  | some n => exact List.sublist_cons_self ..

theorem Moved.held (hm : Moved s q m a q') (hr : Sound s q.session) :
    (holding q'.slots).Sublist (holding q.slots) ∨
      ∃ n, holding q'.slots = holding q.slots ++ [n] ∧ q.session.built.length ≤ n ∧
        n < q'.session.built.length := by
  cases hm with
  | gone _ _ | unheld _ _ | exhausted _ _ | ranOut _ _ _ | refused _ _ | closedBefore _ _ | pulled _ _ =>
    exact .inl (List.Sublist.refl _)
  | nothingToRead _ _ =>
    have : holding [⟨emptyScanKey, some .empty, true⟩] = [] := rfl
    rw [holding_append, this, List.append_nil]
    exact .inl (List.Sublist.refl _)
  | @yielded _ number split σ _ _ _ hc =>
    have hl := construct_leads hr split
    rw [hc] at hl
    exact .inr ⟨number, holding_append .., hl.numbered number rfl⟩
  | failed _ _ _ _ | closedAll _ | dropped _ => exact .inl (by simp)
  | closed hs _ => exact .inl (holding_set_sublist (Sequence.slot?_eq_some hs))
  | @gaveUp _ slot hs =>
    have : holding (q.slots.set _ { slot with handle := false }) = holding q.slots :=
      holding_set (Sequence.slot?_eq_some hs) rfl
    rw [this]
    exact .inl (List.Sublist.refl _)

theorem Moved.built_le (hm : Moved s q m a q') (hr : Sound s q.session) :
    q.session.built.length ≤ q'.session.built.length := by
  cases hm with
  | @yielded _ _ split _ _ _ _ hc | @failed _ split _ _ _ _ _ hc =>
    have hl := construct_leads hr split
    rw [hc] at hl
    exact hl.built
  | @pulled _ _ held _ _ | @closed _ _ held _ _ =>
    cases held with
    | empty => exact Nat.le_refl _
    | built n => simp [Sequence.pullHeld, Session.pull, Sequence.closeHeld, Session.close]
  | dropped _ => simp [Session.closeEach]
  | _ => exact Nat.le_refl _

theorem Moved.numbered (hm : Moved s q m a q') (hr : Sound s q.session) (h : Numbered q) : Numbered q' := by
  have hle := hm.built_le hr
  rcases hm.held hr with hsub | ⟨n, hn, hge, hlt⟩
  · exact ⟨h.nodup.sublist hsub, fun k hk => Nat.lt_of_lt_of_le (h.built k (hsub.subset hk)) hle⟩
  · refine ⟨?_, ?_⟩
    · rw [hn, List.nodup_append]
      refine ⟨h.nodup, by simp, ?_⟩
      intro k hk k' hk'
      have := h.built k hk
      have := List.mem_singleton.mp hk'
      omega
    · intro k hk
      rw [hn, List.mem_append, List.mem_singleton] at hk
      rcases hk with hk | rfl
      · exact Nat.lt_of_lt_of_le (h.built k hk) hle
      · exact hlt

/-- A reader that was built and is in no slot never gets into one. -/
theorem Moved.retired (hm : Moved s q m a q') (hr : Sound s q.session) {n : Nat}
    (h : n < q.session.built.length ∧ n ∉ holding q.slots) :
    n < q'.session.built.length ∧ n ∉ holding q'.slots := by
  obtain ⟨hlt, hn⟩ := h
  refine ⟨Nat.lt_of_lt_of_le hlt (hm.built_le hr), ?_⟩
  rcases hm.held hr with hsub | ⟨k, hk, hge, -⟩
  · exact fun h => hn (hsub.subset h)
  · rw [hk, List.mem_append, List.mem_singleton]
    rintro (h | rfl)
    · exact hn h
    · omega

end Held

/-! ## Slots in the order of the splits -/

/-- The slots are those of the first splits, or of a scan without splits. -/
structure Lined (s : Scan) (q : Sequence) : Prop where
  keys : s.part.splits ≠ [] → q.slots.map (·.split) = (s.part.splits.take q.slots.length).map (·.key)
  reading : ∀ n, q.source = .splits n → q.slots.length = n
  blank : q.source = .emptyScan → s.part.splits = []

section Lined

variable {s : Scan} {q q' : Sequence} {m : Move} {a : Answer}

theorem start_lined (s : Scan) : Lined s (.start s) := by
  unfold Sequence.start
  refine ⟨fun _ => rfl, ?_, ?_⟩
  · intro n hn
    dsimp only at hn
    split at hn
    · cases hn
    · cases hn
      rfl
  · intro hb
    dsimp only at hb
    split at hb
    · exact List.isEmpty_iff.mp ‹_›
    · cases hb

theorem Worn.splits {slots slots' : List Slot} (h : Worn slots slots') :
    slots'.map (·.split) = slots.map (·.split) := by
  refine List.ext_getElem? ?_
  intro i
  rw [List.getElem?_map, List.getElem?_map]
  cases hs' : slots'[i]? with
  | none =>
    have hlen := List.getElem?_eq_none_iff.mp hs'
    rw [List.getElem?_eq_none_iff.mpr (h.length ▸ hlen)]
  | some slot' =>
    obtain ⟨slot, hs, hsplit, -⟩ := h.kept i slot' hs'
    rw [hs, Option.map_some, Option.map_some, hsplit]

theorem Lined.worn (h : Lined s q) (hw : Worn q.slots q'.slots)
    (hs : q'.source = q.source ∨ q'.source = .finished) : Lined s q' := by
  refine ⟨?_, ?_, ?_⟩
  · intro hne
    rw [hw.splits, hw.length, h.keys hne]
  · intro n hn
    rcases hs with hs | hs
    · exact hw.length.trans (h.reading n (hs ▸ hn))
    · cases hs.symm.trans hn
  · intro hb
    rcases hs with hs | hs
    · exact h.blank (hs ▸ hb)
    · cases hs.symm.trans hb

theorem Moved.lined (hm : Moved s q m a q') (h : Lined s q) : Lined s q' := by
  cases hm with
  | gone _ _ | unheld _ _ | exhausted _ _ | refused _ _ | closedBefore _ _ => exact h
  | pulled _ _ => exact h.worn (worn_refl _) (.inl rfl)
  | ranOut _ _ _ => exact h.worn (worn_refl _) (.inr rfl)
  | nothingToRead _ he => exact ⟨fun hne => absurd (h.blank he) hne, by simp, by simp⟩
  | @yielded n number split σ _ hs hn _ =>
    have hlen := h.reading n hs
    refine ⟨?_, ?_, by simp⟩
    · intro hne
      simp only [List.map_append, List.length_append, List.length_singleton, h.keys hne, hlen,
        List.take_add_one, hn]
      rfl
    · intro k hk
      cases hk
      simp [hlen]
  | closed hs _ => exact h.worn (worn_set (Sequence.slot?_eq_some hs) rfl (.inr rfl)) (.inl rfl)
  | gaveUp hs => exact h.worn (worn_set (Sequence.slot?_eq_some hs) rfl (.inl rfl)) (.inl rfl)
  | failed _ _ _ _ | closedAll _ | dropped _ => exact h.worn (worn_emptied _) (.inr rfl)

end Lined

/-! ## What each answer holds -/

/-- The failures to come if the readers still in their slots are closed. -/
def Sequence.openFaults (q : Sequence) : List ReleaseFault := q.slots.filterMap (Slot.fault? q.session)

/-- Where failures to close stand in the answers of a run that came to this state. -/
structure Placed (s : Scan) (q : Sequence) : Prop where
  /-- A handle's own failure is told to whoever closes it, and nothing else happens. -/
  handle : ∀ h slot n, q.slot? h = some slot → slot.reader = some (.built n) →
    q.move s (.close h) = (.close (q.session.reader n).close,
      { q with session := q.session.record (.closed n), slots := q.slots.set h slot.emptied })
  /-- A split fails with a fault of its own, and behind it stand the readers released on its account. -/
  next : ∀ f, (q.move s .next).1 = .next (.failed f) ↔ ∃ n split fault, q.ended = false ∧
    q.source = .splits n ∧ s.part.splits[n]? = some split ∧
    outcome s split q.session.entries q.session.constructions = .error fault ∧
    f = .ofSplit split.key fault q.openFaults
  /-- If a reader could not be wrapped, its own failure belongs to that fault; it is in no slot. -/
  wrapping : ∀ key cause cleanup suppressed,
    (q.move s .next).1 = .next (.failed (.construction key (.wrap cause cleanup) suppressed)) →
    ∃ split p before reader n, split.key = key ∧ suppressed = q.openFaults ∧ outlook s split = .ok p ∧
      s.constructors p.plan.strategy before (request s split p) = .ok reader ∧
      s.composite.wrap split (allocatorBelow s.context.allocator split.key) reader = .error cause ∧
      cleanup = reader.closeFault ∧ n ∉ holding q.slots ∧
      .close n ∈ (q.move s .next).2.session.calls ∧
      ((q.move s .next).2.session.reader n).closeFault = cleanup
  /-- Closing all fails exactly if one of the open readers does, and then with all that do. -/
  closeAll : q.ended = false → (q.move s .closeAll).1 = .closeAll
    (if ∀ n ∈ holding q.slots, (q.session.reader n).closeFault = none then .ok ()
      else .error (.release q.openFaults))
  /-- A drop warns of them. -/
  drop : q.ended = false →
    (q.move s .drop).2.session.warnings = q.session.warnings ++ q.openFaults.map ReleaseFault.message
  /-- Whatever fails to close, all open readers are closed in order. -/
  released : ∀ m, q.ended = false → Ends (m, (q.move s m).1) → ∃ lost : List Nat,
    (∀ n ∈ lost, n ∉ holding q.slots) ∧ holding (q.move s m).2.slots = [] ∧
    (q.move s m).2.session.calls = q.session.calls ++ lost.map .close ++ (holding q.slots).map .close
  /-- The order is that of the splits. -/
  ordered : s.part.splits ≠ [] →
    q.slots.map (·.split) = (s.part.splits.take q.slots.length).map (·.key)

section Placed

variable {s : Scan} {q : Sequence}

theorem fault?_congr {σ τ : Session} {slot : Slot} (h : ∀ n, slot.number? = some n → τ.reader n = σ.reader n) :
    slot.fault? τ = slot.fault? σ := by
  unfold Slot.fault?
  cases hn : slot.number? with
  | none => rfl
  | some n => rw [Option.bind_some, Option.bind_some, h n hn]

theorem faults_congr {σ τ : Session} {slots : List Slot} (h : ∀ n ∈ holding slots, τ.reader n = σ.reader n) :
    slots.filterMap (Slot.fault? τ) = slots.filterMap (Slot.fault? σ) := by
  refine List.filterMap_congr ?_
  intro slot hs
  refine fault?_congr ?_
  intro n hn
  exact h n (List.mem_filterMap.mpr ⟨slot, hs, hn⟩)

theorem openFaults_eq_nil : q.openFaults = [] ↔ ∀ n ∈ holding q.slots, (q.session.reader n).closeFault = none := by
  simp only [Sequence.openFaults, List.filterMap_eq_nil_iff, Slot.fault?, holding, List.mem_filterMap,
    Option.bind_eq_none_iff, Option.map_eq_none_iff]
  constructor
  · intro h n hn
    obtain ⟨slot, hs, hn⟩ := hn
    exact h slot hs n hn
  · intro h slot hs n hn
    exact h n ⟨slot, hs, hn⟩

/-- A fault of wrapping comes from a reader that a constructor built. -/
theorem outcome_wrap {split : Split} {entries before : Nat} {cause : String} {cleanup : Option ReaderFault}
    (h : outcome s split entries before = .error (.construction (.wrap cause cleanup))) :
    ∃ p k reader, outlook s split = .ok p ∧ s.constructors p.plan.strategy k (request s split p) = .ok reader ∧
      s.composite.wrap split (allocatorBelow s.context.allocator split.key) reader = .error cause ∧
      cleanup = reader.closeFault := by
  unfold outcome at h
  split at h
  · rename_i again _
    unfold readerOf at h
    cases ho : outlook s split with
    | error e =>
      rw [ho] at h
      cases (neverWraps_outlook s split e ho).symm.trans (congrArg _ (Except.error.inj h))
    | ok p =>
      cases hc : s.constructors p.plan.strategy (before + again) (request s split p) with
      | error e => simp [ho, hc, bind, Except.bind, orCause] at h
      | ok reader =>
        cases hw : s.composite.wrap split (allocatorBelow s.context.allocator split.key) reader with
        | ok widened => simp [ho, hc, hw, bind, Except.bind, orCause] at h
        | error cause' =>
          obtain ⟨rfl, rfl⟩ : cause' = cause ∧ reader.closeFault = cleanup := by
            simpa [ho, hc, hw, bind, Except.bind, orCause] using h
          exact ⟨p, _, reader, rfl, hc, hw, rfl⟩
  · cases h

theorem ofSplit_wrap {key key' : String} {fault : SplitFault} {cause : String} {cleanup : Option ReaderFault}
    {l l' : List ReleaseFault} (h : ScanFault.ofSplit key fault l = .construction key' (.wrap cause cleanup) l') :
    key = key' ∧ fault = .construction (.wrap cause cleanup) ∧ l = l' := by
  cases fault with
  | capability e => cases h
  | construction e =>
    obtain ⟨hkey, hfault, hl⟩ := ScanFault.construction.inj h
    exact ⟨hkey, congrArg _ hfault, hl⟩

theorem move_next_failed {f : ScanFault} (h : (q.move s .next).1 = .next (.failed f)) :
    ∃ n split fault σ, q.ended = false ∧ q.source = .splits n ∧ s.part.splits[n]? = some split ∧
      (construct s split).run q.session = (.error fault, σ) ∧
      q.move s .next = (.next (.failed (.ofSplit split.key fault (q.slots.filterMap (Slot.fault? σ)))),
        { q with session := σ.closeEach (holding q.slots), source := .finished,
                 slots := q.slots.map Slot.emptied }) := by
  have hm := next_cases s q
  rcases hq : q.move s .next with ⟨a, q'⟩
  rw [hq] at hm h
  cases hm with
  | failed he hs hn hc => exact ⟨_, _, _, _, he, hs, hn, hc, rfl⟩
  | gone _ hmoves => simp_all
  | unheld _ hmoves => simp at hmoves
  | _ => cases h

theorem Numbered.faults_after (h : Numbered q) (hr : Sound s q.session) {split : Split}
    {r : Except SplitFault Nat} {σ : Session} (hc : (construct s split).run q.session = (r, σ)) :
    q.slots.filterMap (Slot.fault? σ) = q.openFaults := by
  have hl := construct_leads hr split
  rw [hc] at hl
  exact faults_congr fun n hn => hl.readers n (h.built n hn)

theorem closeAll_answer (he : q.ended = false) : (q.move s .closeAll).1 = .closeAll
    (if ∀ n ∈ holding q.slots, (q.session.reader n).closeFault = none then .ok ()
      else .error (.release q.openFaults)) := by
  have hm := closeAll_cases s q
  rcases hq : q.move s .closeAll with ⟨a, q'⟩
  rw [hq] at hm
  cases hm with
  | gone hended _ => cases he.symm.trans hended
  | unheld _ hmoves => simp at hmoves
  | closedAll _ => simp only [← openFaults_eq_nil, List.isEmpty_iff]; rfl

theorem drop_warnings (he : q.ended = false) :
    (q.move s .drop).2.session.warnings = q.session.warnings ++ q.openFaults.map ReleaseFault.message := by
  have hm := drop_cases s q
  rcases hq : q.move s .drop with ⟨a, q'⟩
  rw [hq] at hm
  cases hm with
  | gone hended _ => cases he.symm.trans hended
  | unheld _ hmoves => simp at hmoves
  | dropped _ => exact congrArg Session.warnings (Session.warnEach_eq _ _)

theorem Moved.released {q' : Sequence} {m : Move} {a : Answer} (hm : Moved s q m a q') (hr : Sound s q.session)
    (hn : Numbered q) (hended : q.ended = false) (he : Ends (m, a)) :
    ∃ lost : List Nat, (∀ n ∈ lost, n ∉ holding q.slots) ∧ holding q'.slots = [] ∧
      q'.session.calls = q.session.calls ++ lost.map .close ++ (holding q.slots).map .close := by
  cases hm with
  | @failed _ split _ σ _ _ _ hc =>
    have hl := construct_leads hr split
    rw [hc] at hl
    obtain ⟨lost, hcalls, hnew, -⟩ := hl.closed
    refine ⟨lost, ?_, holding_emptied _, by simp [hcalls]⟩
    intro n hlost hheld
    have := (hnew n hlost).1
    have := hn.built n hheld
    omega
  | closedAll _ => exact ⟨[], by simp, holding_emptied _, by simp⟩
  | dropped _ => exact ⟨[], by simp, holding_emptied _, by simp⟩
  | gone h _ => cases hended.symm.trans h
  | unheld _ hmoves =>
    simp only [List.mem_cons, List.not_mem_nil, or_false] at hmoves
    rcases hmoves with rfl | rfl | rfl <;> cases he
  | _ => cases he

theorem placed (hr : Sound s q.session) (hn : Numbered q) (hl : Lined s q) : Placed s q := by
  refine ⟨?_, ?_, ?_, closeAll_answer, drop_warnings, ?_, hl.keys⟩
  · intro h slot n hs hslot
    simp only [Sequence.move, Sequence.close, hs, hslot]
    rfl
  · intro f
    constructor
    · intro h
      obtain ⟨n, split, fault, σ, he, hsrc, hsplit, hc, hmove⟩ := move_next_failed h
      have ho := (construct_leads hr split).answer
      rw [hc] at ho
      rw [hmove, hn.faults_after hr hc] at h
      exact ⟨n, split, fault, he, hsrc, hsplit, ho.symm, (Sequence.Next.failed.inj (Answer.next.inj h)).symm⟩
    · intro h
      obtain ⟨n, split, fault, he, hsrc, hsplit, ho, rfl⟩ := h
      have hc := (construct_leads hr split).answer
      rw [move_next_splits he hsrc hsplit]
      rcases hrun : (construct s split).run q.session with ⟨r, σ⟩
      rw [hrun, ho] at hc
      cases r with
      | ok number => cases hc
      | error e =>
        obtain rfl := Except.error.inj hc
        dsimp only
        rw [hn.faults_after hr hrun]
  · intro key cause cleanup suppressed h
    obtain ⟨k, split, fault, σ, he, hsrc, hsplit, hc, hmove⟩ := move_next_failed h
    rw [hmove] at h
    obtain ⟨hkey, rfl, hsuppressed⟩ := ofSplit_wrap (Sequence.Next.failed.inj (Answer.next.inj h))
    rw [hn.faults_after hr hc] at hsuppressed
    have hleads := construct_leads hr split
    rw [hc] at hleads
    obtain ⟨p, before, reader, ho, hreader, hwrap, hcleanup⟩ := outcome_wrap hleads.answer.symm
    obtain ⟨lost, hcalls, hnew, hlost⟩ := hleads.closed
    obtain ⟨n, hmem, hfault⟩ := hlost cause cleanup rfl
    refine ⟨split, p, before, reader, n, hkey, hsuppressed.symm, ho, hreader, hwrap, hcleanup, ?_, ?_, ?_⟩
    · intro hheld
      have := (hnew n hmem).1
      have := hn.built n hheld
      omega
    · rw [hmove]
      simp [hcalls, hmem]
    · rw [hmove]
      exact hfault
  · intro m he hends
    exact (move_cases s q m).released hr hn he hends

end Placed

/-! ## Failures and reports of whole runs -/

/-- How a call to a reader fails to close it, if it does. -/
def ReaderCall.fault? (σ : Session) : ReaderCall → Option ReaderFault
  | .close n => (σ.reader n).closeFault
  | .pull _ => none

/-- The calls that failed to close a reader, in order. -/
def Session.closeFaults (σ : Session) : List ReaderFault := σ.calls.filterMap (ReaderCall.fault? σ)

/-- How the reader that could not be wrapped failed to close. -/
def SplitFault.cleanup? : SplitFault → Option ReaderFault
  | .construction (.wrap _ cleanup) => cleanup
  | _ => none

/-- How the reader that work on a split lost failed to close. -/
def lostReader? : Except SplitFault Nat → Option ReaderFault
  | .ok _ => none
  | .error e => e.cleanup?

def ScanFault.cleanup? : ScanFault → Option ReaderFault
  | .construction _ (.wrap _ cleanup) _ => cleanup
  | _ => none

/-- The failures to close that an answer tells of. -/
def told : Move × Answer → List ReaderFault
  | (_, .close (.error cause)) => [cause]
  | (_, .next (.failed fault)) => fault.cleanup?.toList ++ fault.suppressed.map (·.cause)
  | (_, .closeAll (.error fault)) => fault.suppressed.map (·.cause)
  | _ => []

def unwrappedNote (key : String) (fault : ReaderFault) : String :=
  "split " ++ key ++ ": failed to release unwrapped reader: " ++ fault.message

/-- The warning besides an answer. -/
def warned : Move × Answer → List String
  | (_, .next (.failed fault)) => fault.cleanup?.toList.map (unwrappedNote (fault.split?.getD ""))
  | _ => []

/-- The answers of a run tell of all that failed to close, each once and in order. What fails in a drop is
warned of, and so is a reader that could not be wrapped; there is no other warning. -/
structure ToldOnce (log : Log) (q : Sequence) (dropped : List ReleaseFault) : Prop where
  told : q.session.closeFaults = log.flatMap Scan.told ++ dropped.map (·.cause)
  warned : q.session.warnings = log.flatMap Scan.warned ++ dropped.map ReleaseFault.message
  dropped : dropped ≠ [] → (.drop, .dropped) ∈ log

section Told

variable {s : Scan} {q q' : Sequence} {m : Move} {a : Answer}

theorem told_ofSplit (key : String) (fault : SplitFault) (suppressed : List ReleaseFault) :
    told (.next, .next (.failed (.ofSplit key fault suppressed))) =
      fault.cleanup?.toList ++ suppressed.map (·.cause) := by
  cases fault with
  | capability e => rfl
  | construction e => cases e <;> rfl

theorem warned_ofSplit (key : String) (fault : SplitFault) (suppressed : List ReleaseFault) :
    warned (.next, .next (.failed (.ofSplit key fault suppressed))) =
      fault.cleanup?.toList.map (unwrappedNote key) := by
  cases fault with
  | capability e => rfl
  | construction e => cases e <;> rfl

/-- What is told of slots is how their readers fail. -/
theorem causes_eq (σ : Session) (slots : List Slot) :
    (slots.filterMap (Slot.fault? σ)).map (·.cause) =
      ((holding slots).map ReaderCall.close).filterMap (ReaderCall.fault? σ) := by
  rw [List.map_filterMap, List.filterMap_map, holding, List.filterMap_filterMap]
  refine List.filterMap_congr ?_
  intro slot _
  rw [Slot.fault?]
  cases slot.number? with
  | none => rfl
  | some n =>
    rw [Option.bind_some]
    cases hf : (σ.reader n).closeFault <;> simp [ReaderCall.fault?, hf]

theorem Session.closeFaults_congr {σ τ : Session} (hcalls : τ.calls = σ.calls) (hbuilt : τ.built = σ.built) :
    τ.closeFaults = σ.closeFaults := by
  have hfault : ReaderCall.fault? τ = ReaderCall.fault? σ := by
    funext call
    cases call with
    | pull n => rfl
    | close n => exact congrArg Reader.closeFault (Session.reader_eq_of_built hbuilt n)
  rw [closeFaults, closeFaults, hcalls, hfault]

/-- If closed readers stay as they are, later failures come behind earlier ones. -/
theorem closeFaults_append {σ τ : Session} {calls : List ReaderCall} (hcalls : τ.calls = σ.calls ++ calls)
    (hreaders : ∀ n, .close n ∈ σ.calls → (τ.reader n).closeFault = (σ.reader n).closeFault) :
    τ.closeFaults = σ.closeFaults ++ calls.filterMap (ReaderCall.fault? τ) := by
  rw [Session.closeFaults, hcalls, List.filterMap_append, Session.closeFaults]
  congr 1
  refine List.filterMap_congr ?_
  intro call hcall
  cases call with
  | pull n => rfl
  | close n => exact hreaders n hcall

theorem Ledger.lt_of_closed {calls : List ReaderCall} {held : List Nat} {built n : Nat}
    (h : Ledger calls held built) (hn : .close n ∈ calls) : n < built := by
  have hpos := List.count_pos_iff.mpr hn
  have hbalanced := h.balanced n
  by_cases hlt : n < built
  · exact hlt
  · rw [if_neg hlt] at hbalanced
    omega

/-- What fails to close during work on a split stands in its fault, with a warning. -/
structure Tells (key : String) (σ : Session) (r : Except SplitFault Nat) (τ : Session) : Prop where
  closed : ∃ calls, τ.calls = σ.calls ++ calls ∧
    calls.filterMap (ReaderCall.fault? τ) = (lostReader? r).toList
  warned : τ.warnings = σ.warnings ++ (lostReader? r).toList.map (unwrappedNote key)

theorem Building.tells {split : Split} {σ τ : Session} {r : Except SplitFault Nat}
    (h : Building s split σ r τ) : Tells split.key σ r τ := by
  cases h with
  | @unplanned e _ ho hp =>
    have hcleanup : e.cleanup? = none := by
      cases e with
      | capability e => rfl
      | construction e =>
        cases e with
        | wrap cause cleanup => cases neverWraps_outlook s split _ ho
        | _ => rfl
    exact ⟨⟨[], by simp [hp.calls], by simp [lostReader?, hcleanup]⟩, by simp [lostReader?, hcleanup, hp.warnings]⟩
  | unconstructed ho hp hc =>
    exact ⟨⟨[], by simp [hp.calls, Event.call?], rfl⟩, hp.warnings.trans (List.append_nil _).symm⟩
  | wrapped ho hp hc hw =>
    exact ⟨⟨[], by simp [wrapping, hp.calls, Event.call?], rfl⟩, hp.warnings.trans (List.append_nil _).symm⟩
  | @unwrapped p τ reader cause ho hp hc hw =>
    have hbuilt := built_warnUnwrapped split reader.closeFault
      ((wrapping s split p reader τ).record (.closed σ.built.length))
    refine ⟨⟨[.close σ.built.length], by simp [wrapping, hp.calls, Event.call?], ?_⟩, ?_⟩
    · have hself : (warnUnwrapped split reader.closeFault
          ((wrapping s split p reader τ).record (.closed σ.built.length))).reader σ.built.length = reader := by
        rw [Session.reader_eq_of_built hbuilt, ← hp.built]
        exact reader_taken _ reader τ
      simp only [List.filterMap_cons, List.filterMap_nil, ReaderCall.fault?, hself, lostReader?,
        SplitFault.cleanup?]
      cases reader.closeFault <;> rfl
    · simp only [lostReader?, SplitFault.cleanup?]
      cases reader.closeFault with
      | none => exact hp.warnings.trans (List.append_nil _).symm
      | some fault => exact congrArg (· ++ [unwrappedNote split.key fault]) hp.warnings

/-- In a scope that repeats no work nothing is forgotten. -/
theorem construct_tells (hscope : s.context.scope.NeverRepeats) {σ τ : Session} (h : Sound s σ) {split : Split}
    {r : Except SplitFault Nat} (hc : (construct s split).run σ = (r, τ)) : Tells split.key σ r τ := by
  rw [construct, run_asUser] at hc
  cases hs : s.context.scope σ.entries s.context.user with
  | refuses cause =>
    rw [hs] at hc
    cases hc
    exact ⟨⟨[], by simp [Event.call?], rfl⟩, (List.append_nil _).symm⟩
  | runs again =>
    obtain rfl := hscope _ _ _ hs
    rw [hs] at hc
    cases hc
    have hbegun : Sound s (σ.record (.entered s.context.user)) := h.record rfl
    have ht := (build_cases hbegun.remembers split).tells
    obtain ⟨calls, hcalls, hfaults⟩ := ht.closed
    exact ⟨⟨calls, by simpa [repeated, Event.call?] using hcalls, hfaults⟩, ht.warned⟩

theorem closeFault_pull (σ : Session) (k n : Nat) :
    ((σ.pull k).2.reader n).closeFault = (σ.reader n).closeFault := by
  have hpull : (σ.reader k).pull.2.closeFault = (σ.reader k).closeFault := by
    unfold Reader.pull
    split <;> rfl
  show ((σ.setReader k (σ.reader k).pull.2).reader n).closeFault = _
  by_cases hk : k = n
  · subst hk
    by_cases hlt : k < σ.built.length
    · rw [Session.reader_setReader_self _ hlt, hpull]
    · simp [Session.reader, Session.setReader, hlt]
  · rw [Session.reader_setReader_of_ne _ hk]

/-- Failures of new calls come behind those there were, for the readers closed by then were all built. -/
theorem Accounted.closeFaults_append (ha : Accounted q) {τ : Session} {calls : List ReaderCall}
    (hcalls : τ.calls = q.session.calls ++ calls)
    (hreaders : ∀ n < q.session.built.length, (τ.reader n).closeFault = (q.session.reader n).closeFault) :
    τ.closeFaults = q.session.closeFaults ++ calls.filterMap (ReaderCall.fault? τ) :=
  Scan.closeFaults_append hcalls fun n hn => hreaders n (ha.lt_of_closed hn)

/-- What fails to close in one move is told of in its answer, or else is what a drop warns of. -/
structure TellsOf (q : Sequence) (m : Move) (a : Answer) (q' : Sequence) (dropped : List ReleaseFault) : Prop where
  told : q'.session.closeFaults = q.session.closeFaults ++ Scan.told (m, a) ++ dropped.map (·.cause)
  warned : q'.session.warnings =
    q.session.warnings ++ Scan.warned (m, a) ++ dropped.map ReleaseFault.message
  dropped : dropped ≠ [] → (m, a) = (.drop, .dropped)

/-- A move that fails to close nothing, and tells of nothing. -/
theorem tellsOf_nothing (hfaults : q'.session.closeFaults = q.session.closeFaults)
    (hwarnings : q'.session.warnings = q.session.warnings) (ht : Scan.told (m, a) = [])
    (hw : Scan.warned (m, a) = []) : TellsOf q m a q' [] :=
  ⟨by simp [hfaults, ht], by simp [hwarnings, hw], fun h => absurd rfl h⟩

theorem tellsOf_failed (hscope : s.context.scope.NeverRepeats) (hr : Sound s q.session) (ha : Accounted q)
    {split : Split} {fault : SplitFault} {σ : Session} (hc : (construct s split).run q.session = (.error fault, σ)) :
    TellsOf q .next (.next (.failed (.ofSplit split.key fault (q.slots.filterMap (Slot.fault? σ)))))
      { q with session := σ.closeEach (holding q.slots), source := .finished,
               slots := q.slots.map Slot.emptied } [] := by
  have hl := construct_leads hr split
  have ht := construct_tells hscope hr hc
  rw [hc] at hl
  obtain ⟨calls, hcalls, hfaults⟩ := ht.closed
  refine ⟨?_, ?_, fun h => absurd rfl h⟩
  · rw [told_ofSplit, causes_eq]
    have hboth : (σ.closeEach (holding q.slots)).calls
        = q.session.calls ++ (calls ++ (holding q.slots).map .close) := by
      rw [Session.calls_closeEach, hcalls, List.append_assoc]
    rw [ha.closeFaults_append hboth fun n hn => congrArg _ (hl.readers n hn), List.filterMap_append]
    have hsame : ReaderCall.fault? (σ.closeEach (holding q.slots)) = ReaderCall.fault? σ := rfl
    rw [hsame, hfaults]
    simp [lostReader?]
  · rw [warned_ofSplit]
    exact (ht.warned.trans (List.append_nil _).symm)

theorem Moved.tells (hm : Moved s q m a q') (hscope : s.context.scope.NeverRepeats) (hr : Sound s q.session)
    (ha : Accounted q) : ∃ dropped, TellsOf q m a q' dropped := by
  have hreleased : (q.session.closeEach (holding q.slots)).closeFaults =
      q.session.closeFaults ++ q.openFaults.map (·.cause) := by
    rw [ha.closeFaults_append (q.session.calls_closeEach _) fun n _ => rfl, Sequence.openFaults, causes_eq]
    rfl
  cases hm with
  | gone _ hmoves =>
    simp only [List.mem_cons, Prod.mk.injEq, List.not_mem_nil, or_false] at hmoves
    rcases hmoves with ⟨rfl, rfl⟩ | ⟨rfl, rfl⟩ | ⟨rfl, rfl⟩ <;> exact ⟨[], tellsOf_nothing rfl rfl rfl rfl⟩
  | unheld _ _ | exhausted _ _ | ranOut _ _ _ | nothingToRead _ _ | refused _ _ | closedBefore _ _ | gaveUp _ =>
    exact ⟨[], tellsOf_nothing rfl rfl rfl rfl⟩
  | @yielded n number split σ _ _ _ hc =>
    have hl := construct_leads hr split
    have ht := construct_tells hscope hr hc
    rw [hc] at hl
    obtain ⟨calls, hcalls, hfaults⟩ := ht.closed
    refine ⟨[], tellsOf_nothing ?_ (ht.warned.trans (List.append_nil _)) rfl rfl⟩
    show σ.closeFaults = _
    rw [ha.closeFaults_append hcalls fun n hn => congrArg _ (hl.readers n hn), hfaults]
    exact List.append_nil _
  | failed _ _ _ hc => exact ⟨[], tellsOf_failed hscope hr ha hc⟩
  | @pulled h slot held hs hheld =>
    cases held with
    | empty => exact ⟨[], tellsOf_nothing rfl rfl rfl rfl⟩
    | built n =>
      refine ⟨[], tellsOf_nothing ?_ rfl rfl rfl⟩
      have hcalls : (q.session.pull n).2.calls = q.session.calls ++ [.pull n] := by
        simp [Session.pull, Event.call?]
      show (q.session.pull n).2.closeFaults = _
      rw [ha.closeFaults_append hcalls fun k _ => closeFault_pull _ _ _]
      exact List.append_nil _
  | @closed h slot held hs hheld =>
    cases held with
    | empty => exact ⟨[], tellsOf_nothing rfl rfl rfl rfl⟩
    | built n =>
      have hcalls : (q.session.close n).2.calls = q.session.calls ++ [.close n] := by
        simp [Session.close, Event.call?]
      refine ⟨[], ?_, by simp [Scan.warned, Sequence.closeHeld, Session.close, Session.record],
        fun h => absurd rfl h⟩
      show (q.session.close n).2.closeFaults = _
      rw [ha.closeFaults_append hcalls fun k _ => rfl]
      have hfault : ReaderCall.fault? (q.session.close n).2 (.close n) = (q.session.reader n).closeFault := rfl
      rw [List.filterMap_cons, List.filterMap_nil, hfault]
      simp only [Sequence.closeHeld, Session.close, Reader.close]
      cases (q.session.reader n).closeFault <;> simp [Scan.told]
  | closedAll _ =>
    refine ⟨[], ?_, by simp [Scan.warned, Session.closeEach], fun h => absurd rfl h⟩
    show (q.session.closeEach (holding q.slots)).closeFaults = _
    rw [hreleased, Sequence.openFaults]
    cases q.slots.filterMap (Slot.fault? q.session) <;> simp [Scan.told, ScanFault.suppressed]
  | dropped _ =>
    refine ⟨q.openFaults, ?_, ?_, fun _ => rfl⟩
    · have hcalls := Session.calls_warnEach q.openFaults (q.session.closeEach (holding q.slots))
      have hbuilt := Session.built_warnEach q.openFaults (q.session.closeEach (holding q.slots))
      refine (Session.closeFaults_congr hcalls hbuilt).trans ?_
      rw [hreleased]
      simp [Scan.told]
    · refine (congrArg Session.warnings (Session.warnEach_eq _ _)).trans ?_
      simp [Scan.warned, Session.closeEach, Sequence.openFaults]

/-- After the end nothing more is told of. -/
theorem Moved.tells_nothing (hm : Moved s q m a q') (he : q.ended = true) (hheld : holding q.slots = []) :
    Scan.told (m, a) = [] ∧ Scan.warned (m, a) = [] ∧ (m, a) ≠ (.drop, .dropped) := by
  cases hm with
  | gone _ hmoves =>
    simp only [List.mem_cons, Prod.mk.injEq, List.not_mem_nil, or_false] at hmoves
    rcases hmoves with ⟨rfl, rfl⟩ | ⟨rfl, rfl⟩ | ⟨rfl, rfl⟩ <;> exact ⟨rfl, rfl, by simp⟩
  | unheld _ _ => exact ⟨rfl, rfl, by simp⟩
  | @closed i slot held hs hslot =>
    cases held with
    | empty => exact ⟨rfl, rfl, by simp⟩
    | built n =>
      have : n ∈ holding q.slots :=
        mem_holding.mpr ⟨i, slot, Sequence.slot?_eq_some hs, Slot.number?_eq_some.mpr hslot⟩
      rw [hheld] at this
      cases this
  | refused _ _ | pulled _ _ | closedBefore _ _ | gaveUp _ => exact ⟨rfl, rfl, by simp⟩
  | exhausted h _ | ranOut h _ _ | nothingToRead h _ | yielded h _ _ _ | failed h _ _ _ | closedAll h
  | dropped h => cases he.symm.trans h

theorem Moved.ended (hm : Moved s q m a q') (h : q.ended = true ∨ (m, a) = (.drop, .dropped)) :
    q'.ended = true := by
  cases hm with
  | closedAll _ | dropped _ => rfl
  | unheld _ _ => exact h.resolve_right (by simp)
  | gone he _ => exact he
  | _ => exact h.resolve_right (by simp)

/-- A run tells of what it told before and of what its last move does. -/
theorem ToldOnce.move {log : Log} {dropped : List ReleaseFault} (h : ToldOnce log q dropped)
    (hm : Moved s q m a q') (hscope : s.context.scope.NeverRepeats) (hr : Sound s q.session) (ha : Accounted q)
    (ht : Traced log q) (hended : dropped ≠ [] → q.ended = true) :
    ∃ dropped', ToldOnce (log ++ [(m, a)]) q' dropped' ∧ (dropped' ≠ [] → q'.ended = true) := by
  obtain ⟨more, hmore⟩ := hm.tells hscope hr ha
  by_cases hd : dropped = []
  · subst hd
    refine ⟨more, ⟨?_, ?_, ?_⟩, fun hne => hm.ended (.inr (hmore.dropped hne))⟩
    · simp [hmore.told, h.told]
    · simp [hmore.warned, h.warned]
    · intro hne
      exact List.mem_append_right _ (List.mem_singleton.mpr (hmore.dropped hne).symm)
  · have he := hended hd
    obtain ⟨htold, hwarned, hnot⟩ := hm.tells_nothing he (ht.after (ht.ended he)).1
    obtain rfl : more = [] := Decidable.byContradiction fun hne => hnot (hmore.dropped hne)
    refine ⟨dropped, ⟨?_, ?_, ?_⟩, fun _ => hm.ended (.inl he)⟩
    · simp [hmore.told, h.told, htold]
    · simp [hmore.warned, h.warned, hwarned]
    · exact fun hne => List.mem_append_left _ (h.dropped hne)

end Told

/-! ## Runs -/

theorem play_append (s : Scan) (moves more : List Move) :
    play s (moves ++ more) = playFrom s (play s moves) more := by
  have : ∀ (moves : List Move) (log : Log) (q : Sequence),
      playFrom s (log, q) (moves ++ more) = playFrom s (playFrom s (log, q) moves) more := by
    intro moves
    induction moves with
    | nil => exact fun _ _ => rfl
    | cons m moves ih => exact fun log q => ih _ _
  exact this moves [] (.start s)

theorem play_numbered (s : Scan) (moves : List Move) : Numbered (play s moves).2 := by
  have kept := play_keeps (s := s) (I := fun _ q => Reached s q.session ∧ Numbered q)
    ⟨.start, List.nodup_nil, by simp [Sequence.start, holding]⟩
    (fun _ q m h => ⟨(move_cases s q m).reached h.1, (move_cases s q m).numbered h.1.sound h.2⟩) moves
  exact kept.2

theorem play_lined (s : Scan) (moves : List Move) : Lined s (play s moves).2 :=
  play_keeps (s := s) (I := fun _ q => Lined s q) (start_lined s)
    (fun _ q m h => (move_cases s q m).lined h) moves

/-- A reader out of its slot is out of it for good. -/
theorem playFrom_retired {s : Scan} {n : Nat} (moves : List Move) : ∀ (log : Log) (q : Sequence),
    Reached s q.session → n < q.session.built.length ∧ n ∉ holding q.slots →
      n ∉ holding (playFrom s (log, q) moves).2.slots := by
  induction moves with
  | nil => exact fun _ _ _ h => h.2
  | cons m moves ih =>
    intro log q hr h
    have hm := move_cases s q m
    exact ih _ _ (hm.reached hr) (hm.retired hr.sound h)

theorem Numbered.retired_of_close {s : Scan} {q : Sequence} (h : Numbered q) {i : Nat} {slot : Slot} {n : Nat}
    (hs : q.slot? i = some slot) (hslot : slot.reader = some (.built n)) :
    n < (q.move s (.close i)).2.session.built.length ∧ n ∉ holding (q.move s (.close i)).2.slots := by
  have hi := Sequence.slot?_eq_some hs
  have hn : slot.number? = some n := Slot.number?_eq_some.mpr hslot
  have hheld : n ∈ holding q.slots := mem_holding.mpr ⟨i, slot, hi, hn⟩
  have hmove : (q.move s (.close i)).2 =
      { q with session := q.session.record (.closed n), slots := q.slots.set i slot.emptied } := by
    simp only [Sequence.move, Sequence.close, hs, hslot]
    rfl
  rw [hmove]
  refine ⟨h.built n hheld, ?_⟩
  have hp := (holding_set_emptied hi).nodup_iff.mp h.nodup
  rw [hn] at hp
  exact (List.nodup_cons.mp hp).1

theorem play_told (s : Scan) (hscope : s.context.scope.NeverRepeats) (moves : List Move) :
    ∃ dropped, ToldOnce (play s moves).1 (play s moves).2 dropped := by
  have kept := play_keeps (s := s)
    (I := fun log q => Reached s q.session ∧ Accounted q ∧ Traced log q ∧ Aligned s q ∧
      ∃ dropped, ToldOnce log q dropped ∧ (dropped ≠ [] → q.ended = true))
    ⟨.start, start_accounted s, start_traced s, start_aligned s, [], ⟨rfl, rfl, fun h => absurd rfl h⟩,
      fun h => absurd rfl h⟩
    (by
      intro log q m h
      obtain ⟨hr, ha, ht, hal, dropped, htold, hended⟩ := h
      have hm := move_cases s q m
      refine ⟨hm.reached hr, hm.accounted hscope hr.sound ha, hm.traced hscope hr.sound hal ht,
        hm.aligned hscope hr.sound hal, ?_⟩
      exact htold.move hm hscope hr.sound ha ht hended)
    moves
  obtain ⟨-, -, -, -, dropped, h, -⟩ := kept
  exact ⟨dropped, h⟩

theorem close_faults_told_once (s : Scan) (moves : List Move) :
    Placed s (play s moves).2 ∧
      (∀ h slot n later, (play s moves).2.slot? h = some slot → slot.reader = some (.built n) →
        n ∉ holding (play s (moves ++ .close h :: later)).2.slots) ∧
      (s.context.scope.NeverRepeats → ∃ dropped, ToldOnce (play s moves).1 (play s moves).2 dropped) := by
  have hr := play_reached s moves
  have hn := play_numbered s moves
  refine ⟨placed hr.sound hn (play_lined s moves), ?_, fun hscope => play_told s hscope moves⟩
  intro h slot n later hs hslot
  rw [play_append]
  exact playFrom_retired later _ _ ((move_cases s _ (.close h)).reached hr) (hn.retired_of_close hs hslot)

/-- Of four splits the last has a reader that cannot be wrapped. No reader closes without a fault. -/
def stuckScan : Scan :=
  { halfWrappedScan with
    part := ⟨[readableSplit "first", readableSplit "second", readableSplit "third", readableSplit "last"],
      ["a"], none⟩
    composite := ⟨["a"], fun split _ reader => if split.key = "last" then .error "no" else .ok reader⟩ }

def stuckMoves : List Move := [.next, .next, .close 0, .next, .next, .close 1, .closeAll]

theorem stuckScan_told_once :
    stuckScan.context.scope.NeverRepeats ∧
      (play stuckScan stuckMoves).1.flatMap told = List.replicate 4 (.external "stuck") ∧
      ∃ dropped, ToldOnce (play stuckScan stuckMoves).1 (play stuckScan stuckMoves).2 dropped := by
  refine ⟨Scope.current_neverRepeats, by decide +kernel, ?_⟩
  exact (close_faults_told_once stuckScan stuckMoves).2.2 Scope.current_neverRepeats

end TableScan.Scan
