/-
  TableScan.Proofs.Run — a scan under way, as its caller drives it.

  A caller makes moves: it asks for the next reader, pulls from a handle, closes it or gives it
  up, and ends the sequence. `play` makes moves in turn and keeps a log of the answers;
  `play_keeps` is induction over it. `move_cases` says once and for all what a move can come
  to (`Moved`), with the readers that are released all at once in closed form
  (`releaseSlots_eq`). The sessions of a run are `Reached`, and so `Sound`.
-/

import TableScan.Proofs.Construction
import TableScan.Scan.Sequence

namespace TableScan.Scan

/-! ## Moves -/

inductive Move
  | next
  | pull (handle : Nat)
  | close (handle : Nat)
  | dropHandle (handle : Nat)
  | closeAll
  | drop
  deriving DecidableEq, Repr

inductive Answer
  /-- There is no such handle, or no sequence any more. -/
  | absent
  | next (answer : Sequence.Next)
  | pull (answer : Except ReaderFault (Option Batch))
  | close (answer : Except ReaderFault Unit)
  | gaveUp
  | closeAll (answer : Except ScanFault Unit)
  | dropped

namespace Sequence

def move (s : Scan) (q : Sequence) : Move → Answer × Sequence
  | .next => let (answer, q) := q.next s; (.next answer, q)
  | .pull h => let (answer, q) := q.pull h; (answer.elim .absent .pull, q)
  | .close h => let (answer, q) := q.close h; (answer.elim .absent .close, q)
  | .dropHandle h => let (answer, q) := q.dropHandle h; (answer.elim .absent fun _ => .gaveUp, q)
  | .closeAll => let (answer, q) := q.closeAll; (answer.elim .absent .closeAll, q)
  | .drop => let (answer, q) := q.drop; (answer.elim .absent fun _ => .dropped, q)

end Sequence

/-- The moves made, each with its answer. -/
abbrev Log := List (Move × Answer)

def playFrom (s : Scan) : Log × Sequence → List Move → Log × Sequence
  | state, [] => state
  | (log, q), m :: moves => playFrom s (log ++ [(m, (q.move s m).1)], (q.move s m).2) moves

/-- A run of the scan. -/
def play (s : Scan) (moves : List Move) : Log × Sequence := playFrom s ([], .start s) moves

/-- What the start has and every move keeps, every run has. -/
theorem play_keeps {s : Scan} {I : Log → Sequence → Prop} (hstart : I [] (.start s))
    (hmove : ∀ log q m, I log q → I (log ++ [(m, (q.move s m).1)]) (q.move s m).2) (moves : List Move) :
    I (play s moves).1 (play s moves).2 := by
  have : ∀ (moves : List Move) (log : Log) (q : Sequence), I log q →
      I (playFrom s (log, q) moves).1 (playFrom s (log, q) moves).2 := by
    intro moves
    induction moves with
    | nil => exact fun log q h => h
    | cons m moves ih => exact fun log q h => ih _ _ (hmove log q m h)
  exact this moves [] (.start s) hstart

/-! ## Releasing readers -/

/-- The number of the reader still in a slot. -/
def Slot.number? (slot : Slot) : Option Nat :=
  match slot.reader with
  | some (.built n) => some n
  | _ => none

/-- The readers still in their slots. -/
def holding (slots : List Slot) : List Nat := slots.filterMap Slot.number?

def Slot.emptied (slot : Slot) : Slot := { slot with reader := none }

/-- How releasing a slot fails, if it does. -/
def Slot.fault? (σ : Session) (slot : Slot) : Option ReleaseFault :=
  slot.number?.bind fun n => (σ.reader n).closeFault.map (⟨slot.split, ·⟩)

/-- The session after calls to close these readers. -/
def Session.closeEach (σ : Session) (readers : List Nat) : Session :=
  { σ with events := σ.events ++ readers.map .closed }

@[simp] theorem Session.calls_closeEach (σ : Session) (readers : List Nat) :
    (σ.closeEach readers).calls = σ.calls ++ readers.map .close := by
  have : (readers.map Event.closed).filterMap Event.call? = readers.map ReaderCall.close := by
    rw [List.filterMap_map, ← List.filterMap_eq_map]
    rfl
  rw [closeEach, calls, List.filterMap_append, this, calls]

@[simp] theorem Session.requests_closeEach (σ : Session) (readers : List Nat) :
    (σ.closeEach readers).requests = σ.requests := by
  have : (readers.map Event.closed).filterMap Event.request? = [] := by
    rw [List.filterMap_map, List.filterMap_eq_nil_iff]
    exact fun _ _ => rfl
  rw [closeEach, requests, List.filterMap_append, this, List.append_nil, requests]

theorem Session.closeEach_nil (σ : Session) : σ.closeEach [] = σ := by
  simp [closeEach]

theorem Session.closeEach_cons (σ : Session) (n : Nat) (readers : List Nat) :
    σ.closeEach (n :: readers) = (σ.record (.closed n)).closeEach readers := by
  simp [closeEach, record]

@[simp] theorem Slot.number?_emptied (slot : Slot) : slot.emptied.number? = none := rfl

@[simp] theorem holding_emptied (slots : List Slot) : holding (slots.map Slot.emptied) = [] := by
  rw [holding, List.filterMap_map, List.filterMap_eq_nil_iff]
  exact fun slot _ => slot.number?_emptied

theorem Slot.emptied_of_none {slot : Slot} (h : slot.reader = none) : slot.emptied = slot := by
  cases slot
  cases h
  rfl

theorem releaseSlots_eq (slots : List Slot) : ∀ σ : Session, Sequence.releaseSlots σ slots =
    (slots.filterMap (Slot.fault? σ), σ.closeEach (holding slots), slots.map Slot.emptied) := by
  induction slots with
  | nil => exact fun σ => by rw [show holding [] = [] from rfl, σ.closeEach_nil]; rfl
  | cons slot slots ih =>
    intro σ
    simp only [Sequence.releaseSlots, holding, List.filterMap_cons, List.map_cons]
    cases hr : slot.reader with
    | none =>
      have hn : slot.number? = none := by simp only [Slot.number?, hr]
      simp only [ih, hn, Slot.fault?, Option.bind_none, Slot.emptied_of_none hr, holding]
    | some held =>
      cases held with
      | empty =>
        have hn : slot.number? = none := by simp only [Slot.number?, hr]
        simp only [Sequence.closeHeld, ih, hn, Slot.fault?, Option.bind_none, holding]
        rfl
      | built n =>
        have hn : slot.number? = some n := by simp only [Slot.number?, hr]
        simp only [Sequence.closeHeld, Session.close, Reader.close, ih, hn, Slot.fault?, Option.bind_some,
          σ.closeEach_cons]
        cases (σ.reader n).closeFault <;> rfl

/-! ## What a move can come to -/

inductive Moved (s : Scan) (q : Sequence) : Move → Answer → Sequence → Prop
  /-- The sequence has been closed or dropped before. -/
  | gone {m : Move} {a : Answer} : q.ended = true →
      (m, a) ∈ [(.next, .next .gone), (.closeAll, .absent), (.drop, .absent)] → Moved s q m a q
  | unheld {h : Nat} {m : Move} : q.slot? h = none → m ∈ [.pull h, .close h, .dropHandle h] →
      Moved s q m .absent q
  | exhausted : q.ended = false → q.source = .finished → Moved s q .next (.next .exhausted) q
  | ranOut {n : Nat} : q.ended = false → q.source = .splits n → s.part.splits[n]? = none →
      Moved s q .next (.next .exhausted) { q with source := .finished }
  | nothingToRead : q.ended = false → q.source = .emptyScan →
      Moved s q .next (.next (.reader q.slots.length emptyScanKey []))
        { q with source := .finished, slots := q.slots ++ [⟨emptyScanKey, some .empty, true⟩] }
  | yielded {n number : Nat} {split : Split} {σ : Session} : q.ended = false → q.source = .splits n →
      s.part.splits[n]? = some split → (construct s split).run q.session = (.ok number, σ) →
      Moved s q .next (.next (.reader q.slots.length split.key (σ.reader number).fields))
        { q with session := σ, source := .splits (n + 1),
                 slots := q.slots ++ [⟨split.key, some (.built number), true⟩] }
  | failed {n : Nat} {split : Split} {fault : SplitFault} {σ : Session} : q.ended = false →
      q.source = .splits n → s.part.splits[n]? = some split →
      (construct s split).run q.session = (.error fault, σ) →
      Moved s q .next (.next (.failed (.ofSplit split.key fault (q.slots.filterMap (Slot.fault? σ)))))
        { q with session := σ.closeEach (holding q.slots), source := .finished,
                 slots := q.slots.map Slot.emptied }
  | refused {h : Nat} {slot : Slot} : q.slot? h = some slot → slot.reader = none →
      Moved s q (.pull h) (.pull (.error (.released slot.split))) q
  | pulled {h : Nat} {slot : Slot} {held : Held} : q.slot? h = some slot → slot.reader = some held →
      Moved s q (.pull h) (.pull (Sequence.pullHeld q.session held).1)
        { q with session := (Sequence.pullHeld q.session held).2 }
  | closedBefore {h : Nat} {slot : Slot} : q.slot? h = some slot → slot.reader = none →
      Moved s q (.close h) (.close (.ok ())) q
  | closed {h : Nat} {slot : Slot} {held : Held} : q.slot? h = some slot → slot.reader = some held →
      Moved s q (.close h) (.close (Sequence.closeHeld q.session held).1)
        { q with session := (Sequence.closeHeld q.session held).2, slots := q.slots.set h slot.emptied }
  | gaveUp {h : Nat} {slot : Slot} : q.slot? h = some slot →
      Moved s q (.dropHandle h) .gaveUp { q with slots := q.slots.set h { slot with handle := false } }
  | closedAll : q.ended = false →
      Moved s q .closeAll
        (.closeAll (let faults := q.slots.filterMap (Slot.fault? q.session)
          if faults.isEmpty then .ok () else .error (.release faults)))
        { session := q.session.closeEach (holding q.slots), source := .finished,
          slots := q.slots.map Slot.emptied, ended := true }
  | dropped : q.ended = false →
      Moved s q .drop .dropped
        { session := (q.slots.filterMap (Slot.fault? q.session)).foldl (fun σ fault => σ.warn fault.message)
            (q.session.closeEach (holding q.slots)),
          source := .finished, slots := q.slots.map Slot.emptied, ended := true }

section Moves

variable (s : Scan) (q : Sequence)

theorem next_cases : Moved s q .next (q.move s .next).1 (q.move s .next).2 := by
  simp only [Sequence.move, Sequence.next, Sequence.releaseAll, releaseSlots_eq]
  by_cases he : q.ended = true
  · simp only [if_pos he]
    exact .gone he (by simp)
  · simp only [if_neg he]
    have he := eq_false_of_ne_true he
    cases hs : q.source with
    | finished => exact .exhausted he hs
    | emptyScan => exact .nothingToRead he hs
    | splits n =>
      dsimp only
      cases hn : s.part.splits[n]? with
      | none => exact .ranOut he hs hn
      | some split =>
        dsimp only
        rcases hc : (construct s split).run q.session with ⟨r, σ⟩
        cases r with
        | ok number => exact .yielded he hs hn hc
        | error fault => exact .failed he hs hn hc

theorem pull_cases (h : Nat) : Moved s q (.pull h) (q.move s (.pull h)).1 (q.move s (.pull h)).2 := by
  simp only [Sequence.move, Sequence.pull]
  cases hs : q.slot? h with
  | none => exact .unheld hs (by simp)
  | some slot =>
    dsimp only
    cases hr : slot.reader with
    | none => exact .refused hs hr
    | some held => exact .pulled hs hr

theorem close_cases (h : Nat) : Moved s q (.close h) (q.move s (.close h)).1 (q.move s (.close h)).2 := by
  simp only [Sequence.move, Sequence.close]
  cases hs : q.slot? h with
  | none => exact .unheld hs (by simp)
  | some slot =>
    dsimp only
    cases hr : slot.reader with
    | none => exact .closedBefore hs hr
    | some held => exact .closed hs hr

theorem dropHandle_cases (h : Nat) :
    Moved s q (.dropHandle h) (q.move s (.dropHandle h)).1 (q.move s (.dropHandle h)).2 := by
  simp only [Sequence.move, Sequence.dropHandle]
  cases hs : q.slot? h with
  | none => exact .unheld hs (by simp)
  | some slot => exact .gaveUp hs

theorem closeAll_cases : Moved s q .closeAll (q.move s .closeAll).1 (q.move s .closeAll).2 := by
  simp only [Sequence.move, Sequence.closeAll, Sequence.releaseAll, releaseSlots_eq]
  by_cases he : q.ended = true
  · simp only [if_pos he]
    exact .gone he (by simp)
  · simp only [if_neg he]
    exact .closedAll (eq_false_of_ne_true he)

theorem drop_cases : Moved s q .drop (q.move s .drop).1 (q.move s .drop).2 := by
  simp only [Sequence.move, Sequence.drop, Sequence.releaseAll, releaseSlots_eq]
  by_cases he : q.ended = true
  · simp only [if_pos he]
    exact .gone he (by simp)
  · simp only [if_neg he]
    exact .dropped (eq_false_of_ne_true he)

theorem move_cases (m : Move) : Moved s q m (q.move s m).1 (q.move s m).2 := by
  cases m with
  | next => exact next_cases s q
  | pull h => exact pull_cases s q h
  | close h => exact close_cases s q h
  | dropHandle h => exact dropHandle_cases s q h
  | closeAll => exact closeAll_cases s q
  | drop => exact drop_cases s q

end Moves

/-- Asking for a reader while splits remain. -/
theorem move_next_splits {s : Scan} {q : Sequence} {n : Nat} {split : Split} (he : q.ended = false)
    (hs : q.source = .splits n) (hn : s.part.splits[n]? = some split) :
    q.move s .next = match (construct s split).run q.session with
      | (.ok number, σ) => (.next (.reader q.slots.length split.key (σ.reader number).fields),
          { q with session := σ, source := .splits (n + 1),
                   slots := q.slots ++ [⟨split.key, some (.built number), true⟩] })
      | (.error fault, σ) =>
        (.next (.failed (.ofSplit split.key fault (q.slots.filterMap (Slot.fault? σ)))),
          { q with session := σ.closeEach (holding q.slots), source := .finished,
                   slots := q.slots.map Slot.emptied }) := by
  have hm := next_cases s q
  rcases hq : q.move s .next with ⟨a, q'⟩
  rw [hq] at hm
  cases hm with
  | gone hended _ => cases he.symm.trans hended
  | unheld _ hmoves => simp at hmoves
  | exhausted _ hs' | ranOut _ hs' hn' | nothingToRead _ hs' => simp_all
  | yielded _ hs' hn' hc | failed _ hs' hn' hc =>
    obtain rfl := Source.splits.inj (hs.symm.trans hs')
    obtain rfl := Option.some.inj (hn.symm.trans hn')
    rw [hc]

/-! ## The sessions of a run -/

theorem Reached.closeEach {s : Scan} (readers : List Nat) :
    ∀ {σ : Session}, Reached s σ → Reached s (σ.closeEach readers) := by
  induction readers with
  | nil => exact fun {σ} h => σ.closeEach_nil.symm ▸ h
  | cons n readers ih => exact fun {σ} h => σ.closeEach_cons n readers ▸ ih (h.closed n)

theorem Session.warnEach_eq (faults : List ReleaseFault) : ∀ σ : Session,
    faults.foldl (fun σ fault => σ.warn fault.message) σ
      = { σ with warnings := σ.warnings ++ faults.map ReleaseFault.message } := by
  induction faults with
  | nil => exact fun σ => by simp
  | cons fault faults ih => exact fun σ => (ih _).trans (by simp [Session.warn])

theorem Reached.warnEach {s : Scan} (faults : List ReleaseFault) :
    ∀ {σ : Session}, Reached s σ →
      Reached s (faults.foldl (fun σ fault => σ.warn fault.message) σ) := by
  induction faults with
  | nil => exact fun h => h
  | cons fault faults ih => exact fun h => ih (h.warned fault.message)

theorem Moved.reached {s : Scan} {q q' : Sequence} {m : Move} {a : Answer} (hm : Moved s q m a q')
    (h : Reached s q.session) : Reached s q'.session := by
  cases hm with
  | gone _ _ | unheld _ _ | exhausted _ _ | ranOut _ _ _ | nothingToRead _ _ | refused _ _ | closedBefore _ _
  | gaveUp _ => exact h
  | @yielded _ _ split _ _ _ _ hc =>
    have := h.constructed split
    rw [hc] at this
    exact this
  | @failed _ split _ _ _ _ _ hc =>
    have := h.constructed split
    rw [hc] at this
    exact this.closeEach _
  | @pulled _ _ held _ _ =>
    cases held with
    | empty => exact h
    | built n => exact h.pulled n
  | @closed _ _ held _ _ =>
    cases held with
    | empty => exact h
    | built n => exact h.closed n
  | closedAll _ => exact h.closeEach _
  | dropped _ => exact (h.closeEach _).warnEach _

/-- Whatever a caller does, the session stays one of the scan. -/
theorem play_reached (s : Scan) (moves : List Move) : Reached s (play s moves).2.session :=
  play_keeps (I := fun _ q => Reached s q.session) .start
    (fun _ q m h => (move_cases s q m).reached h) moves

end TableScan.Scan
