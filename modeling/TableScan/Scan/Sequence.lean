/-
  TableScan.Scan.Sequence — the readers of a scan, one for each split in order, built when they
  are asked for.

  Every reader is given out as a handle. A handle and the sequence share the reader: whichever
  closes it first takes it out of its slot, so it is closed once. When a split fails, or the
  sequence is closed or dropped, all readers still in their slots are closed in order. After
  its first fault the sequence has ended. A scan without splits yields one empty reader.
-/

import TableScan.Scan.Construction

namespace TableScan.Scan

/-- What a slot holds. -/
inductive Held
  | empty
  | built (number : Nat)
  deriving DecidableEq, Repr

/-- The place of one reader that was given out. -/
structure Slot where
  split : String
  /-- None once the reader is closed. -/
  reader : Option Held
  /-- The caller still has the handle. -/
  handle : Bool
  deriving DecidableEq, Repr

def Slot.isOpen (s : Slot) : Bool := s.reader.isSome

/-- What the next call yields. -/
inductive Source
  | emptyScan
  | splits (next : Nat)
  | finished
  deriving DecidableEq, Repr

/-- A scan under way. Handles are numbered like their slots. -/
structure Sequence where
  session : Session
  source : Source
  slots : List Slot
  /-- It has been closed or dropped. -/
  ended : Bool

/-- The key that the reader of a scan without splits goes by. -/
def emptyScanKey : String := "<empty>"

namespace Sequence

def start (s : Scan) : Sequence :=
  ⟨.start, if s.part.splits.isEmpty then .emptyScan else .splits 0, [], false⟩

def openCount (q : Sequence) : Nat := q.slots.countP Slot.isOpen

/-- Splits remain to be asked for. -/
def isReading (q : Sequence) : Bool :=
  match q.source with
  | .splits _ => true
  | _ => false

def heldReader (session : Session) : Held → Reader
  | .empty => .empty
  | .built number => session.reader number

def closeHeld (session : Session) : Held → Except ReaderFault Unit × Session
  | .empty => (.ok (), session)
  | .built number => session.close number

def pullHeld (session : Session) : Held → Except ReaderFault (Option Batch) × Session
  | .empty => (.ok none, session)
  | .built number => session.pull number

/-- Closes the readers still in their slots, in order; the failures. -/
def releaseSlots (session : Session) : List Slot → List ReleaseFault × Session × List Slot
  | [] => ([], session, [])
  | slot :: rest =>
    match slot.reader with
    | none =>
      let (faults, session, rest) := releaseSlots session rest
      (faults, session, slot :: rest)
    | some held =>
      let (result, session) := closeHeld session held
      let (faults, session, rest) := releaseSlots session rest
      let faults := match result with
        | .ok () => faults
        | .error cause => ⟨slot.split, cause⟩ :: faults
      (faults, session, { slot with reader := none } :: rest)

def releaseAll (q : Sequence) : List ReleaseFault × Sequence :=
  let (faults, session, slots) := releaseSlots q.session q.slots
  (faults, { q with session, slots })

/-- What asking for the next reader gives. -/
inductive Next
  | gone
  | exhausted
  | reader (handle : Nat) (split : String) (fields : List Field)
  | failed (fault : ScanFault)

/-- Puts a reader into a slot of its own. -/
def give (q : Sequence) (split : String) (held : Held) : Next × Sequence :=
  (.reader q.slots.length split (heldReader q.session held).fields,
    { q with slots := q.slots ++ [⟨split, some held, true⟩] })

def next (s : Scan) (q : Sequence) : Next × Sequence :=
  if q.ended then (.gone, q)
  else match q.source with
    | .finished => (.exhausted, q)
    | .emptyScan => { q with source := .finished }.give emptyScanKey .empty
    | .splits n =>
      match s.part.splits[n]? with
      | none => (.exhausted, { q with source := .finished })
      | some split =>
        match (construct s split).run q.session with
        | (.ok number, session) =>
          { q with session, source := .splits (n + 1) }.give split.key (.built number)
        | (.error fault, session) =>
          let (suppressed, q) := { q with session, source := .finished }.releaseAll
          (.failed (.ofSplit split.key fault suppressed), q)

/-- The slot of a handle that the caller has. -/
def slot? (q : Sequence) (handle : Nat) : Option Slot := (q.slots[handle]?).filter (·.handle)

def isOpen? (q : Sequence) (handle : Nat) : Option Bool := (q.slot? handle).map Slot.isOpen

/-- The next batch of a handle's reader; none without such a handle. -/
def pull (handle : Nat) (q : Sequence) : Option (Except ReaderFault (Option Batch)) × Sequence :=
  match q.slot? handle with
  | none => (none, q)
  | some slot =>
    match slot.reader with
    | none => (some (.error (.released slot.split)), q)
    | some held =>
      let (answer, session) := pullHeld q.session held
      (some answer, { q with session })

/-- Closes a handle's reader, unless it is closed. -/
def close (handle : Nat) (q : Sequence) : Option (Except ReaderFault Unit) × Sequence :=
  match q.slot? handle with
  | none => (none, q)
  | some slot =>
    match slot.reader with
    | none => (some (.ok ()), q)
    | some held =>
      let (result, session) := closeHeld q.session held
      (some result,
        { q with session, slots := q.slots.set handle { slot with reader := none } })

/-- The caller gives a handle up; its reader stays as it is. -/
def dropHandle (handle : Nat) (q : Sequence) : Option Unit × Sequence :=
  match q.slot? handle with
  | none => (none, q)
  | some slot => (some (), { q with slots := q.slots.set handle { slot with handle := false } })

/-- Ends the sequence; the readers that failed to close are its fault. -/
def closeAll (q : Sequence) : Option (Except ScanFault Unit) × Sequence :=
  if q.ended then (none, q)
  else
    let (faults, q) := q.releaseAll
    (some (if faults.isEmpty then .ok () else .error (.release faults)),
      { q with source := .finished, ended := true })

/-- Ends the sequence without an answer; the readers that failed to close are warned of. -/
def drop (q : Sequence) : Option Unit × Sequence :=
  if q.ended then (none, q)
  else
    let (faults, q) := q.releaseAll
    let session := faults.foldl (fun session fault => session.warn fault.message) q.session
    (some (), { q with session, source := .finished, ended := true })

end Sequence

end TableScan.Scan
