/-
  TableScan.Scan.Session — what happens while a scan runs: the readers built so far, as they are
  now, and every call to a collaborator or to a reader, in order. Nothing else changes, but
  for the row format of the table, which is kept once it is known.
-/

import TableScan.Scan.Setup

namespace TableScan.Scan

/-- A call to a collaborator or to a reader. Readers are numbered in the order in which they were built. -/
inductive Event
  /-- Work for a user begins. -/
  | entered (user : String)
  | left (user : String)
  | setUp (library : String)
  /-- Deltas were listed, or could not be. -/
  | listed (root : String) (found : Option (List String))
  | resolved (format : Option String)
  | constructed (request : Request)
  | wrapped (split allocator : String)
  | pulled (reader : Nat)
  | closed (reader : Nat)

/-- A reader that a constructor built, and the split it reads. -/
structure Built where
  split : String
  reader : Reader

structure Session where
  tableRows : Option RowFormat
  built : List Built
  events : List Event
  warnings : List String

namespace Session

def start : Session := ⟨none, [], [], []⟩

def count (s : Session) (p : Event → Bool) : Nat := s.events.countP p

def resolutions (s : Session) : Nat := s.count fun | .resolved _ => true | _ => false

def constructions (s : Session) : Nat := s.count fun | .constructed _ => true | _ => false

def entries (s : Session) : Nat := s.count fun | .entered _ => true | _ => false

def record (e : Event) (s : Session) : Session := { s with events := s.events ++ [e] }

def warn (text : String) (s : Session) : Session := { s with warnings := s.warnings ++ [text] }

def reader (s : Session) (n : Nat) : Reader := ((s.built[n]?).map (·.reader)).getD .empty

def setReader (s : Session) (n : Nat) (r : Reader) : Session :=
  { s with built := s.built.modify n ({ · with reader := r }) }

/-- The next answer of a reader. -/
def pull (n : Nat) (s : Session) : Except ReaderFault (Option Batch) × Session :=
  let (answer, r) := (s.reader n).pull
  (answer, (s.setReader n r).record (.pulled n))

def close (n : Nat) (s : Session) : Except ReaderFault Unit × Session :=
  ((s.reader n).close, s.record (.closed n))

end Session

/-- Work on one split: it changes the session also where it fails. -/
abbrev Act (α : Type) := ExceptT SplitFault (StateM Session) α

def Act.record (e : Event) : Act Unit := modify (Session.record e)

def Act.fail {α : Type} (fault : ConstructionFault) : Act α := throw (.construction fault)

/-- The value, or else the fault. -/
def Act.need {α : Type} (fault : ConstructionFault) : Option α → Act α
  | some a => pure a
  | none => Act.fail fault

/-- The result, or else the fault made of its cause. -/
def Act.lift {ε α : Type} (fault : ε → ConstructionFault) : Except ε α → Act α
  | .ok a => pure a
  | .error e => Act.fail (fault e)

end TableScan.Scan
