/-
  TableScan.Scan.Construction — the reader of one split: planned, constructed and wrapped, all of
  it as the user of the scan. A reader that cannot be wrapped is closed at once.
-/

import TableScan.Scan.Plan

namespace TableScan.Scan

def request (s : Scan) (split : Split) (p : Prepared) : Request where
  strategy := p.plan.strategy
  table := s.table
  split := split
  details := p.details
  columns := s.composite.innerColumns
  user := s.context.user
  vectorize := s.context.vectorize
  settings := p.settings
  tableRows := p.tableRows
  partitionRows := p.partitionRows
  filter := s.part.filter

/-- Calls the constructor and takes in its reader, which gets the next number. -/
def callConstructor (s : Scan) (r : Request) : Act Nat := do
  let before := (← get).constructions
  Act.record (.constructed r)
  let reader ← Act.lift (.constructor r.strategy) (s.constructors r.strategy before r)
  let number := (← get).built.length
  modify fun session => { session with built := session.built ++ [⟨r.split.key, reader⟩] }
  return number

/-- Wraps a reader for its split. -/
def wrap (s : Scan) (split : Split) (number : Nat) : Act Unit := do
  let allocator := allocatorBelow s.context.allocator split.key
  Act.record (.wrapped split.key allocator)
  match s.composite.wrap split allocator ((← get).reader number) with
  | .ok wrapped => modify (·.setReader number wrapped)
  | .error cause =>
    match ← modifyGet (Session.close number) with
    | .ok () => Act.fail (.wrap cause none)
    | .error fault =>
      modify (Session.warn
        ("split " ++ split.key ++ ": failed to release unwrapped reader: " ++ fault.message))
      Act.fail (.wrap cause (some fault))

/-- Plans, constructs and wraps; the number of the reader. -/
def build (s : Scan) (split : Split) : Act Nat := do
  let prepared ← prepare s split
  let number ← callConstructor s (request s split prepared)
  wrap s split number
  return number

/-- Runs work that may be repeated, forgetting all results but the last. -/
def repeated {α : Type} (work : Act α) : Nat → Act α
  | 0 => work
  | again + 1 => do
    try discard work catch _ => pure ()
    repeated work again

/-- Runs work as the user of the scan. -/
def asUser {α : Type} (s : Scan) (work : Act α) : Act α := do
  let before := (← get).entries
  Act.record (.entered s.context.user)
  let result ←
    try
      let a ← match s.context.scope before s.context.user with
        | .runs again => repeated work again
        | .refuses cause => Act.fail (.identity s.context.user cause)
      pure (Except.ok a)
    catch fault => pure (.error fault)
  Act.record (.left s.context.user)
  match result with
  | .ok a => return a
  | .error fault => throw fault

/-- The number of the reader of a split. -/
def construct (s : Scan) (split : Split) : Act Nat := asUser s (build s split)

end TableScan.Scan
