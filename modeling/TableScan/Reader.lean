/-
  TableScan.Reader — sources of batches. A reader is given by all that it will ever answer: its
  fields, the answers to the pulls to come, after which the data ends, and whether closing it
  fails. A pull that fails does not end the data.
-/

import TableScan.Batch

namespace TableScan

/-- Why a reader does not answer a pull or a close. -/
inductive ReaderFault
  | batchMismatch
  | released (split : String)
  | external (cause : String)
  deriving DecidableEq, Repr

def ReaderFault.message : ReaderFault → String
  | .batchMismatch => "Arrow error: batch does not fit the schema of its reader"
  | .released split => "Reader for split " ++ split ++ " has already been released"
  | .external cause => cause

structure Reader where
  fields : List Field
  pulls : List (Except ReaderFault Batch)
  closeFault : Option ReaderFault

namespace Reader

/-- No columns and no rows. -/
def empty : Reader := ⟨[], [], none⟩

/-- The next answer, none at the end of the data, and the reader after it. -/
def pull (r : Reader) : Except ReaderFault (Option Batch) × Reader :=
  match r.pulls with
  | [] => (.ok none, r)
  | answer :: more => (answer.map some, { r with pulls := more })

def close (r : Reader) : Except ReaderFault Unit :=
  match r.closeFault with
  | none => .ok ()
  | some fault => .error fault

end Reader

end TableScan
