/-
  TableScan.Scan.Fault — why a scan yields no reader for a split, and how that is told.

  A split fails for a missing native library, which is a matter of configuration, or while its
  reader is constructed. The fault of a scan names the split, and never loses its cause to
  a reader that fails to close: such failures are listed behind it.
-/

import TableScan.Delta
import TableScan.NativeLibrary
import TableScan.Reader
import TableScan.Serde

namespace TableScan.Scan

open TableScan.Text

/-- What a fault is about: the table, or one of its partitions. -/
def scopeName : Option PartitionId → String
  | none => "table"
  | some id => "partition " ++ signedDecimal id.toInt

/-- Why the reader of a split cannot be constructed. -/
inductive ConstructionFault
  | undecodablePayload
  | missingLibrary (partition : Option PartitionId)
  | missingPartition
  | unknownPartition (id : PartitionId)
  | serde (partition : Option PartitionId) (cause : Serde.UnknownLibrary)
  | layout (library : String) (partition : Option PartitionId) (cause : Layout.Fault)
  | notTransactional (path : String)
  | deltas (cause : Delta.ListFault)
  | identity (user cause : String)
  | constructor (strategy : Strategy) (cause : String)
  | wrap (cause : String) (cleanup : Option ReaderFault)

def ConstructionFault.message : ConstructionFault → String
  | .undecodablePayload =>
    "Failed to decode split extended properties: " ++ Json.faultText
  | .missingLibrary partition => "No serialization library declared for " ++ scopeName partition
  | .missingPartition => "Split of a partitioned table carries no partition id"
  | .unknownPartition id => "Unknown partition id " ++ signedDecimal id.toInt
  | .serde partition cause =>
    "Failed to create serialization handle for " ++ scopeName partition ++ ": " ++ cause.message
  | .layout library partition cause =>
    "Failed to derive object layout from " ++ library ++ " for " ++ scopeName partition ++ ": "
      ++ cause.message
  | .notTransactional path =>
    "Split " ++ path ++ " of a transactional table is not a transactional split"
  | .deltas cause => "Failed to inspect transactional deltas: " ++ cause.message
  | .identity user cause => "Failed to run as user " ++ user ++ ": " ++ cause
  | .constructor strategy cause => "Failed to construct " ++ strategy.name ++ " reader: " ++ cause
  | .wrap cause cleanup =>
    "Failed to wrap reader with composite columns: " ++ cause
      ++ match cleanup with
        | none => ""
        | some fault => " (releasing the inner reader also failed: " ++ fault.message ++ ")"

/-- Why a split has no reader. -/
inductive SplitFault
  | capability (cause : NativeLibrary.NotLoaded)
  | construction (cause : ConstructionFault)

def SplitFault.message : SplitFault → String
  | .capability cause => cause.message
  | .construction cause => cause.message

/-- A reader could not be closed. -/
structure ReleaseFault where
  split : String
  cause : ReaderFault
  deriving DecidableEq, Repr

def ReleaseFault.message (f : ReleaseFault) : String :=
  "Failed to release reader for split " ++ f.split ++ ": " ++ f.cause.message

/-- What a scan reports to its caller. -/
inductive ScanFault
  | configuration (split : String) (cause : NativeLibrary.NotLoaded) (suppressed : List ReleaseFault)
  | construction (split : String) (cause : ConstructionFault) (suppressed : List ReleaseFault)
  | release (failures : List ReleaseFault)

namespace ScanFault

/-- The fault of a split, with the readers that failed to close on its account. -/
def ofSplit (split : String) (fault : SplitFault) (suppressed : List ReleaseFault) : ScanFault :=
  match fault with
  | .capability cause => .configuration split cause suppressed
  | .construction cause => .construction split cause suppressed

/-- The split that failed, if one did. -/
def split? : ScanFault → Option String
  | configuration split _ _ => some split
  | construction split _ _ => some split
  | release _ => none

def suppressed : ScanFault → List ReleaseFault
  | configuration _ _ s => s
  | construction _ _ s => s
  | release failures => failures

def joined (failures : List ReleaseFault) : String :=
  "; ".intercalate (failures.map ReleaseFault.message)

def suppressedNote (s : List ReleaseFault) : String :=
  if s.isEmpty then "" else " (" ++ decimal s.length ++ " suppressed: " ++ joined s ++ ")"

def message : ScanFault → String
  | configuration split cause s =>
    "Invalid configuration for split " ++ split ++ ": " ++ cause.message ++ suppressedNote s
  | construction split cause s =>
    "Failed to create reader for split " ++ split ++ ": " ++ cause.message ++ suppressedNote s
  | release failures =>
    "Failed to release " ++ decimal failures.length ++ " reader(s): " ++ joined failures

end ScanFault

end TableScan.Scan
