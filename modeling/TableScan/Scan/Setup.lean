/-
  TableScan.Scan.Setup — all that a scan is given: the table, the splits and columns to read, the
  settings of the engine, and its collaborators. Collaborators are functions. Those that may
  answer differently each time, constructors and the scope of an identity, are told how often
  they were called before.
-/

import TableScan.Composite
import TableScan.Resolution
import TableScan.Scan.Fault
import TableScan.Table

namespace TableScan.Scan

open TableScan.Json

/-- A serialization handle with the layout of its rows. -/
structure RowFormat where
  handle : Serde.Handle
  layout : Layout

/-- All that a constructor is given for one split. -/
structure Request where
  strategy : Strategy
  table : Table
  split : Split
  details : SplitDetails
  /-- The columns to produce. -/
  columns : List String
  user : String
  vectorize : Bool
  /-- The settings of this split alone. -/
  settings : Properties
  tableRows : RowFormat
  /-- Given for partitioned tables. -/
  partitionRows : Option RowFormat
  /-- A condition to be pushed down, as it came. -/
  filter : Option Value

/-- Builds the reader of a split, after so many calls before. -/
abbrev Constructor := Nat → Request → Except String Reader

/-- Every strategy has a constructor. -/
abbrev Constructors := Strategy → Constructor

def Constructors.uniform (c : Constructor) : Constructors := fun _ => c

def Constructors.rebind (cs : Constructors) (s : Strategy) (c : Constructor) : Constructors :=
  fun t => if t = s then c else cs t

/-- What a scope does with work it is to run as a user. -/
inductive Conduct
  /-- Runs it, and `again` times more; the last result counts. -/
  | runs (again : Nat)
  | refuses (cause : String)

/-- Decides about the work of a user, after so many decisions before. -/
abbrev Scope := Nat → String → Conduct

/-- Runs all work once, as whoever the process runs. -/
def Scope.current : Scope := fun _ _ => .runs 0

/-- Whom readers are constructed for, and how. -/
structure Context where
  vectorize : Bool
  user : String
  scope : Scope
  allocator : String

/-- The part of a table that one scan reads. -/
structure SubScan where
  splits : List Split
  columns : List String
  filter : Option Value

namespace SubScan

def toJson (s : SubScan) : Value :=
  .object ([("splits", .array (s.splits.map Split.toJson)),
      ("columns", .array (s.columns.map .text))] ++ optionalMember "filter" id s.filter)

def decoder : Decoder SubScan :=
  Decoder.record ["splits", "columns", "filter"] fun m => do
    return ⟨← m.getD "splits" (.list Split.decoder) [], ← m.getD "columns" (.list .text) [],
      ← m.getD "filter" (.optional .value) none⟩

end SubScan

/-- The switch for vectorized readers as a document gives it. -/
structure Options where
  vectorize : Bool
  deriving DecidableEq, Repr

namespace Options

def toJson (o : Options) : Value := .object [("store.hive.orc.vectorize", .bool o.vectorize)]

def decoder : Decoder Options :=
  Decoder.record ["store.hive.orc.vectorize"] fun m => do
    return ⟨← m.getD "store.hive.orc.vectorize" .bool true⟩

end Options

/-- The user a scan runs as. -/
structure Identity where
  user : String
  deriving DecidableEq, Repr

namespace Identity

def toJson (i : Identity) : Value := .object [("user", .text i.user)]

def decoder : Decoder Identity :=
  Decoder.record ["user"] fun m => do return ⟨← m.required "user" .text⟩

end Identity

end Scan

/-- A scan of a table, fully equipped. -/
structure Scan where
  resolver : Resolver
  constructors : Scan.Constructors
  serdes : Serde.Factory
  deltas : Delta.Lister
  table : Table
  part : Scan.SubScan
  context : Scan.Context
  composite : Composite
  /-- The settings of the engine, before those of the table. -/
  settings : Properties

namespace Scan

/-- The settings that all splits start from: the properties of the table over the engine's settings. -/
def baseSettings (s : Scan) : Properties := s.settings.overlay s.table.properties

def isTransactional (s : Scan) : Bool := s.baseSettings.marksTransactional

end TableScan.Scan
