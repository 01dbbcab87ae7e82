/-
  TableScan.Resolution — the strategy with which a split is read.

  The registry decides it from the input format; without a registered format it is the default.
  A native columnar reader, once its libraries are there, is made a vectorized one when that
  is allowed and nothing forbids it: vectorized readers neither adapt columns that drifted
  nor merge pending deltas.
-/

import TableScan.NativeLibrary

namespace TableScan

/-- What a strategy is resolved for. -/
structure Circumstances where
  format : Option String
  /-- Vectorized readers are allowed. -/
  vectorize : Bool
  /-- The columns stored differ from those of the table. -/
  drifted : Bool
  transactional : Bool
  pendingDeltas : Bool
  settings : Properties

/-- What strategies are resolved from. -/
structure Resolver where
  registry : Registry
  libraries : NativeLibrary.Loaded

namespace Resolver

def standard : Resolver := ⟨.standard, .everything⟩

def resolve (r : Resolver) (c : Circumstances) : Except NativeLibrary.NotLoaded Strategy :=
  match c.format.bind r.registry.get? with
  | none => .ok .default
  | some .columnarNative => do
    NativeLibrary.check .columnarNative c.settings r.libraries
    let mergeNeeded := c.transactional && c.pendingDeltas
    return if c.vectorize && !c.drifted && !mergeNeeded then .columnarVectorized else .columnarNative
  | some other => .ok other

end Resolver

end TableScan
