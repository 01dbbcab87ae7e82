/-
  TableScan.NativeLibrary — the native libraries of the host, and the check that a reader has
  those it needs. Only a native columnar reader that is asked for zero-copy reads needs any,
  and it needs all; the first one missing is an error, never a reason for a slower reader.
-/

import TableScan.Properties
import TableScan.Strategy

namespace TableScan

open TableScan.Json

inductive NativeLibrary
  | hadoop
  | snappy
  | zlib
  deriving DecidableEq, Repr, Inhabited

namespace NativeLibrary

def all : List NativeLibrary := [hadoop, snappy, zlib]

def name : NativeLibrary → String
  | hadoop => "Hadoop"
  | snappy => "Snappy"
  | zlib => "Zlib"

/-- The name stored in documents. -/
def code : NativeLibrary → String
  | hadoop => "native_code"
  | snappy => "snappy"
  | zlib => "zlib"

def toJson (l : NativeLibrary) : Value := .text l.code

def decoder : Decoder NativeLibrary := Decoder.oneOf (all.map fun l => (l.code, l))

/-- Which libraries are loaded. -/
structure Loaded where
  hadoop : Bool
  snappy : Bool
  zlib : Bool
  deriving DecidableEq, Repr, Inhabited

namespace Loaded

def everything : Loaded := ⟨true, true, true⟩

def nothing : Loaded := ⟨false, false, false⟩

def has (l : Loaded) : NativeLibrary → Bool
  | .hadoop => l.hadoop
  | .snappy => l.snappy
  | .zlib => l.zlib

def set (l : Loaded) (library : NativeLibrary) (loaded : Bool) : Loaded :=
  match library with
  | .hadoop => { l with hadoop := loaded }
  | .snappy => { l with snappy := loaded }
  | .zlib => { l with zlib := loaded }

/-- The first library that is not loaded. -/
def firstMissing? (l : Loaded) : Option NativeLibrary := all.find? (!l.has ·)

def toJson (l : Loaded) : Value :=
  .object (all.map fun library => (library.code, .bool (l.has library)))

/-- A library that a document does not mention is loaded. -/
def decoder : Decoder Loaded :=
  Decoder.record (all.map code) fun m => do
    return ⟨← m.getD "native_code" .bool true, ← m.getD "snappy" .bool true,
      ← m.getD "zlib" .bool true⟩

end Loaded

/-- A library that a reader needs is not loaded. -/
structure NotLoaded where
  library : NativeLibrary
  deriving DecidableEq, Repr

def NotLoaded.message (e : NotLoaded) : String :=
  e.library.name ++ " native library is required for Hive ORC data, but is not loaded"

/-- Whether a reader of this strategy has what it needs under these settings. -/
def check (strategy : Strategy) (settings : Properties) (loaded : Loaded) : Except NotLoaded Unit :=
  if strategy = .columnarNative ∧ settings.asksZeroCopy then
    match loaded.firstMissing? with
    | some library => .error ⟨library⟩
    | none => .ok ()
  else .ok ()

end NativeLibrary

end TableScan
