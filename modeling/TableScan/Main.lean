/-
  TableScan.Main — the command line: `explain --plan FILE [--json]` and `formats`. It reads the
  file, and prints what `TableScan.Explain` says.
-/

import TableScan.Explain

open TableScan

/-- The file and the form that the arguments of `explain` ask for. -/
def explainArguments (path : Option String) (json : Bool) : List String → Option (String × Bool)
  | [] => path.map (·, json)
  | "--json" :: rest => explainArguments path true rest
  | "--plan" :: file :: rest => explainArguments (some file) json rest
  | _ => none

def readBytes? (path : String) : IO (Option (List UInt8)) := do
  try return some (← IO.FS.readBinFile path).toList catch _ => return none

def usage : Explain.Outcome :=
  ⟨2, "", "usage: hivescan explain --plan FILE [--json]\n       hivescan formats\n"⟩

def outcome : List String → IO Explain.Outcome
  | ["formats"] => return Explain.runFormats
  | "explain" :: arguments =>
    match explainArguments none false arguments with
    | some (path, json) => return Explain.run path (← readBytes? path) json
    | none => return usage
  | _ => return usage

def main (arguments : List String) : IO UInt32 := do
  let o ← outcome arguments
  IO.print o.output
  IO.eprint o.errors
  return o.exitCode.toUInt32
