/-
  TableScan.Explain — the command that tells, from a written description of a scan, with which
  strategy each split would be read, and the command that lists the registered formats.

  A description is planned like a scan of it, with the registry and libraries that come with the
  engine and the deltas that its splits record; no reader is built. One split that cannot be
  planned fails the whole command, and then nothing goes to standard output.
-/

import TableScan.Scan.Sequence

namespace TableScan.Explain

open TableScan.Json TableScan.Scan

/-- A split as a description gives it. -/
structure SplitDescription where
  key : String
  details : SplitDetails
  values : List PartitionValue
  deriving DecidableEq

def SplitDescription.decoder : Decoder SplitDescription :=
  Decoder.record ["key", "partition_id", "input_split", "partition_values"] fun m => do
    return ⟨← m.required "key" .text,
      ⟨← m.getD "partition_id" (.optional .int32) none, ← m.required "input_split" Storage.decoder⟩,
      ← m.getD "partition_values" (.list PartitionValue.decoder) []⟩

def SplitDescription.split (d : SplitDescription) : Split := .ofDetails d.key d.details d.values

/-- A scan as it is described in writing. -/
structure Description where
  table : Table
  splits : List SplitDescription
  columns : List String
  options : Options
  libraries : NativeLibrary.Loaded
  settings : Properties

def Description.decoder : Decoder Description :=
  Decoder.record ["table", "splits", "columns", "options", "capabilities", "conf"] fun m => do
    return ⟨← m.required "table" Table.decoder,
      ← m.required "splits" (.list SplitDescription.decoder),
      ← m.getD "columns" (.list .text) [], ← m.getD "options" Options.decoder ⟨true⟩,
      ← m.getD "capabilities" NativeLibrary.Loaded.decoder .everything,
      ← m.getD "conf" Properties.decoder .empty⟩

/-- Why the command fails. -/
inductive Fault
  | unreadable (path : String)
  | invalid (path : String)
  | split (key : String) (cause : SplitFault)

def Fault.message : Fault → String
  | .unreadable path => "Scan description not found or not readable: " ++ path
  | .invalid path =>
    "Invalid scan description " ++ path ++ ": " ++ Json.faultText
      ++ ". Expected a JSON object with \x60table\x60 and \x60splits\x60."
  | .split key cause => "Failed to resolve split " ++ key ++ ": " ++ cause.message

/-- The description in a file of this content; none if there is no such file. -/
def load (path : String) (content : Option (List UInt8)) : Except Fault Description :=
  match content.bind fun bytes => String.fromUTF8? ⟨bytes.toArray⟩ with
  | none => .error (.unreadable path)
  | some text =>
    match Description.decoder.ofString? text with
    | none => .error (.invalid path)
    | some d => .ok d

/-- The user whom described scans are planned for. -/
def user : String := "hivescan"

/-- The scan that a description describes; its readers are empty. -/
def Description.scan (d : Description) : Scan where
  resolver := ⟨.standard, d.libraries⟩
  constructors := .uniform fun _ _ => .ok .empty
  serdes := .builtIn
  deltas := Delta.recorded
  table := d.table
  part := ⟨d.splits.map SplitDescription.split, d.columns, none⟩
  context := ⟨d.options.vectorize, user, .current, "hive-scan"⟩
  composite := .ofColumns d.columns d.table.partitionColumns
  settings := d.settings

/-- The plans of splits, in order, up to the first that cannot be planned. -/
def planAll (s : Scan) (session : Session) : List Split → Except Fault (List Plan)
  | [] => .ok []
  | split :: rest =>
    match (plan s split).run session with
    | (.error cause, _) => .error (.split split.key cause)
    | (.ok p, session) => do return p :: (← planAll s session rest)

def explain (d : Description) : Except Fault (List Plan) :=
  planAll d.scan .start d.scan.part.splits

def notes (p : Plan) : String :=
  let words := (if p.partitionResolved then ["partition-resolved"] else [])
    ++ (if p.drifted then ["drifted"] else [])
    ++ (if p.pendingDeltas then ["pending-deltas"] else [])
  if words.isEmpty then "-" else ",".intercalate words

def planLine (p : Plan) : String :=
  let partition := match p.partition with
    | none => "-"
    | some id => Text.signedDecimal id.toInt
  "\t".intercalate [p.splitKey, partition, p.strategy.name, p.tableStrategy.name, notes p]

def lines (ls : List String) : String := String.join (ls.map (· ++ "\n"))

/-- One line a plan, below a line of headings. -/
def table (plans : List Plan) : String :=
  lines ("\t".intercalate ["split", "partition", "strategy", "table", "notes"] :: plans.map planLine)

def document (plans : List Plan) : String :=
  lines [(Value.array (plans.map Plan.toJson)).renderPretty]

/-- One line for each registered format. -/
def formats (r : Registry) : String := lines (r.entries.map fun e => e.1 ++ "\t" ++ e.2.name)

/-- What a command leaves behind. -/
structure Outcome where
  exitCode : UInt8
  output : String
  errors : String
  deriving DecidableEq, Repr

/-- The plans of the description in a file, as a table or as a document. -/
def run (path : String) (content : Option (List UInt8)) (json : Bool) : Outcome :=
  match load path content >>= explain with
  | .ok plans => ⟨0, if json then document plans else table plans, ""⟩
  | .error fault => ⟨1, "", lines [fault.message]⟩

def runFormats : Outcome := ⟨0, formats .standard, ""⟩

end TableScan.Explain
