/-
  TableScan.Delta — the deltas of a transactional split: recent writes that lie in directories
  of their own under the transactional root and are not yet merged into the base.

  Paths are texts with slashes, since they may name places in stores that are no local file
  tree. The root is the directory of a base that lies in it, the directory above that of any
  other base, and the path itself where there is no base. Deltas are told by the split
  (`recorded`), or by the directories under the root (`listed`).
-/

import TableScan.FileTree
import TableScan.Split

namespace TableScan.Delta

open TableScan.Text

/-- The path without its last name: what stands before the last slash, trailing slashes aside. -/
def parentChars (path : List Char) : List Char :=
  match (path.reverse.dropWhile (· = '/')).dropWhile (· ≠ '/') with
  | [] => []
  | ['/'] => ['/']
  | _ :: above => above.reverse

def parent (path : String) : String := String.ofList (parentChars path.toList)

/-- A name under a root, behind one slash. -/
def join (root name : String) : String :=
  if root.toList.getLast? = some '/' then root ++ name else root ++ "/" ++ name

/-- The directory that holds the deltas of a split. -/
def root (r : TransactionalRange) : String :=
  if r.hasBase then (if r.baseInRoot then parent r.path else parent (parent r.path)) else r.path

def namePrefix : String := "delta_"

def deleteNamePrefix : String := "delete_delta_"

/-- The name of a delta: its write ids in at least seven digits, its statement in at least four. -/
def directoryName (first last : UInt64) (statement : Option UInt32) : String :=
  namePrefix ++ String.ofList (padded 7 first.toNat) ++ "_" ++ String.ofList (padded 7 last.toNat)
    ++ match statement with
      | none => ""
      | some s => "_" ++ String.ofList (padded 4 s.toNat)

/-- The deltas that a recorded range stands for. -/
def names (d : DeltaRange) : List String :=
  if d.statements.isEmpty then [directoryName d.first d.last none]
  else d.statements.map fun s => directoryName d.first d.last (some s)

structure ListFault where
  root : String
  cause : FileTree.ListFault
  deriving DecidableEq, Repr

def ListFault.message (f : ListFault) : String :=
  "Failed to list delta directories under " ++ f.root ++ ": " ++ f.cause.message

/-- Lists the deltas of a split under a root, as full paths. -/
abbrev Lister := String → TransactionalRange → Except ListFault (List String)

/-- The deltas that were recorded when the split was planned. -/
def recorded : Lister := fun root r => .ok ((r.deltas.flatMap names).map (join root))

def isDeltaName (name : String) : Bool :=
  namePrefix.toList.isPrefixOf name.toList || deleteNamePrefix.toList.isPrefixOf name.toList

/-- The delta directories in a file tree. A root that is not there has none. -/
def listed (t : FileTree) : Lister := fun root _ =>
  match t.subdirectories root with
  | .ok names => .ok ((names.filter isDeltaName).map (join root))
  | .error (.notFound _) => .ok []
  | .error cause => .error ⟨root, cause⟩

/-- Whether a split has any delta. -/
def pending (lister : Lister) (r : TransactionalRange) : Except ListFault Bool :=
  (lister (root r) r).map (!·.isEmpty)

end TableScan.Delta
