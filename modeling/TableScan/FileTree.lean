/-
  TableScan.FileTree — directories, files and symbolic links, and how paths are resolved in
  them. Names are bytes, and need not be text.

  A path is resolved step by step from the working directory, or from the root if it starts
  with a slash. Only a directory can be stepped in, also by an empty step or a point, so a
  trailing slash asks for a directory. Links are followed wherever they stand, up to
  `maxLinks` of them.
-/

import TableScan.Text.Numeral

namespace TableScan

/-- A name in a directory. -/
abbrev FileName := List UInt8

/-- What stands under a name. -/
inductive FileNode
  | directory (entries : List (FileName × FileNode))
  | file
  | link (target : List UInt8)
  deriving Inhabited

/-- A tree, and the names that lead from its root to the working directory. -/
structure FileTree where
  root : FileNode
  workingDirectory : List FileName

/-- Why a path leads nowhere. -/
inductive PathFault
  | notFound
  | notADirectory
  | nameTooLong
  | tooManyLinks
  | nulByte
  deriving DecidableEq, Repr

def PathFault.message : PathFault → String
  | .notFound => "No such file or directory (os error 2)"
  | .notADirectory => "Not a directory (os error 20)"
  | .nameTooLong => "File name too long (os error 36)"
  | .tooManyLinks => "Too many levels of symbolic links (os error 40)"
  | .nulByte => "file name contained an unexpected NUL byte"

namespace FileTree

/-- Longest path, in bytes. -/
def maxPath : Nat := 4095

/-- Longest name, in bytes. -/
def maxName : Nat := 255

/-- Most links that one path may lead through. -/
def maxLinks : Nat := 40

def slash : UInt8 := 0x2F

def point : UInt8 := 0x2E

/-- The steps between slashes, empty ones included. -/
def steps : List UInt8 → List FileName
  | [] => [[]]
  | b :: rest =>
    match steps rest with
    | [] => [[b]]
    | s :: more => if b = slash then [] :: s :: more else (b :: s) :: more

def isAbsolute (path : List UInt8) : Bool := path.head? == some slash

/-- What stands at the end of a list of names. -/
def nodeAt? : List FileName → FileNode → Option FileNode
  | [], node => some node
  | name :: rest, .directory entries => (entries.lookup name).bind (nodeAt? rest)
  | _ :: _, _ => none

def node? (t : FileTree) (place : List FileName) : Option FileNode := nodeAt? place t.root

/-- The place that steps lead to from `place`, through no more than `links` links. -/
def walk (t : FileTree) (links : Nat) (place : List FileName) :
    List FileName → Except PathFault (List FileName)
  | [] => .ok place
  | step :: rest =>
    match t.node? place with
    | some (.directory entries) =>
      if step = [] ∨ step = [point] then t.walk links place rest
      else if step = [point, point] then t.walk links place.dropLast rest
      else if maxName < step.length then .error .nameTooLong
      else match entries.lookup step with
        | none => .error .notFound
        | some (.link target) =>
          match links with
          | 0 => .error .tooManyLinks
          | links + 1 => t.walk links (if isAbsolute target then [] else place) (steps target ++ rest)
        | some _ => t.walk links (place ++ [step]) rest
    | _ => .error .notADirectory
termination_by path => (links, path.length)

/-- The place that a path names, its last step followed if it is a link. -/
def resolve (t : FileTree) (path : String) : Except PathFault (List FileName) :=
  let bytes := path.toUTF8.toList
  if 0 ∈ bytes then .error .nulByte
  else if bytes = [] then .error .notFound
  else if maxPath < bytes.length then .error .nameTooLong
  else t.walk maxLinks (if isAbsolute bytes then [] else t.workingDirectory) (steps bytes)

/-- Why a directory cannot be listed. -/
inductive ListFault
  | notFound (path : String)
  | notADirectory (path : String)
  | unreadable (path : String) (cause : PathFault)
  deriving DecidableEq, Repr

def ListFault.message : ListFault → String
  | .notFound path => "Directory not found: " ++ path
  | .notADirectory path => "Not a directory: " ++ path
  | .unreadable path cause => "Failed to read directory " ++ path ++ ": " ++ cause.message

/-- The name of an entry that is itself a directory and whose name is text. -/
def directoryName? : FileName × FileNode → Option String
  | (name, .directory _) => String.fromUTF8? ⟨name.toArray⟩
  | _ => none

/-- The names of the directories in a directory, in order. Links to directories are none. -/
def subdirectories (t : FileTree) (path : String) : Except ListFault (List String) :=
  match t.resolve path with
  | .error .notFound => .error (.notFound path)
  | .error cause => .error (.unreadable path cause)
  | .ok place =>
    match t.node? place with
    | some (.directory entries) => .ok ((entries.filterMap directoryName?).mergeSort fun a b => a ≤ b)
    | _ => .error (.notADirectory path)

/-- The entries with one of them made or changed. -/
def replaceEntry (name : FileName) (node : FileNode) : List (FileName × FileNode) → List (FileName × FileNode)
  | [] => [(name, node)]
  | e :: rest => if e.1 = name then (name, node) :: rest else e :: replaceEntry name node rest

/-- The node at a place with `leaf` put below it, directories made on the way. A directory that is put
where one stands changes nothing, and nothing is put below a file or link. -/
def put (leaf : FileNode) : List FileName → Option FileNode → FileNode
  | [], some (.directory entries) =>
    match leaf with
    | .directory _ => .directory entries
    | _ => leaf
  | [], _ => leaf
  | name :: rest, some (.directory entries) =>
    .directory (replaceEntry name (put leaf rest (entries.lookup name)) entries)
  | name :: rest, none => .directory [(name, put leaf rest none)]
  | _ :: _, some other => other

/-- The tree with a node at a path below the working directory. -/
def add (t : FileTree) (path : List UInt8) (leaf : FileNode) : FileTree :=
  let names := (steps path).filter fun s => s ≠ [] ∧ s ≠ [point]
  { t with root := put leaf (t.workingDirectory ++ names) (some t.root) }

/-- A tree with nothing in it but the working directory. -/
def fresh (workingDirectory : List FileName) : FileTree :=
  ⟨put (.directory []) workingDirectory (some (.directory [])), workingDirectory⟩

end FileTree

end TableScan
