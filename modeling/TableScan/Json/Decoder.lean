/-
  TableScan.Json.Decoder — typed readers of JSON trees.

  A decoder is told how many arrays and objects may still nest in the tree it is given. A
  record is an object of its members by name, or an array of them in declared order
  (`Members`): members of other names are passed over unread, a member given twice is
  refused, and so is an array longer than the record. Integers have to be written as
  integers and fit their type.
-/

import TableScan.Json.Value

namespace TableScan.Json

/-- Reads a tree in which at most so many arrays and objects may nest. -/
abbrev Decoder (α : Type) := Nat → Tree → Option α

namespace Decoder

variable {α : Type}

def value : Decoder Value := Tree.value?

def text : Decoder String
  | _, .text t => t.decode?
  | _, _ => none

def bool : Decoder Bool
  | _, .bool b => some b
  | _, _ => none

/-- An integer from `low` up to, but without, `high`. -/
def intBetween (low high : Int) : Decoder Int
  | _, .number n => n.int?.filter fun i => low ≤ i ∧ i < high
  | _, _ => none

def uint8 : Decoder UInt8 := fun room t =>
  (intBetween 0 UInt8.size room t).map fun i => UInt8.ofNat i.toNat

def uint32 : Decoder UInt32 := fun room t =>
  (intBetween 0 UInt32.size room t).map fun i => UInt32.ofNat i.toNat

def uint64 : Decoder UInt64 := fun room t =>
  (intBetween 0 UInt64.size room t).map fun i => UInt64.ofNat i.toNat

def int32 : Decoder Int32 := fun room t =>
  (intBetween Int32.minValue.toInt (Int32.maxValue.toInt + 1) room t).map Int32.ofInt

/-- A null is the absent value. -/
def optional (d : Decoder α) : Decoder (Option α)
  | _, .null => some none
  | room, t => (d room t).map some

def list (d : Decoder α) : Decoder (List α)
  | room + 1, .array items => items.mapM (d room)
  | _, _ => none

/-- An object of any keys, each read by `key`. Of members with one key the last counts. -/
def dict {K : Type} [Ord K] [Std.TransOrd K] [Std.LawfulEqOrd K]
    (key : RawText → Option K) (d : Decoder α) : Decoder (Dict K α)
  | room + 1, .object members =>
    (members.mapM fun (k, t) => do return ((← key k), (← d room t))).map Dict.ofList
  | _, _ => none

/-- The integer that a key spells, written plainly and without escapes. -/
def int32Key (k : RawText) : Option Int32 := do
  let bytes ← k.mapM fun | .byte b => some b | .unit _ => none
  let (n, rest) ← match bytes with
    | [] => none
    | b :: more => if b = code '-' then number? true more else number? false bytes
  if rest = [] then Decoder.int32 0 (.number n) else none

/-- One of a fixed set of names, as a text or as the only key of an object whose value is null. -/
def oneOf (options : List (String × α)) : Decoder α
  | _, .text t => do options.lookup (← t.decode?)
  | _ + 1, .object [(k, .null)] => do options.lookup (← k.decode?)
  | _, _ => none

end Decoder

/-- The members of a record that are given, by declared name, with the nesting left for each. -/
structure Members where
  room : Nat
  given : List (String × Tree)

namespace Members

variable {α : Type}

def ofTree? (names : List String) : Nat → Tree → Option Members
  | room + 1, .array items =>
    if items.length ≤ names.length then some ⟨room, names.zip items⟩ else none
  | room + 1, .object members => do
    let named ← members.mapM fun (k, t) => do return ((← k.decode?), t)
    let known := named.filter fun m => names.contains m.1
    if (known.map (·.1)).Nodup then some ⟨room, known⟩ else none
  | _, _ => none

/-- A member that has to be given. -/
def required (m : Members) (name : String) (d : Decoder α) : Option α := do
  d m.room (← m.given.lookup name)

/-- A member that may be left out. -/
def getD (m : Members) (name : String) (d : Decoder α) (default : α) : Option α :=
  match m.given.lookup name with
  | none => some default
  | some t => d m.room t

end Members

namespace Decoder

variable {α : Type}

/-- A record of the declared members. -/
def record (names : List String) (build : Members → Option α) : Decoder α := fun room t => do
  build (← Members.ofTree? names room t)

/-- A record whose kind is told by one more member, given first in the array form and anywhere in
the object. Nothing in it stays unread: every member has to be a value. -/
def tagged (tag : String) (kinds : List (String × Decoder α)) : Decoder α := fun room t => do
  let _ ← t.value? room
  match t with
  | .array (.text kind :: rest) => (← kinds.lookup (← kind.decode?)) room (.array rest)
  | .object members => do
    match members.filter (·.1.decode? = some tag) with
    | [(_, .text kind)] =>
      let d ← kinds.lookup (← kind.decode?)
      d room (.object (members.filter (·.1.decode? ≠ some tag)))
    | _ => none
  | _ => none

/-- Reads a whole document. -/
def ofBytes? (d : Decoder α) (bytes : List UInt8) : Option α := do
  d nestingLimit (← Tree.ofBytes? bytes)

def ofString? (d : Decoder α) (s : String) : Option α := d.ofBytes? s.toUTF8.toList

end Decoder

end TableScan.Json
