/-
  TableScan.Json.Value — the meaning of a JSON tree.

  Numbers written without fraction and exponent are integers if a signed or an unsigned
  64-bit word holds them, and binary64 otherwise; `-0` counts as written with a sign and is
  the negative zero. Texts are Unicode (`RawText.decode?`). Of members with one key the
  last counts, and members stand in key order. A value is only read from a tree that nests at
  most as deep as the reader allows (`Tree.value?`).
-/

import TableScan.Dict
import TableScan.Number.Binary64
import TableScan.Json.Tree

namespace TableScan.Json

open TableScan.Number (Binary64)

/-- A JSON value. The members of an object are in the order in which they are written. -/
inductive Value
  | null
  | bool (b : Bool)
  | int (n : Int)
  | float (x : Binary64)
  | text (s : String)
  | array (items : List Value)
  | object (members : List (String × Value))
  deriving Inhabited

/-- How deep arrays and objects may nest in a document. -/
def nestingLimit : Nat := 127

/-- The bytes of a text; none if half of a surrogate pair stands alone. -/
def RawText.utf8? : RawText → Option (List UInt8)
  | [] => some []
  | .byte b :: rest => (utf8? rest).map (b :: ·)
  | .unit n :: rest =>
    if 0xD800 ≤ n ∧ n < 0xDC00 then
      match rest with
      | .unit m :: rest =>
        if 0xDC00 ≤ m ∧ m < 0xE000 then
          let c := Char.ofNat (0x10000 + (n - 0xD800) * 0x400 + (m - 0xDC00))
          (utf8? rest).map (String.utf8EncodeChar c ++ ·)
        else none
      | _ => none
    else if 0xDC00 ≤ n ∧ n < 0xE000 then none
    else (utf8? rest).map (String.utf8EncodeChar (Char.ofNat n) ++ ·)

def RawText.decode? (t : RawText) : Option String := do
  String.fromUTF8? ⟨(← t.utf8?).toArray⟩

namespace Numeral

def wholeValue (n : Numeral) : Nat := n.whole.foldl (fun v d => 10 * v + d) 0

/-- The integer, if it is written as one and is not a negative zero. -/
def int? (n : Numeral) : Option Int :=
  if n.fraction.isSome ∨ n.exponent.isSome then none
  else if n.negative then (if n.wholeValue = 0 then none else some (-n.wholeValue))
  else some n.wholeValue

/-- Leading digits joined to `significand` while 64 bits hold it, and how many were left out. -/
def gather (significand : Nat) : List Nat → Nat × Nat
  | [] => (significand, 0)
  | d :: ds =>
    if 10 * significand + d < UInt64.size then gather (10 * significand + d) ds
    else (significand, ds.length + 1)

/-- A digit left out before the point raises the exponent; one taken in behind it lowers it. -/
def float? (n : Numeral) : Option Binary64 :=
  let (whole, dropped) := gather 0 n.whole
  let fraction := n.fraction.getD []
  let (significand, unused) := gather whole fraction
  let taken := fraction.length - unused
  let written : Int := match n.exponent with
    | none => 0
    | some (negative, ds) =>
      let e : Int := (ds.foldl (fun v d => 10 * v + d) 0 : Nat)
      if negative then -e else e
  Binary64.ofDecimal? n.negative significand (written + dropped - taken)

def value? (n : Numeral) : Option Value :=
  match n.int? with
  | some i => if Int64.minValue.toInt ≤ i ∧ i < UInt64.size then some (.int i) else n.float?.map .float
  | none => n.float?.map .float

end Numeral

mutual

/-- The value of a tree in which at most `room` arrays and objects nest; none if it nests deeper or
holds a text that is not Unicode or a number beyond the largest. -/
def Tree.value? (room : Nat) : Tree → Option Value
  | .null => some .null
  | .bool b => some (.bool b)
  | .number n => n.value?
  | .text t => t.decode?.map .text
  | .array items =>
    match room with
    | 0 => none
    | room + 1 => (Tree.values? room items).map .array
  | .object members =>
    match room with
    | 0 => none
    | room + 1 => (Tree.memberValues? room members).map fun ms => .object (Dict.ofList ms).entries

def Tree.values? (room : Nat) : List Tree → Option (List Value)
  | [] => some []
  | t :: rest => do return (← Tree.value? room t) :: (← Tree.values? room rest)

def Tree.memberValues? (room : Nat) : List (RawText × Tree) → Option (List (String × Value))
  | [] => some []
  | (k, t) :: rest => do
    return ((← k.decode?), (← Tree.value? room t)) :: (← Tree.memberValues? room rest)

end

/-- The value that a whole text spells. -/
def Value.ofString? (s : String) : Option Value := do (← Tree.ofString? s).value? nestingLimit

def Value.member? (v : Value) (key : String) : Option Value :=
  match v with
  | .object members => members.lookup key
  | _ => none

def Value.text? : Value → Option String
  | .text s => some s
  | _ => none

def Value.int? : Value → Option Int
  | .int n => some n
  | _ => none

end TableScan.Json
