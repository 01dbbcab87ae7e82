/-
  TableScan.Json.Tree — the tree of a JSON text, its numbers and texts still as written.

  A tree is read token by token by a machine with a stack of unfinished arrays and objects
  (`Reader.step`). The machine knows at every token what may come next, so a text is a tree
  exactly when no step fails and the machine ends with nothing unfinished. How deep a tree
  nests is not limited here; whoever takes values out of it sets the limit.
-/

import TableScan.Json.Token

namespace TableScan.Json

/-- Stands in messages for what is wrong with a JSON text. -/
def faultText : String := "<json>"

inductive Tree
  | null
  | bool (b : Bool)
  | number (n : Numeral)
  | text (t : RawText)
  | array (items : List Tree)
  | object (members : List (RawText × Tree))

namespace Tree

/-- An array or object that has been opened, with what is finished in it, latest first. An object also
knows the key whose value is being read. -/
inductive Unfinished
  | array (items : List Tree)
  | object (members : List (RawText × Tree)) (key : RawText)

/-- What the reader waits for, and the unfinished trees around it, innermost first. -/
inductive Reader
  | value (around : List Unfinished)
  | firstItem (around : List Unfinished)
  | firstKey (around : List Unfinished)
  | nextKey (members : List (RawText × Tree)) (around : List Unfinished)
  | colon (members : List (RawText × Tree)) (key : RawText) (around : List Unfinished)
  | finished (t : Tree) (around : List Unfinished)

namespace Reader

def stepValue (around : List Unfinished) : Token → Option Reader
  | .openArray => some (.firstItem around)
  | .openObject => some (.firstKey around)
  | .null => some (.finished .null around)
  | .bool b => some (.finished (.bool b) around)
  | .number n => some (.finished (.number n) around)
  | .text t => some (.finished (.text t) around)
  | _ => none

def step : Reader → Token → Option Reader
  | value around, t => stepValue around t
  | firstItem around, .closeArray => some (.finished (.array []) around)
  | firstItem around, t => stepValue (.array [] :: around) t
  | firstKey around, .closeObject => some (.finished (.object []) around)
  | firstKey around, .text key => some (.colon [] key around)
  | nextKey members around, .text key => some (.colon members key around)
  | colon members key around, .colon => some (.value (.object members key :: around))
  | finished t (.array items :: around), .comma => some (.value (.array (t :: items) :: around))
  | finished t (.array items :: around), .closeArray =>
    some (.finished (.array (t :: items).reverse) around)
  | finished t (.object members key :: around), .comma =>
    some (.nextKey ((key, t) :: members) around)
  | finished t (.object members key :: around), .closeObject =>
    some (.finished (.object ((key, t) :: members).reverse) around)
  | _, _ => none

def run (r : Reader) : List Token → Option Reader
  | [] => some r
  | t :: ts => do (← r.step t).run ts

def result? : Reader → Option Tree
  | .finished t [] => some t
  | _ => none

end Reader

/-- The one tree that a token sequence spells. -/
def ofTokens? (ts : List Token) : Option Tree := do (← (Reader.value []).run ts).result?

def ofBytes? (bs : List UInt8) : Option Tree := do ofTokens? (← tokens? bs)

def ofString? (s : String) : Option Tree := ofBytes? s.toUTF8.toList

end Tree

end TableScan.Json
