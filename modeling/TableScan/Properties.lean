/-
  TableScan.Properties — string properties of tables and partitions, and the job settings that
  are built from them. Both are maps from keys to values in key order; settings are properties
  laid over one another, the later over the earlier (`Dict.overlay`).

  The keys that decide how a split is read are named here, each with the way its value is
  understood. Truth values are compared without regard to the case of A to Z; where a key has
  two spellings the first that is present decides.
-/

import TableScan.Dict
import TableScan.Text.Blank
import TableScan.Text.Lowercase
import TableScan.Json.Decoder
import TableScan.Json.Printer

namespace TableScan

open TableScan.Text TableScan.Json

abbrev Properties := Dict String String

namespace Properties

/-- The key under which the settings of a split record its input format. -/
def inputFormatKey : String := "mapred.input.format.class"

def transactionalKey : String := "transactional"

def zeroCopyKey : String := "orc.use.zerocopy"

/-- The older name of `zeroCopyKey`. -/
def oldZeroCopyKey : String := "hive.exec.orc.zerocopy"

/-- The truth value of a key, blanks around it aside; none for any other word. -/
def boolean? (p : Properties) (key : String) : Option Bool := do
  let word := trim (← p.get? key)
  if sameIgnoringCase word "true" then some true
  else if sameIgnoringCase word "false" then some false
  else none

def inputFormat? (p : Properties) : Option String := p.get? inputFormatKey

def withInputFormat (p : Properties) (format : String) : Properties :=
  p.insert inputFormatKey format

/-- The settings mark their table as transactional. The key may be in capitals, but only if it is not
there in small letters. -/
def marksTransactional (p : Properties) : Bool :=
  match (p.get? transactionalKey).or (p.get? "TRANSACTIONAL") with
  | some word => sameIgnoringCase word "true"
  | none => false

/-- The settings ask for zero-copy reads; a word that is no truth value asks for none. -/
def asksZeroCopy (p : Properties) : Bool :=
  match (p.get? zeroCopyKey).or (p.get? oldZeroCopyKey) with
  | some word => sameIgnoringCase (trim word) "true"
  | none => false

def toJson (p : Properties) : Value := .object (p.entries.map fun e => (e.1, .text e.2))

def decoder : Decoder Properties := Decoder.dict RawText.decode? Decoder.text

end Properties

end TableScan
