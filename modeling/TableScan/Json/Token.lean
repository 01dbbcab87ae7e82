/-
  TableScan.Json.Token — the lexemes of a JSON text, read from bytes.

  Numbers and texts are kept as written: whether a number fits a type, whether an escape
  names half a character, and whether bytes are UTF-8 is only judged where the lexeme is used
  (`Numeral`, `RawText.decode?`), so a field nobody reads may hold either.
-/

namespace TableScan.Json

/-- A number as written, its digits as values. -/
structure Numeral where
  negative : Bool
  whole : List Nat
  fraction : Option (List Nat)
  /-- Whether the exponent is negative, and its digits. -/
  exponent : Option (Bool × List Nat)
  deriving DecidableEq, Repr

/-- One element of a text: a byte, written plainly or by a letter escape, or a UTF-16 unit written by
number. -/
inductive Piece
  | byte (b : UInt8)
  | unit (n : Nat)
  deriving DecidableEq, Repr

/-- What stands between the quotes. -/
abbrev RawText := List Piece

inductive Token
  | openArray | closeArray | openObject | closeObject | comma | colon
  | null | bool (b : Bool)
  | number (n : Numeral)
  | text (t : RawText)
  deriving DecidableEq, Repr

def code (c : Char) : UInt8 := c.toNat.toUInt8

def isBlank (b : UInt8) : Bool :=
  b == code ' ' || b == code '\n' || b == code '\t' || b == code '\r'

def digit? (b : UInt8) : Option Nat :=
  if code '0' ≤ b ∧ b ≤ code '9' then some (b.toNat - 0x30) else none

def hexDigit? (b : UInt8) : Option Nat :=
  if code '0' ≤ b ∧ b ≤ code '9' then some (b.toNat - 0x30)
  else if code 'a' ≤ b ∧ b ≤ code 'f' then some (b.toNat - 0x57)
  else if code 'A' ≤ b ∧ b ≤ code 'F' then some (b.toNat - 0x37)
  else none

/-- The longest run of digits at the front, and what follows it. -/
def digits : List UInt8 → List Nat × List UInt8
  | [] => ([], [])
  | b :: rest =>
    match digit? b with
    | none => ([], b :: rest)
    | some d => let (ds, rest) := digits rest; (d :: ds, rest)

theorem length_digits_le (bs : List UInt8) : (digits bs).2.length ≤ bs.length := by
  induction bs with
  | nil => simp [digits]
  | cons b rest ih => grind [digits]

theorem length_digits_lt (bs : List UInt8) (h : (digits bs).1 ≠ []) :
    (digits bs).2.length < bs.length := by
  cases bs with
  | nil => simp [digits] at h
  | cons b rest =>
    have := length_digits_le rest
    grind [digits]

/-- A fraction, if a point comes next; the point needs a digit behind it. -/
def fraction? : List UInt8 → Option (Option (List Nat) × List UInt8)
  | [] => some (none, [])
  | b :: rest =>
    if b = code '.' then
      match digits rest with
      | ([], _) => none
      | (ds, rest) => some (some ds, rest)
    else some (none, b :: rest)

def exponentSign : List UInt8 → Bool × List UInt8
  | [] => (false, [])
  | b :: rest =>
    if b = code '-' then (true, rest)
    else if b = code '+' then (false, rest)
    else (false, b :: rest)

/-- An exponent, if its letter comes next; the letter needs a digit behind it or its sign. -/
def exponent? : List UInt8 → Option (Option (Bool × List Nat) × List UInt8)
  | [] => some (none, [])
  | b :: rest =>
    if b = code 'e' ∨ b = code 'E' then
      let (negative, rest) := exponentSign rest
      match digits rest with
      | ([], _) => none
      | (ds, rest) => some (some (negative, ds), rest)
    else some (none, b :: rest)

/-- The number that starts here: no leading zero but a zero alone. -/
def number? (negative : Bool) (bs : List UInt8) : Option (Numeral × List UInt8) := do
  let (whole, rest) := digits bs
  if whole = [] ∨ (whole.head? = some 0 ∧ whole.length ≠ 1) then none
  else do
    let (fraction, rest) ← fraction? rest
    let (exponent, rest) ← exponent? rest
    return (⟨negative, whole, fraction, exponent⟩, rest)

theorem length_fraction?_le {bs : List UInt8} {r : Option (List Nat) × List UInt8}
    (h : fraction? bs = some r) : r.2.length ≤ bs.length := by
  cases bs with
  | nil => simp [fraction?] at h; simp [← h]
  | cons b rest =>
    have := length_digits_le rest
    grind [fraction?]

theorem length_exponentSign_le (bs : List UInt8) : (exponentSign bs).2.length ≤ bs.length := by
  cases bs <;> grind [exponentSign]

theorem length_exponent?_le {bs : List UInt8} {r : Option (Bool × List Nat) × List UInt8}
    (h : exponent? bs = some r) : r.2.length ≤ bs.length := by
  cases bs with
  | nil => simp [exponent?] at h; simp [← h]
  | cons b rest =>
    have := length_exponentSign_le rest
    have := length_digits_le (exponentSign rest).2
    grind [exponent?]

theorem length_number?_lt {negative : Bool} {bs : List UInt8} {r : Numeral × List UInt8}
    (h : number? negative bs = some r) : r.2.length < bs.length := by
  simp only [number?] at h
  split at h
  case isTrue => cases h
  case isFalse hw =>
    simp only [Option.bind_eq_bind, Option.bind_eq_some_iff, Option.pure_def,
      Option.some.injEq] at h
    obtain ⟨f, hf, e, he, rfl⟩ := h
    have := length_digits_lt bs fun hn => hw (.inl hn)
    have := length_fraction?_le hf
    have := length_exponent?_le he
    simp only
    omega

/-- The byte that a letter escape stands for. -/
def letterEscape? (b : UInt8) : Option UInt8 :=
  if b = code '"' ∨ b = code '\\' ∨ b = code '/' then some b
  else if b = code 'b' then some 8
  else if b = code 'f' then some 12
  else if b = code 'n' then some 10
  else if b = code 'r' then some 13
  else if b = code 't' then some 9
  else none

/-- The text up to the closing quote. A byte below 0x20 has to be escaped. -/
def rawText? : List UInt8 → Option (RawText × List UInt8)
  | [] => none
  | b :: rest =>
    if b = code '"' then some ([], rest)
    else if b = code '\\' then
      match rest with
      | [] => none
      | e :: rest =>
        if e = code 'u' then
          match rest with
          | a :: b :: c :: d :: rest => do
            let unit := (((← hexDigit? a) * 16 + (← hexDigit? b)) * 16 + (← hexDigit? c)) * 16
              + (← hexDigit? d)
            let (ps, rest) ← rawText? rest
            return (.unit unit :: ps, rest)
          | _ => none
        else do
          let byte ← letterEscape? e
          let (ps, rest) ← rawText? rest
          return (.byte byte :: ps, rest)
    else if b < 0x20 then none
    else do
      let (ps, rest) ← rawText? rest
      return (.byte b :: ps, rest)

theorem length_rawText?_lt {bs : List UInt8} {r : RawText × List UInt8}
    (h : rawText? bs = some r) : r.2.length < bs.length := by
  fun_induction rawText? bs generalizing r <;>
    simp_all only [List.length_cons, Option.some.injEq, reduceCtorEq, Option.bind_eq_bind,
      Option.pure_def, Option.bind_eq_some_iff]
  all_goals grind

def punctuation? (b : UInt8) : Option Token :=
  if b = code '[' then some .openArray
  else if b = code ']' then some .closeArray
  else if b = code '\x7b' then some .openObject
  else if b = code '\x7d' then some .closeObject
  else if b = code ',' then some .comma
  else if b = code ':' then some .colon
  else none

def keyword? (word : String) (t : Token) (bs : List UInt8) : Option (Token × List UInt8) :=
  if (word.toList.map code).isPrefixOf bs then some (t, bs.drop word.length) else none

/-- The first token of a text that does not start with a blank, and what follows it. -/
def token? : List UInt8 → Option (Token × List UInt8)
  | [] => none
  | b :: rest =>
    match punctuation? b with
    | some t => some (t, rest)
    | none =>
      if b = code '"' then (rawText? rest).map fun (t, rest) => (.text t, rest)
      else if b = code '-' then (number? true rest).map fun (n, rest) => (.number n, rest)
      else if b = code 'n' then keyword? "ull" .null rest
      else if b = code 't' then keyword? "rue" (.bool true) rest
      else if b = code 'f' then keyword? "alse" (.bool false) rest
      else (number? false (b :: rest)).map fun (n, rest) => (.number n, rest)

theorem length_keyword?_le {word : String} {t : Token} {bs : List UInt8}
    {r : Token × List UInt8} (h : keyword? word t bs = some r) : r.2.length ≤ bs.length := by
  unfold keyword? at h
  split at h
  case isTrue =>
    cases h
    simp
  case isFalse => cases h

theorem length_token?_lt {bs : List UInt8} {r : Token × List UInt8}
    (h : token? bs = some r) : r.2.length < bs.length := by
  cases bs with
  | nil => simp [token?] at h
  | cons b rest =>
    have text : ∀ x, rawText? rest = some x → x.2.length < rest.length := fun x => length_rawText?_lt
    have signed : ∀ x, number? true rest = some x → x.2.length < rest.length :=
      fun x => length_number?_lt
    have plain : ∀ x, number? false (b :: rest) = some x → x.2.length < rest.length + 1 :=
      fun x => length_number?_lt
    have word : ∀ w t x, keyword? w t rest = some x → x.2.length ≤ rest.length :=
      fun w t x => length_keyword?_le
    grind [token?, Option.map_eq_some_iff]

/-- All tokens of a text, blanks between them skipped; none if some lexeme is malformed. -/
def tokens? : List UInt8 → Option (List Token)
  | [] => some []
  | b :: rest =>
    if isBlank b then tokens? rest
    else match h : token? (b :: rest) with
      | none => none
      | some (t, more) =>
        have : more.length < rest.length + 1 := length_token?_lt h
        (tokens? more).map (t :: ·)
termination_by bs => bs.length

end TableScan.Json
