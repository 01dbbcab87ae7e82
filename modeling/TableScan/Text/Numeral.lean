/-
  TableScan.Text.Numeral — decimal numerals. `numeral n` has no leading zero but for 0
  itself, `padded w n` fills it up with zeros to `w` digits, and `numeralValue` reads either
  (`numeralValue_numeral`, `numeralValue_padded`).
-/

namespace TableScan.Text

def digitChar (d : Nat) : Char := Char.ofNat (0x30 + d)

/-- The shortest run of decimal digits with value `n`. -/
def numeral (n : Nat) : List Char :=
  if n < 10 then [digitChar n] else numeral (n / 10) ++ [digitChar (n % 10)]
termination_by n

/-- The value of a run of decimal digits, zero for the empty run. -/
def numeralValue (ds : List Char) : Nat :=
  ds.foldl (fun n d => 10 * n + (d.toNat - 0x30)) 0

/-- At least `width` digits: the numeral of `n` behind as many zeros as it takes. -/
def padded (width n : Nat) : List Char :=
  List.replicate (width - (numeral n).length) '0' ++ numeral n

def decimal (n : Nat) : String := String.ofList (numeral n)

/-- A minus sign stands before the numeral of a negative number. -/
def signedDecimal : Int → String
  | .ofNat n => decimal n
  | .negSucc n => "-" ++ decimal (n + 1)

theorem digitChar_toNat (d : Nat) (h : d < 10) : (digitChar d).toNat = 0x30 + d := by
  have : ∀ d : Fin 10, (digitChar d).toNat = 0x30 + d := by decide
  exact this ⟨d, h⟩

theorem digitChar_isDigit (d : Nat) (h : d < 10) : (digitChar d).isDigit = true := by
  have : ∀ d : Fin 10, (digitChar d).isDigit = true := by decide
  exact this ⟨d, h⟩

theorem isDigit_of_mem_numeral (n : Nat) : ∀ c ∈ numeral n, c.isDigit = true := by
  induction n using Nat.strongRecOn with
  | ind n ih =>
    intro c hc
    rw [numeral] at hc
    split at hc
    case isTrue h =>
      obtain rfl := List.mem_singleton.mp hc
      exact digitChar_isDigit n h
    case isFalse h =>
      rcases List.mem_append.mp hc with hc | hc
      · exact ih (n / 10) (by omega) c hc
      · obtain rfl := List.mem_singleton.mp hc
        exact digitChar_isDigit _ (by omega)

theorem toNat_of_isDigit {c : Char} (h : c.isDigit = true) : 48 ≤ c.toNat ∧ c.toNat ≤ 57 := by
  simpa [Char.isDigit, UInt32.le_iff_toNat_le] using h

theorem numeral_ne_nil (n : Nat) : numeral n ≠ [] := by
  rw [numeral]
  split <;> simp

/-- Only zero is written with a zero in front. -/
theorem head?_numeral {n : Nat} (h : n ≠ 0) : (numeral n).head? ≠ some '0' := by
  induction n using Nat.strongRecOn with
  | ind n ih =>
    rw [numeral]
    split
    case isTrue hlt =>
      intro hhead
      have hdigit : digitChar n = '0' := by simpa using hhead
      have hcode := digitChar_toNat n hlt
      rw [hdigit, show '0'.toNat = 0x30 from rfl] at hcode
      omega
    case isFalse hlt =>
      simp only [List.head?_append, Option.or_of_isSome, List.isSome_head?, numeral_ne_nil, ne_eq, not_false_eq_true]
      exact ih (n / 10) (by omega) (by omega)

theorem numeralValue_append (ds : List Char) (d : Char) :
    numeralValue (ds ++ [d]) = 10 * numeralValue ds + (d.toNat - 0x30) := by
  simp [numeralValue]

theorem numeralValue_numeral (n : Nat) : numeralValue (numeral n) = n := by
  induction n using Nat.strongRecOn with
  | ind n ih =>
    rw [numeral]
    split
    case isTrue h => simp [numeralValue, digitChar_toNat n h]
    case isFalse h =>
      rw [numeralValue_append, ih (n / 10) (by omega), digitChar_toNat _ (by omega)]
      omega

theorem numeralValue_zeros (ds : List Char) : ∀ k, numeralValue (List.replicate k '0' ++ ds) = numeralValue ds
  | 0 => rfl
  | k + 1 => numeralValue_zeros ds k

theorem numeralValue_padded (w n : Nat) : numeralValue (padded w n) = n := by
  rw [padded, numeralValue_zeros, numeralValue_numeral]

end TableScan.Text
