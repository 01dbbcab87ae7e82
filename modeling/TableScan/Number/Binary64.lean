/-
  TableScan.Number.Binary64 — finite binary floating-point numbers of 64 bits, kept as a
  significand times a power of two and rounded in exact natural-number arithmetic.

  A decimal numeral is read in two roundings, not one: its leading digits, as many as fit in
  64 bits, are rounded to a significand, which is then multiplied or divided by a rounded
  power of ten and rounded again (`ofDecimal?`). For up to 15 digits and small exponents this
  is the nearest number; beyond that it may be a neighbour of it.
-/

namespace TableScan.Number

/-- Sign, and `significand · 2 ^ exponent`, where the significand is below `2 ^ 53` and the
exponent is the least for it that is not below -1074. -/
structure Binary64 where
  negative : Bool
  significand : Nat
  exponent : Int
  deriving DecidableEq, Repr, Inhabited

namespace Binary64

/-- The leading bit of a significand of full length. -/
def leadingBit : Nat := 0x10000000000000

/-- The quotient, a half going to the even neighbour. -/
def roundDiv (num den : Nat) : Nat :=
  let q := num / den
  let r := num % den
  if 2 * r < den then q
  else if den < 2 * r then q + 1
  else q + q % 2

/-- `num / den` in units of `2 ^ q`, as a quotient of naturals. -/
def inUnits (num den : Nat) (q : Int) : Nat × Nat :=
  if 0 ≤ q then (num, den * Nat.pow 2 q.toNat) else (num * Nat.pow 2 (-q).toNat, den)

/-- The exponent `e` with `2 ^ e ≤ num / den < 2 ^ (e + 1)`, for positive `num` and `den`. -/
def binaryExponent (num den : Nat) : Int :=
  let e : Int := (Nat.log2 num : Int) - Nat.log2 den
  let (n, d) := inUnits num den e
  if n < d then e - 1 else e

/-- The nonnegative number nearest to `num / den`; none if that is beyond the largest. -/
def ofRatio? (num den : Nat) : Option Binary64 :=
  if num = 0 then some ⟨false, 0, -1074⟩
  else
    let q := max (binaryExponent num den - 52) (-1074)
    let (n, d) := inUnits num den q
    let m := roundDiv n d
    let (m, q) := if m = 2 * leadingBit then (leadingBit, q + 1) else (m, q)
    if 971 < q then none else some ⟨false, m, q⟩

/-- The magnitude as a quotient of naturals. -/
def ratio (x : Binary64) : Nat × Nat :=
  if 0 ≤ x.exponent then (x.significand * Nat.pow 2 x.exponent.toNat, 1)
  else (x.significand, Nat.pow 2 (-x.exponent).toNat)

def isZero (x : Binary64) : Bool := x.significand == 0

def mul? (x y : Binary64) : Option Binary64 :=
  ofRatio? (x.ratio.1 * y.ratio.1) (x.ratio.2 * y.ratio.2)

def div? (x y : Binary64) : Option Binary64 :=
  ofRatio? (x.ratio.1 * y.ratio.2) (x.ratio.2 * y.ratio.1)

def powTen? (k : Nat) : Option Binary64 := ofRatio? (Nat.pow 10 k) 1

/-- `x · 10 ^ exponent` for a nonnegative `x`, in steps of at most `10 ^ 308`. Two steps down
leave nothing of a 64-bit significand, so further ones are not taken. -/
def scale? (x : Binary64) (exponent : Int) : Option Binary64 :=
  if x.isZero then some x
  else if 308 < exponent then none
  else if 0 ≤ exponent then do (← powTen? exponent.toNat) |> x.mul?
  else down 3 x (-exponent).toNat
where
  down : Nat → Binary64 → Nat → Option Binary64
    | 0, _, _ => some ⟨false, 0, -1074⟩
    | steps + 1, x, k =>
      if x.isZero then some x
      else if k ≤ 308 then do (← powTen? k) |> x.div?
      else do
        let smaller ← (← powTen? 308) |> x.div?
        down steps smaller (k - 308)

/-- The number read from a sign, a significand below `2 ^ 64` and a power of ten. -/
def ofDecimal? (negative : Bool) (significand : Nat) (exponent : Int) : Option Binary64 := do
  let x ← (← ofRatio? significand 1).scale? exponent
  return { x with negative }

/-- Of twenty digits the number read is not the nearest one. -/
example : ofDecimal? false 12345678901234567890 1 ≠ ofRatio? 123456789012345678900 1 := by decide +kernel

end Binary64

end TableScan.Number
