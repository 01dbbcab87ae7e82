/-
  TableScan.Number.Shortest — the decimal text of a binary64: the fewest digits that lie nearer
  to it than to any other binary64, and of those the nearest to it.

  `Binary64.Holds` says which decimals those are: the interval of reals that round to the
  number, its ends included when the significand is even. On the grid of decimals with `n`
  digits only the two neighbours of the number need to be tried. `render` then places the
  point: positional from 1e-5 up to, but without, 1e16, and with an exponent elsewhere.
-/

import TableScan.Number.Binary64
import TableScan.Text.Numeral

namespace TableScan.Number.Binary64

open TableScan.Text

/-- A positive decimal `digits · 10 ^ exponent`. -/
structure Decimal where
  digits : Nat
  exponent : Int
  deriving DecidableEq, Repr

def Decimal.ratio (d : Decimal) : Nat × Nat :=
  if 0 ≤ d.exponent then (d.digits * Nat.pow 10 d.exponent.toNat, 1)
  else (d.digits, Nat.pow 10 (-d.exponent).toNat)

/-- Twice the interval that rounds to `x`, as quotients in quarter units: below a power of two
the neighbour is half as far. -/
def roundingInterval (x : Binary64) : (Nat × Nat) × (Nat × Nat) :=
  let below := if x.significand = leadingBit ∧ x.exponent ≠ -1074 then 1 else 2
  let quarter (m : Nat) : Nat × Nat := ratio ⟨false, m, x.exponent - 2⟩
  (quarter (4 * x.significand - below), quarter (4 * x.significand + 2))

def Holds (x : Binary64) (d : Decimal) : Bool :=
  let ((lowNum, lowDen), (highNum, highDen)) := x.roundingInterval
  let (n, m) := d.ratio
  if x.significand % 2 = 0 then lowNum * m ≤ n * lowDen && n * highDen ≤ highNum * m
  else lowNum * m < n * lowDen && n * highDen < highNum * m

/-- The power of ten with `10 ^ p ≤ num / den < 10 ^ (p + 1)`. -/
def decimalExponent (num den : Nat) : Int :=
  if den ≤ num then (numeral (num / den)).length - 1
  else -((List.range 400).find? (fun j => den ≤ num * Nat.pow 10 j)).getD 0

/-- The decimal of `n` digits that `x` holds, the nearer of two; of two equally near the even one. -/
def onGrid (x : Binary64) (n : Nat) : Option Decimal :=
  let (num, den) := x.ratio
  let unit : Int := decimalExponent num den - n + 1
  let (scaled, by_) := if 0 ≤ unit then (num, den * Nat.pow 10 unit.toNat) else (num * Nat.pow 10 (-unit).toNat, den)
  let low : Decimal := ⟨scaled / by_, unit⟩
  let high : Decimal := ⟨scaled / by_ + 1, unit⟩
  match x.Holds low, x.Holds high with
  | true, true =>
    let twice := 2 * (scaled % by_)
    some (if twice < by_ ∨ (twice = by_ ∧ low.digits % 2 = 0) then low else high)
  | true, false => some low
  | false, true => some high
  | false, false => none

/-- The fewest digits that read back; seventeen always do. -/
def shortest (x : Binary64) : Decimal :=
  ((List.range 17).findSome? fun n => x.onGrid (n + 1)).getD ⟨0, 0⟩

def stripZeros (digits : List Char) : List Char :=
  (digits.reverse.dropWhile (· = '0')).reverse

/-- Positional for scientific exponents from -5 to 15, with at least one digit on each side of the
point; otherwise one digit before the point, if there are more, and a signed exponent. -/
def renderDecimal (d : Decimal) : List Char :=
  let all := numeral d.digits
  let ds := stripZeros all
  let e : Int := d.exponent + all.length - 1
  if 0 ≤ e ∧ e ≤ 15 then
    let whole := e.toNat + 1
    let left := ds.take whole
    let right := ds.drop whole
    left ++ List.replicate (whole - left.length) '0' ++ ['.'] ++ (if right.isEmpty then ['0'] else right)
  else if -5 ≤ e ∧ e < 0 then
    ['0', '.'] ++ List.replicate (-e - 1).toNat '0' ++ ds
  else
    let mantissa := match ds with
      | [] => []
      | [d] => [d]
      | d :: more => d :: '.' :: more
    mantissa ++ ['e', if e < 0 then '-' else '+'] ++ numeral e.natAbs

def render (x : Binary64) : List Char :=
  (if x.negative then ['-'] else [])
    ++ (if x.isZero then ['0', '.', '0'] else renderDecimal x.shortest)

end TableScan.Number.Binary64
