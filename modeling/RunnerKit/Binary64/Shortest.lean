import RunnerKit.Binary64.Basic
/-!
This module contains the text of a number: the fewest digits that read back as the same number,
written without an exponent.
-/

namespace RunnerKit

structure Decimal where
  digits : Nat
  exponent : Int
  deriving DecidableEq, Repr

namespace Binary64

/--
The positive reals that round to a number, scaled by `unit`: from `low` to `high` around `value`.
The ends belong to it if `closed`, which is when the significand is even.
-/
structure RoundingInterval where
  low : Nat
  value : Nat
  high : Nat
  unit : Nat
  closed : Bool
  deriving Repr

/--
The interval of a finite number. Below a power of two the numbers are twice as dense, so the lower
half is half as wide there. All three points are multiples of a quarter of the last place.
-/
def roundingInterval (x : Binary64) : RoundingInterval :=
  let m := x.significand
  let e := x.exponent - 2
  let below := if m = hiddenBit ∧ x.exponent ≠ -1074 then 1 else 2
  let scale := 1 <<< e.toNat
  { low := (4 * m - below) * scale
    value := 4 * m * scale
    high := (4 * m + 2) * scale
    unit := 1 <<< (-e).toNat
    closed := m % 2 == 0 }

def RoundingInterval.contains (i : RoundingInterval) (n d : Nat) : Bool :=
  if i.closed then
    decide (i.low * d ≤ n * i.unit) && decide (n * i.unit ≤ i.high * d)
  else
    decide (i.low * d < n * i.unit) && decide (n * i.unit < i.high * d)

/--
The multiple of `10 ^ exponent` in the interval that is closest to the number, if there is one. Only
the two neighbours of the number need a look: if the interval holds a multiple, it holds one of
them.
-/
def RoundingInterval.onGrid? (i : RoundingInterval) (exponent : Int) : Option Decimal :=
  let up := Nat.pow 10 exponent.toNat
  let down := Nat.pow 10 (-exponent).toNat
  let floor := i.value * down / (i.unit * up)
  let inside (n : Nat) := i.contains (n * up) down
  let toFloor := i.value * down - floor * up * i.unit
  let toCeil := (floor + 1) * up * i.unit - i.value * down
  match inside floor, inside (floor + 1) with
  | true, true => some ⟨if toFloor ≤ toCeil then floor else floor + 1, exponent⟩
  | true, false => some ⟨floor, exponent⟩
  | false, true => some ⟨floor + 1, exponent⟩
  | false, false => none

/--
The decimal with the fewest digits that reads back as the positive finite number `x`: the first hit
on a grid, coarse grids first. The grid of `10 ^ -1076` holds every number exactly.
-/
def shortest (x : Binary64) : Decimal :=
  let i := x.roundingInterval
  let top := (Nat.toDigits 10 (i.value / i.unit)).length
  let rec search (exponent : Int) : Nat → Decimal
    | 0 => ⟨i.value * Nat.pow 10 1076 / i.unit, -1076⟩
    | n + 1 =>
      match i.onGrid? exponent with
      | some d => d
      | none => search (exponent - 1) n
  search top (top + 1077)

end Binary64

def Decimal.positional (d : Decimal) : String :=
  let digits := Nat.toDigits 10 d.digits
  if 0 ≤ d.exponent then
    String.ofList (digits ++ List.replicate d.exponent.toNat '0')
  else
    let places := (-d.exponent).toNat
    let padded := List.replicate (places + 1 - digits.length) '0' ++ digits
    let whole := padded.take (padded.length - places)
    String.ofList (whole ++ '.' :: padded.drop (padded.length - places))

def Binary64.text (x : Binary64) : String :=
  if x.isNaN then "NaN"
  else
    let sign := if x.isNegative then "-" else ""
    if x.isInfinite then sign ++ "inf"
    else if x.magnitude = 0 then sign ++ "0"
    else sign ++ x.shortest.positional

end RunnerKit
