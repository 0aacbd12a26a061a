/-
The fewest decimal digits that identify a double. A decimal identifies a number
when it lies in the interval of reals that round to it; the interval contains its
ends exactly when the significand is even. The search goes through decimal grids
from coarse to fine and looks at the two grid points around the exact value.
-/

import EntityStore.Double

set_option autoImplicit false

namespace EntityStore
namespace Double

/-- A decimal: `digits` times ten to the power `exponent`. -/
structure Decimal where
  digits : Nat
  exponent : Int
  deriving DecidableEq, Repr

/-- What to do when the exact value is halfway between two shortest decimals. -/
inductive Tie where
  | up
  | even
  deriving DecidableEq

/-- The interval of reals that round to a number. Value and ends are given in
quarters of the number's unit, as natural numbers over a common denominator. -/
structure Interval where
  value : Nat
  low : Nat
  high : Nat
  denominator : Nat
  closed : Bool

/-- Below a power of two the gap to the next smaller number is half as wide. -/
def interval (number : Double) : Interval :=
  let narrow := number.fraction = 0 && 1 < number.exponentField
  let up := Nat.pow 2 (number.scale - 1074)
  { value := 4 * number.significand * up
    low := (4 * number.significand - (if narrow then 1 else 2)) * up
    high := (4 * number.significand + 2) * up
    denominator := 4 * Nat.pow 2 (1074 - number.scale)
    closed := number.significand % 2 == 0 }

def Interval.scaleTen (range : Interval) (power : Int) : Interval :=
  let up := Nat.pow 10 power.toNat
  let down := Nat.pow 10 (-power).toNat
  { range with
    value := range.value * up
    low := range.low * up
    high := range.high * up
    denominator := range.denominator * down }

def Interval.holds (range : Interval) (point : Nat) : Bool :=
  let scaled := point * range.denominator
  if range.closed then range.low ≤ scaled && scaled ≤ range.high
  else range.low < scaled && scaled < range.high

/-- The grid point that identifies the number, the nearer one if both do. -/
def Interval.gridPoint? (range : Interval) (tie : Tie) : Option Nat :=
  let below := range.value / range.denominator
  let above := below + 1
  let remainder := range.value % range.denominator
  match range.holds below && below != 0, range.holds above with
  | false, false => none
  | true, false => some below
  | false, true => some above
  | true, true =>
      if 2 * remainder < range.denominator then some below
      else if range.denominator < 2 * remainder then some above
      else match tie with
        | .up => some above
        | .even => some (if below % 2 == 0 then below else above)

def digitCount (number : Nat) : Nat :=
  if number = 0 then 0 else (Nat.toDigits 10 number).length

/-- The exponent of the leading digit of a positive ratio, by trying exponents
downwards from `start`. -/
def leadingExponent (numerator denominator : Nat) : Nat → Int → Int
  | 0, start => start
  | steps + 1, start =>
      if denominator * Nat.pow 10 start.toNat ≤ numerator * Nat.pow 10 (-start).toNat then start
      else leadingExponent numerator denominator steps (start - 1)

/-- The search over grids; seventeen digits always suffice. -/
def searchGrids (range : Interval) (tie : Tie) : Nat → Int → Decimal
  | 0, exponent => ⟨(range.scaleTen (-exponent)).value / (range.scaleTen (-exponent)).denominator, exponent⟩
  | steps + 1, exponent =>
      match (range.scaleTen (-exponent)).gridPoint? tie with
      | some digits => ⟨digits, exponent⟩
      | none => searchGrids range tie steps (exponent - 1)

def Decimal.trim (decimal : Decimal) : Nat → Decimal
  | 0 => decimal
  | steps + 1 =>
      if decimal.digits != 0 && decimal.digits % 10 == 0 then
        Decimal.trim ⟨decimal.digits / 10, decimal.exponent + 1⟩ steps
      else decimal

def shortest (number : Double) (tie : Tie) : Decimal :=
  let range := number.interval
  let integerPart := range.value / range.denominator
  let leading :=
    if integerPart = 0 then leadingExponent range.value range.denominator 330 (-1)
    else (digitCount integerPart : Int) - 1
  (searchGrids range tie 18 (leading + 1)).trim 20

end Double
end EntityStore
