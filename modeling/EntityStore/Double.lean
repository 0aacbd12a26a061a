/-
Double precision numbers as their sixty-four bits. Every operation here is exact
arithmetic on natural numbers followed by one rounding, so results do not depend
on the machine that runs them and can be reasoned about.
-/

set_option autoImplicit false

namespace EntityStore

/-- A double precision number, held as its bit pattern: sign, eleven exponent
bits, fifty-two fraction bits. -/
structure Double where
  bits : UInt64
  deriving DecidableEq, Repr

namespace Double

/-- The exponent field of infinities and of values that are not numbers. -/
def topField : Nat := 0x7ff

def isNegative (number : Double) : Bool :=
  number.bits >>> 63 == 1

def exponentField (number : Double) : Nat :=
  ((number.bits >>> 52) &&& 0x7ff).toNat

def fraction (number : Double) : Nat :=
  (number.bits &&& 0xfffffffffffff).toNat

def isNaN (number : Double) : Bool :=
  number.exponentField == topField && number.fraction != 0

def isInfinite (number : Double) : Bool :=
  number.exponentField == topField && number.fraction == 0

def isFinite (number : Double) : Bool :=
  number.exponentField != topField

def isZero (number : Double) : Bool :=
  number.exponentField == 0 && number.fraction == 0

/-- The integer significand of a finite number. -/
def significand (number : Double) : Nat :=
  if number.exponentField == 0 then number.fraction else number.fraction + 0x10000000000000

/-- The binary exponent counted from the smallest one: a finite number has
magnitude `significand * 2 ^ scale / 2 ^ 1074`. -/
def scale (number : Double) : Nat :=
  number.exponentField - 1

/-- Equality of numbers: both zeros are equal, and a value that is not a number
differs from everything. -/
def equal (left right : Double) : Bool :=
  !left.isNaN && !right.isNaN && (left.bits == right.bits || left.isZero && right.isZero)

/-- The one pattern shown for every value that is not a number. -/
def canonicalNaN : Double := ⟨0x7ff8000000000000⟩

def signed (negative : Bool) (magnitude : UInt64) : Double :=
  ⟨if negative then magnitude ||| 0x8000000000000000 else magnitude⟩

def zero (negative : Bool) : Double := signed negative 0

def infinity (negative : Bool) : Double := signed negative 0x7ff0000000000000

def negate (number : Double) : Double :=
  ⟨number.bits ^^^ 0x8000000000000000⟩

/-! ### Rounding -/

/-- The quotient rounded to the nearest natural number, a half to the even one. -/
def roundDivision (numerator denominator : Nat) : Nat :=
  let quotient := numerator / denominator
  let twice := 2 * (numerator % denominator)
  if twice < denominator then quotient
  else if denominator < twice then quotient + 1
  else quotient + quotient % 2

/-- `numerator / denominator` in units of two to the power `exponent - 1074`. -/
def inUnits (numerator denominator exponent : Nat) : Nat × Nat :=
  if 1074 ≤ exponent then (numerator, denominator * Nat.pow 2 (exponent - 1074))
  else (numerator * Nat.pow 2 (1074 - exponent), denominator)

/-- The least unit, counted like `scale` and not below `lowest`, in which the
ratio has at most `precision` binary digits. -/
def unitFor (precision lowest numerator denominator : Nat) : Nat :=
  let magnitude := numerator.log2 + 1074 - denominator.log2
  let candidate := max lowest (magnitude - precision)
  let scaled := inUnits numerator denominator candidate
  if scaled.1 / scaled.2 < Nat.pow 2 precision then candidate else candidate + 1

/-- The double nearest to a ratio, ties to even, infinite when out of range. -/
def ofRatio (negative : Bool) (numerator denominator : Nat) : Double :=
  if numerator = 0 then zero negative
  else
    let unit := unitFor 53 0 numerator denominator
    let scaled := inUnits numerator denominator unit
    let pattern := unit * 0x10000000000000 + roundDivision scaled.1 scaled.2
    if topField * 0x10000000000000 ≤ pattern then infinity negative
    else signed negative pattern.toUInt64

def ratio (number : Double) : Nat × Nat :=
  if 1074 ≤ number.scale then (number.significand * Nat.pow 2 (number.scale - 1074), 1)
  else (number.significand, Nat.pow 2 (1074 - number.scale))

def ofNat (number : Nat) : Double := ofRatio false number 1

def ofInt (number : Int) : Double := ofRatio (number < 0) number.natAbs 1

/-- The number with a decimal significand and a decimal exponent, correctly
rounded. Exponents far outside the range are settled without large powers. -/
def ofDecimal (negative : Bool) (digits : Nat) (exponent : Int) : Double :=
  if digits = 0 then zero negative
  else if 400 < exponent then infinity negative
  else if 0 ≤ exponent then ofRatio negative (digits * Nat.pow 10 exponent.toNat) 1
  else if (digits.log2 : Int) + 1100 < -(3 * exponent) then zero negative
  else ofRatio negative digits (Nat.pow 10 exponent.natAbs)

def multiply (left right : Double) : Double :=
  let leftRatio := left.ratio
  let rightRatio := right.ratio
  ofRatio (left.isNegative != right.isNegative) (leftRatio.1 * rightRatio.1)
    (leftRatio.2 * rightRatio.2)

def divide (left right : Double) : Double :=
  let leftRatio := left.ratio
  let rightRatio := right.ratio
  ofRatio (left.isNegative != right.isNegative) (leftRatio.1 * rightRatio.2)
    (leftRatio.2 * rightRatio.1)

/-- The number after a passage through single precision: twenty-four binary
digits, units not below two to the power `-149`, infinite from two to the power
`128` on. -/
def toSingle (number : Double) : Double :=
  if number.isFinite && !number.isZero then
    let exact := number.ratio
    let unit := unitFor 24 925 exact.1 exact.2
    let scaled := inUnits exact.1 exact.2 unit
    let rounded := roundDivision scaled.1 scaled.2
    if Nat.pow 2 (128 + 1074) ≤ rounded * Nat.pow 2 unit then infinity number.isNegative
    else ofRatio number.isNegative (rounded * Nat.pow 2 unit) (Nat.pow 2 1074)
  else number

end Double

end EntityStore
