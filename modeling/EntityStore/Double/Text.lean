/-
Decimal texts of doubles. The digits are the shortest ones that identify the
number; a layout says where the point goes and when an exponent is written.
-/

import EntityStore.Double.Shortest

set_option autoImplicit false

namespace EntityStore
namespace Double

structure Layout where
  /-- Whether a whole number is written with a fraction of one zero. -/
  wholeFraction : Bool
  /-- The positions of the point, counted from the first digit, that are written
  without an exponent; all of them if none is given. -/
  positions : Option (Int × Int)
  /-- Whether an exponent that is not negative has a plus sign. -/
  plusSign : Bool
  /-- Which of two equally near decimals is written. -/
  tie : Tie

/-- Never an exponent, and a whole number without a point. -/
def Layout.plain : Layout := ⟨false, none, false, .up⟩

/-- A fraction always; an exponent from ten to the power `16` on and below ten to
the power `-4`. -/
def Layout.literal : Layout := ⟨true, some (-3, 16), false, .up⟩

/-- A fraction always; an exponent with its sign from ten to the power `16` on and below
ten to the power `-5`; a tie goes to the even digit. -/
def Layout.interchange : Layout := ⟨true, some (-4, 16), true, .even⟩

/-- Whether a number whose point stands at `point` is written without an exponent. -/
def Layout.isPositional (layout : Layout) (point : Int) : Bool :=
  match layout.positions with
  | none => true
  | some (least, greatest) => least ≤ point && point ≤ greatest

/-- Digits with the point after `point` of them, zeros filled in on either side. -/
def positional (digits : List Char) (point : Int) (wholeFraction : Bool) : List Char :=
  let count : Int := digits.length
  if point ≤ 0 then
    ['0', '.'] ++ List.replicate (-point).toNat '0' ++ digits
  else if count ≤ point then
    digits ++ List.replicate (point - count).toNat '0' ++ (if wholeFraction then ['.', '0'] else [])
  else digits.take point.toNat ++ ['.'] ++ digits.drop point.toNat

def scientific (digits : List Char) (point : Int) (plusSign : Bool) : List Char :=
  let mantissa := match digits with
    | [] => []
    | [digit] => [digit]
    | digit :: rest => digit :: '.' :: rest
  let sign := if plusSign && 0 < point then ['+'] else []
  mantissa ++ ['e'] ++ sign ++ (toString (point - 1)).toList

def magnitudeText (number : Double) (layout : Layout) : List Char :=
  if number.isZero then (if layout.wholeFraction then ['0', '.', '0'] else ['0'])
  else
    let decimal := number.shortest layout.tie
    let digits := Nat.toDigits 10 decimal.digits
    let point : Int := decimal.exponent + digits.length
    if layout.isPositional point then positional digits point layout.wholeFraction
    else scientific digits point layout.plusSign

/-- The text of a number. The sign of zero is kept. -/
def text (number : Double) (layout : Layout) : String :=
  if number.isNaN then "NaN"
  else
    let magnitude := if number.isInfinite then ['i', 'n', 'f'] else number.magnitudeText layout
    String.ofList (if number.isNegative then '-' :: magnitude else magnitude)

end Double
end EntityStore
