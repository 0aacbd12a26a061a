/-
The order of values in a database. Null comes first, then numbers by their size, then
texts by their characters, then bytes. Integers and floats are compared exactly, as
ratios.
-/

import EntityStore.Value

set_option autoImplicit false

namespace EntityStore

/-- A number as a numerator and a positive denominator; infinities are beyond every
finite number. A value that is not a number has none. -/
def Double.signedRatio? (number : Double) : Option (Int × Nat) :=
  let sign (magnitude : Nat) : Int := if number.isNegative then -magnitude else magnitude
  if number.isNaN then none
  else if number.isInfinite then some (sign (Nat.pow 2 1100), 1)
  else some (sign number.ratio.1, number.ratio.2)

namespace Value

/-- The ratio that a number is; a boolean counts as zero or one. -/
def ratio? : Value → Option (Int × Nat)
  | boolean flag => some (if flag then 1 else 0, 1)
  | integer number => some (number.toInt, 1)
  | float number => number.signedRatio?
  | _ => none

def rank : Value → Nat
  | null => 0
  | boolean _ => 1
  | integer _ => 1
  | float _ => 1
  | text _ => 2
  | bytes _ => 3

def compareBytes : List UInt8 → List UInt8 → Ordering
  | [], [] => .eq
  | [], _ :: _ => .lt
  | _ :: _, [] => .gt
  | left :: lefts, right :: rights =>
      match compare left.toNat right.toNat with
      | .eq => compareBytes lefts rights
      | other => other

/-- How a value compares with another one. -/
def order (left right : Value) : Ordering :=
  match left.ratio?, right.ratio? with
  | some first, some second => compare (first.1 * second.2) (second.1 * first.2)
  | _, _ =>
      match left, right with
      | text first, text second => compare first second
      | bytes first, bytes second => compareBytes first second
      | _, _ => compare left.rank right.rank

/-- A value as it is stored: booleans are zero or one, and what is no number is null. -/
def stored : Value → Value
  | boolean flag => integer (if flag then 1 else 0)
  | float number => if number.isNaN then null else float number
  | other => other

end Value

end EntityStore
