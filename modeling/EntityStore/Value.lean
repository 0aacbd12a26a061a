/-
Native values: what a column holds and what a parameter carries. Dates and times
travel as text; booleans stay apart from integers, because some databases have
them and others do not.
-/

import EntityStore.Double.Text

set_option autoImplicit false

namespace EntityStore

inductive Value where
  | null
  | boolean (flag : Bool)
  | integer (number : Int64)
  | float (number : Double)
  | text (content : String)
  | bytes (content : List UInt8)
  deriving DecidableEq, Repr

namespace Value

instance : Inhabited Value := ⟨null⟩

def isNull : Value → Bool
  | null => true
  | _ => false

def kind : Value → String
  | null => "null"
  | boolean _ => "boolean"
  | integer _ => "integer"
  | float _ => "float"
  | text _ => "text"
  | bytes _ => "binary"

def integer? : Value → Option Int64
  | integer number => some number
  | _ => none

/-- The number as a double; integers are rounded to the nearest one. -/
def double? : Value → Option Double
  | float number => some number
  | integer number => some (Double.ofInt number.toInt)
  | _ => none

def text? : Value → Option String
  | text content => some content
  | _ => none

/-- The truth value; the integers zero and one count, since several databases
store booleans as numbers. -/
def boolean? : Value → Option Bool
  | boolean flag => some flag
  | integer number =>
      if number = 0 then some false else if number = 1 then some true else none
  | _ => none

def bytes? : Value → Option (List UInt8)
  | bytes content => some content
  | _ => none

/-- The text of a value for people. -/
def display : Value → String
  | null => "NULL"
  | boolean flag => if flag then "true" else "false"
  | integer number => toString number.toInt
  | float number => number.text .plain
  | text content => content
  | bytes content => "<" ++ toString content.length ++ " bytes>"

/-- Equality of values as a database sees it: floats compare as numbers, so both
zeros are the same and a value that is not a number differs from itself. -/
def same : Value → Value → Bool
  | float left, float right => left.equal right
  | left, right => left == right

end Value

end EntityStore
