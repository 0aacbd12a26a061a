/-
Abstract types of plain properties. A dialect turns them into column types, so one
mapping serves every database.
-/

import EntityStore.Text
import EntityStore.Value

set_option autoImplicit false

namespace EntityStore

inductive ScalarType where
  | integer
  | long
  | short
  | float
  | double
  | character
  | string
  | byte
  | boolean
  | date
  | time
  | timestamp
  | binary
  | text
  deriving DecidableEq, Repr

namespace ScalarType

def all : List ScalarType :=
  [integer, long, short, float, double, character, string, byte, boolean, date, time,
    timestamp, binary, text]

def name : ScalarType → String
  | integer => "integer"
  | long => "long"
  | short => "short"
  | float => "float"
  | double => "double"
  | character => "character"
  | string => "string"
  | byte => "byte"
  | boolean => "boolean"
  | date => "date"
  | time => "time"
  | timestamp => "timestamp"
  | binary => "binary"
  | text => "text"

def ofName? (name : String) : Option ScalarType :=
  all.find? fun scalar => Text.sameIgnoringCase scalar.name name

def unknownMessage (name : String) : String :=
  "unknown type '" ++ name ++ "'"

/-- The natural form of a value of this type as a database returned it: numbers
stand for booleans where the database has none, and integers for floats. -/
def normalize (scalar : ScalarType) (value : Value) : Value :=
  match scalar, value with
  | boolean, .integer number => .boolean (number != 0)
  | float, .integer number => .float (Double.ofInt number.toInt)
  | double, .integer number => .float (Double.ofInt number.toInt)
  | _, other => other

end ScalarType

end EntityStore
