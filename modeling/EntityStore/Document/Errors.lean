/-
Errors as documents: the name of the kind, and the message unless it comes from
outside the library.
-/

import EntityStore.Error
import EntityStore.Json.Access

set_option autoImplicit false

namespace EntityStore

namespace DatabaseError

def kind : DatabaseError → String
  | engine .. => "Driver.Sqlite"
  | constraint _ => "Driver.Constraint"
  | conversion .. => "Driver.Conversion"
  | closed => "Driver.Closed"

def isConstraint : DatabaseError → Bool
  | constraint _ => true
  | _ => false

/-- A failed call by itself, outside of the store. -/
def toDocument (fault : DatabaseError) : Json := .object [
  ("constraint", .boolean fault.isConstraint), ("error", .string fault.kind),
  ("message", .string fault.message)]

end DatabaseError

namespace Error

def kind : Error → String
  | database fault => fault.kind
  | specification .ended => "Json.eof"
  | specification .malformed => "Json.syntax"
  | specification .unfitting => "Json.data"
  | mapping .. => "Mapping"
  | typeMismatch .. => "TypeMismatch"
  | integrity _ => "Integrity"
  | poolExhausted => "PoolExhausted"
  | poolClosed => "PoolClosed"
  | notFound _ => "NotFound"
  | query (.reference _) => "Reference"
  | query _ => "QueryParse"
  | parameter _ => "Parameter"
  | immutableKey _ => "ImmutableKey"
  | transaction _ => "Transaction"
  | invalidState _ => "InvalidState"
  | unknownProperty .. => "UnknownProperty"
  | storeClosed => "StoreClosed"

/-- The message, unless it depends on the engine, on time or on a reader. -/
def shownMessage? (error : Error) : Option String :=
  match error with
  | database (.engine ..) | specification _ | poolExhausted => none
  | _ => some error.message

def toDocument (error : Error) : Json :=
  .object (("error", .string error.kind)
    :: (error.shownMessage?.map fun message => ("message", Json.string message)).toList)

/-- The document of a result or of the error in its place. -/
def outcome {α : Type} (write : α → Json) : Except Error α → Json
  | .ok content => write content
  | .error error => error.toDocument

end Error

end EntityStore
