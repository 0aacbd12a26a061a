/-
What can go wrong, by cause, and the text that says so. The text of a cause that
comes from outside the library is not part of it.
-/

import EntityStore.Database
import EntityStore.Json.Reader
import EntityStore.Key
import EntityStore.Query.Parameters

set_option autoImplicit false

namespace EntityStore

inductive IntegrityFault where
  /-- The database found a constraint violated. -/
  | violation (message : String)
  /-- New entities refer to each other in a circle, each by a relation that cannot be
  empty: entity type, property and target type of each such relation. -/
  | referenceCycle (edges : List (String × String × String))
  deriving DecidableEq, Repr

def cycleEdge (edge : String × String × String) : String :=
  edge.1 ++ "." ++ edge.2.1 ++ " -> " ++ edge.2.2

def IntegrityFault.message : IntegrityFault → String
  | violation message => message
  | referenceCycle edges =>
      "reference cycle through non-nullable relations: "
        ++ Sql.commaSeparated (edges.map cycleEdge)

inductive TransactionFault where
  | alreadyOpen
  | notOpen
  deriving DecidableEq, Repr

def TransactionFault.message : TransactionFault → String
  | alreadyOpen => "a transaction is already open on this thread"
  | notOpen => "no transaction is open on this thread"

inductive StateFault where
  | unknownDialect (name : String)
  | rowWithoutId (entity column : String)
  | removed (key : Key)
  | alreadyRemoved (key : Key)
  | savingRemoved (key : Key)
  | foreign (key : Key)
  | withoutId (key : Key)
  | emptySequence (sequence : String)
  | idAssigned
  | readsCollection (entity property : String)
  | notObject (entity property : String)
  | notCollection (entity property : String)
  | writesCollection (entity property : String)
  /-- A caller's own reason. -/
  | stated (reason : String)
  deriving DecidableEq, Repr

def StateFault.message : StateFault → String
  | unknownDialect name => "unknown dialect '" ++ name ++ "'"
  | rowWithoutId entity column =>
      "row of " ++ entity ++ " has no integer id in column '" ++ column ++ "'"
  | removed key => key.display ++ " has been removed"
  | alreadyRemoved key => key.display ++ " has already been removed"
  | savingRemoved key => "cannot save removed entity " ++ key.display
  | foreign key => key.display ++ " belongs to another store"
  | withoutId key => key.display ++ " has no id"
  | emptySequence sequence => "sequence '" ++ sequence ++ "' returned no value"
  | idAssigned => "the id is assigned by the store"
  | readsCollection entity property =>
      entity ++ "." ++ property ++ " is a collection; use get_collection"
  | notObject entity property => entity ++ "." ++ property ++ " is not an object relation"
  | notCollection entity property => entity ++ "." ++ property ++ " is not a collection"
  | writesCollection entity property =>
      "collection " ++ entity ++ "." ++ property ++ " is read-only"
  | stated reason => reason

inductive Error where
  | database (fault : DatabaseError)
  | specification (fault : Json.Fault)
  | mapping (entity : String) (fault : MappingFault)
  | typeMismatch (entity property expected actual : String)
  | integrity (fault : IntegrityFault)
  | poolExhausted
  | poolClosed
  | notFound (key : Key)
  | query (fault : QueryFault)
  | parameter (fault : ParameterFault)
  | immutableKey (key : Key)
  | transaction (fault : TransactionFault)
  | invalidState (fault : StateFault)
  | unknownProperty (entity property : String)
  | storeClosed
  deriving DecidableEq, Repr

namespace Error

def ofDatabase : DatabaseError → Error
  | .constraint message => .integrity (.violation message)
  | fault => .database fault

def message : Error → String
  | database fault => "driver error: " ++ fault.message
  | specification _ => "JSON error"
  | mapping entity fault => "mapping error in " ++ entity ++ ": " ++ fault.message
  | typeMismatch entity property expected actual =>
      "type mismatch on " ++ entity ++ "." ++ property ++ ": expected an instance of "
        ++ expected ++ ", got " ++ actual
  | integrity fault => "integrity error: " ++ fault.message
  | poolExhausted => "connection pool exhausted"
  | poolClosed => "connection pool is shut down"
  | notFound key => "entity not found: " ++ key.display
  | query fault => fault.message
  | parameter fault => "parameter error: " ++ fault.message
  | immutableKey key => "key " ++ key.display ++ " already has an id"
  | transaction fault => "transaction error: " ++ fault.message
  | invalidState fault => "invalid state: " ++ fault.message
  | unknownProperty entity property => "unknown property " ++ entity ++ "." ++ property
  | storeClosed => "store is closed"

end Error

/-- Assigns the id of a key, which must not have one. -/
def Key.assignId (key : Key) (id : Int64) : Except Error Key :=
  match key.assignId? id with
  | some assigned => .ok assigned
  | none => .error (.immutableKey key)


/-- The key and the mapped columns of a row of an entity type. Columns that are not
mapped are dropped, mapped ones that are missing are null. -/
def Mapping.hydrate (mapping : Mapping) (row : Row) : Except Error (Key × Row) :=
  match (row.get? mapping.id.column).bind Value.integer? with
  | none => .error (.invalidState (.rowWithoutId mapping.entity mapping.id.column))
  | some id =>
      .ok (Key.withId mapping.entity id,
        Row.ofList (mapping.columns.map fun column =>
          (column, (row.get? column).getD .null)))

end EntityStore
