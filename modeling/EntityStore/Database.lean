/-
Databases as the library sees them: connections that are opened under a number and
answer calls. A call may fail and changes a world of which nothing else is known;
everything that follows is stated for any such database.
-/

import EntityStore.Statement

set_option autoImplicit false

namespace EntityStore

/-- The number of a connection, in the order of opening. -/
abbrev ConnectionId := Nat

inductive Refusal where
  /-- The statement is wrong or names what is not there. -/
  | statement
  | busy
  | full
  | unfitting
  deriving DecidableEq, Repr

inductive DatabaseError where
  /-- The engine refused, for a reason and with a message of its own. -/
  | engine (refusal : Refusal) (message : String)
  | constraint (message : String)
  | conversion (column message : String)
  | closed
  deriving DecidableEq, Repr

def DatabaseError.message : DatabaseError → String
  | engine _ message => "sqlite error: " ++ message
  | constraint message => "constraint violation: " ++ message
  | conversion column message => "conversion error in column " ++ column ++ ": " ++ message
  | closed => "connection is closed"

abbrev Call (World : Type) (α : Type) := World → Except DatabaseError α × World

/-- What a connection can be asked. A connection inside a transaction is expected
not to be valid for reuse. -/
structure Database (World : Type) where
  /-- The description of the target. -/
  description : String
  connect : ConnectionId → Call World Unit
  /-- Runs a statement without rows; gives the number of affected ones. -/
  execute : ConnectionId → Statement → Call World Nat
  query : ConnectionId → Statement → Call World (List Row)
  /-- The id that the last insertion on the connection generated. -/
  lastInsertId : ConnectionId → Call World Int64
  begin : ConnectionId → Call World Unit
  commit : ConnectionId → Call World Unit
  rollback : ConnectionId → Call World Unit
  inTransaction : ConnectionId → World → Bool
  isValid : ConnectionId → World → Bool × World
  tableExists : ConnectionId → QualifiedName → Call World Bool
  close : ConnectionId → Call World Unit

end EntityStore
