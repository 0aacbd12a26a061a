/-
A database over tables in memory. What a connection changes inside a transaction is
seen by that connection alone until it commits; meanwhile no other one can change
anything.
-/

import EntityStore.Tables.Requests

set_option autoImplicit false

namespace EntityStore
namespace Tables

structure World where
  /-- The tables as everybody sees them. -/
  published : Tables := {}
  /-- The connections inside a transaction. -/
  inTransaction : List ConnectionId := []
  /-- The connection whose transaction has changed something, and the tables as it sees
  them. -/
  writing : Option (ConnectionId × Tables) := none
  /-- The id that the last insertion on a connection generated. -/
  generated : List (ConnectionId × Int64) := []
  deriving DecidableEq, Repr

namespace World

/-- The tables as a connection sees them. -/
def seenBy (world : World) (connection : ConnectionId) : Tables :=
  match world.writing with
  | some (writer, tables) => if writer == connection then tables else world.published
  | none => world.published

/-- Whether another connection's changes stand in the way. -/
def isLockedFor (world : World) (connection : ConnectionId) : Bool :=
  world.writing.any fun entry => entry.1 != connection

/-- Keeps the tables after a change, for the connection alone or for everybody. -/
def keep (world : World) (connection : ConnectionId) (tables : Tables) : World :=
  if world.inTransaction.contains connection then
    { world with writing := some (connection, tables) }
  else { world with published := tables }

def noteGenerated (world : World) (connection : ConnectionId) (id : Option Int64) : World :=
  match id with
  | some id => { world with generated := Row.place connection id world.generated }
  | none => world

def leave (world : World) (connection : ConnectionId) : World :=
  { world with
    inTransaction := world.inTransaction.filter fun other => other != connection
    writing := world.writing.filter fun entry => entry.1 != connection }

end World

def reply {α : Type} (outcome : Except TableFault α) : Call World α := fun world =>
  (outcome.mapError TableFault.toDatabaseError, world)

def executeOn (connection : ConnectionId) (statement : Statement) : Call World Nat :=
  fun world =>
    if world.isLockedFor connection then reply (.error .locked) world
    else
      match (world.seenBy connection).execute statement with
      | .error fault => reply (.error fault) world
      | .ok change =>
          (.ok change.affected,
            (world.keep connection change.tables).noteGenerated connection change.generated)

def queryOn (connection : ConnectionId) (statement : Statement) : Call World (List Row) :=
  fun world => reply ((world.seenBy connection).answer statement) world

def lastInsertIdOn (connection : ConnectionId) : Call World Int64 := fun world =>
  reply (.ok ((world.generated.lookup connection).getD 0)) world

def beginOn (connection : ConnectionId) : Call World Unit := fun world =>
  if world.inTransaction.contains connection then reply (.error .insideTransaction) world
  else (.ok (), { world with inTransaction := connection :: world.inTransaction })

def commitOn (connection : ConnectionId) : Call World Unit := fun world =>
  if world.inTransaction.contains connection then
    (.ok (), { world with published := world.seenBy connection }.leave connection)
  else reply (.error (.outsideTransaction "commit")) world

def rollbackOn (connection : ConnectionId) : Call World Unit := fun world =>
  if world.inTransaction.contains connection then (.ok (), world.leave connection)
  else reply (.error (.outsideTransaction "rollback")) world

def catalogue : String := "sqlite_master"

/-- Whether a table exists; of a schema that there is not, nothing can be asked. -/
def tableExistsOn (connection : ConnectionId) (table : QualifiedName) : Call World Bool :=
  fun world =>
    match missingSchema? table.schema with
    | some schema => reply (.error (.missingTable (shownName ⟨some schema, catalogue⟩))) world
    | none => reply (.ok ((world.seenBy connection).contains table.name)) world

/-- Closing rolls an open transaction back. -/
def closeOn (connection : ConnectionId) : Call World Unit := fun world =>
  (.ok (), world.leave connection)

/-- The database over tables; targets describe themselves with the given text. -/
def database (description : String) : Database World where
  description := description
  connect _ := reply (.ok ())
  execute := executeOn
  query := queryOn
  lastInsertId := lastInsertIdOn
  begin := beginOn
  commit := commitOn
  rollback := rollbackOn
  inTransaction connection world := world.inTransaction.contains connection
  isValid connection world := (!world.inTransaction.contains connection, world)
  tableExists := tableExistsOn
  close := closeOn

end Tables
end EntityStore
