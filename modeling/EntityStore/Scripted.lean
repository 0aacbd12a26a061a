/-
A database without data, for trials of the store: every call is logged, and answered
from a script or else in the usual way. Connections share one counter of generated
ids.
-/

import EntityStore.Database

set_option autoImplicit false

namespace EntityStore
namespace Scripted

inductive Response (α : Type) where
  | usual
  | given (answer : α)
  | failing (fault : DatabaseError)

structure Script where
  connect : List (Response Unit) := []
  execute : List (Response Nat) := []
  query : List (Response (List Row)) := []
  lastInsertId : List (Response Int64) := []
  begin : List (Response Unit) := []
  commit : List (Response Unit) := []
  rollback : List (Response Unit) := []
  isValid : List (Response Bool) := []
  tableExists : List (Response Bool) := []
  close : List (Response Unit) := []

inductive Entry where
  | connect
  | execute (connection : ConnectionId) (text : String) (values : List Value)
  | query (connection : ConnectionId) (text : String) (values : List Value)
  | lastInsertId (connection : ConnectionId)
  | begin (connection : ConnectionId)
  | commit (connection : ConnectionId)
  | rollback (connection : ConnectionId)
  | isValid (connection : ConnectionId)
  | tableExists (connection : ConnectionId) (table : QualifiedName)
  | close (connection : ConnectionId)
  deriving DecidableEq, Repr

structure World where
  script : Script := {}
  /-- The calls made, the last one first. -/
  log : List Entry := []
  lastId : Int64 := 0
  /-- The connections inside a transaction. -/
  inTransaction : List ConnectionId := []

namespace World

def record (world : World) (entry : Entry) : World :=
  { world with log := entry :: world.log }

def calls (world : World) : List Entry := world.log.reverse

def withScript (world : World) (script : Script) : World :=
  { world with script := script }

def withoutLog (world : World) : World :=
  { world with log := [] }

end World

/-- The answer to a call and the rest of its list. -/
def answer {α : Type} (usual : α) :
    List (Response α) → Except DatabaseError α × List (Response α)
  | [] => (.ok usual, [])
  | .usual :: rest => (.ok usual, rest)
  | .given content :: rest => (.ok content, rest)
  | .failing fault :: rest => (.error fault, rest)

def respond {α : Type} (entry : Entry) (usual : α) (select : Script → List (Response α))
    (replace : Script → List (Response α) → Script) : Call World α := fun world =>
  let (outcome, rest) := answer usual (select world.script)
  (outcome, { world.record entry with script := replace world.script rest })

def andThen {α : Type} (request : Call World α) (change : α → World → World) :
    Call World α := fun world =>
  match request world with
  | (.ok content, after) => (.ok content, change content after)
  | (.error fault, after) => (.error fault, after)

def enter (connection : ConnectionId) (world : World) : World :=
  { world with inTransaction := connection :: world.inTransaction }

def leave (connection : ConnectionId) (world : World) : World :=
  { world with inTransaction := world.inTransaction.filter fun other => other != connection }

def validity (connection : ConnectionId) (world : World) : Bool × World :=
  let usual := !world.inTransaction.contains connection
  match respond (.isValid connection) usual Script.isValid
      (fun script rest => { script with isValid := rest }) world with
  | (.ok valid, after) => (valid, after)
  | (.error _, after) => (false, after)

/-- The id that an insertion generated: one more than the last one told. -/
def generatedId (connection : ConnectionId) : Call World Int64 := fun world =>
  andThen
    (respond (.lastInsertId connection) (world.lastId + 1) Script.lastInsertId
      fun script rest => { script with lastInsertId := rest })
    (fun id after => { after with lastId := id }) world

/-- The scripted database; targets describe themselves with the given text. -/
def database (description : String) : Database World where
  description := description
  connect _ := respond .connect () Script.connect
    fun script rest => { script with connect := rest }
  execute connection statement :=
    respond (.execute connection statement.text statement.values) 1 Script.execute
      fun script rest => { script with execute := rest }
  query connection statement :=
    respond (.query connection statement.text statement.values) [] Script.query
      fun script rest => { script with query := rest }
  lastInsertId := generatedId
  begin connection := andThen
    (respond (.begin connection) () Script.begin fun script rest => { script with begin := rest })
    fun _ => enter connection
  commit connection := andThen
    (respond (.commit connection) () Script.commit
      fun script rest => { script with commit := rest })
    fun _ => leave connection
  rollback connection := andThen
    (respond (.rollback connection) () Script.rollback
      fun script rest => { script with rollback := rest })
    fun _ => leave connection
  inTransaction connection world := world.inTransaction.contains connection
  isValid := validity
  tableExists connection table :=
    respond (.tableExists connection table) false Script.tableExists
      fun script rest => { script with tableExists := rest }
  close connection := respond (.close connection) () Script.close
    fun script rest => { script with close := rest }

end Scripted
end EntityStore
