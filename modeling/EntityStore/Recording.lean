/-
Recording what is sent to a database: the texts of all statements in order, counted by
the word they begin with. The recorded database answers as the one inside it.
-/

import EntityStore.Database
import EntityStore.Text

set_option autoImplicit false

namespace EntityStore

/-- A world with the texts of the statements sent to it, the last one first. -/
structure Recorded (World : Type) where
  world : World
  texts : List String := []

/-- The texts of statements, in order. -/
abbrev StatementLog := List String

namespace StatementLog

def beginsWith (word text : String) : Bool :=
  let start := word.toList.map Text.upperChar
  let content := (text.toList.dropWhile Text.isWhiteSpace).map Text.upperChar
  content.take start.length == start

/-- The number of statements that begin with a word. -/
def count (log : StatementLog) (word : String) : Nat :=
  log.countP (beginsWith word)

def inserts (log : StatementLog) : Nat := log.count "INSERT"

def updates (log : StatementLog) : Nat := log.count "UPDATE"

def selects (log : StatementLog) : Nat := log.count "SELECT"

end StatementLog

namespace Recorded

variable {World : Type}

def log (recorded : Recorded World) : StatementLog := recorded.texts.reverse

def withoutLog (recorded : Recorded World) : Recorded World :=
  { recorded with texts := [] }

def record (text : String) (recorded : Recorded World) : Recorded World :=
  { recorded with texts := text :: recorded.texts }

def inside {α : Type} (request : Call World α) : Call (Recorded World) α := fun recorded =>
  let (outcome, after) := request recorded.world
  (outcome, { recorded with world := after })

/-- The database that records statements before it passes them on. -/
def database (inner : Database World) : Database (Recorded World) where
  description := "recording " ++ inner.description
  connect connection := inside (inner.connect connection)
  execute connection statement recorded :=
    inside (inner.execute connection statement) (recorded.record statement.text)
  query connection statement recorded :=
    inside (inner.query connection statement) (recorded.record statement.text)
  lastInsertId connection := inside (inner.lastInsertId connection)
  begin connection := inside (inner.begin connection)
  commit connection := inside (inner.commit connection)
  rollback connection := inside (inner.rollback connection)
  inTransaction connection recorded := inner.inTransaction connection recorded.world
  isValid connection recorded :=
    let (valid, after) := inner.isValid connection recorded.world
    (valid, { recorded with world := after })
  tableExists connection table := inside (inner.tableExists connection table)
  close connection := inside (inner.close connection)

end Recorded

end EntityStore
