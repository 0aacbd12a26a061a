/-
Scripts and logged calls as documents. A script has a list of answers for each kind of
call; null means the usual answer, and an object with the member `fail` a failure.
-/

import EntityStore.Document.Values
import EntityStore.Pool
import EntityStore.Scripted

set_option autoImplicit false

namespace EntityStore

def DatabaseError.ofDocument (document : Json) : DatabaseError :=
  match (document.item 0).text with
  | "constraint" => constraint (document.item 1).text
  | "conversion" => conversion (document.item 1).text (document.item 2).text
  | _ => closed

namespace Scripted

def Response.ofDocument {α : Type} (read : Json → α) : Json → Response α
  | .null => usual
  | .object [("fail", cause)] => failing (DatabaseError.ofDocument cause)
  | document => given (read document)

def Script.ofDocument (document : Json) : Script :=
  let responses {α : Type} (name : String) (read : Json → α) : List (Response α) :=
    (document.field name).items.map (Response.ofDocument read)
  let nothing : Json → Unit := fun _ => ()
  { connect := responses "connect" nothing
    execute := responses "execute" Json.natural
    query := responses "query" fun rows => rows.items.map Row.ofDocument
    lastInsertId := responses "last_insert_id" fun id => (Key.idOfDocument id).getD 0
    begin := responses "begin" nothing
    commit := responses "commit" nothing
    rollback := responses "rollback" nothing
    isValid := responses "is_valid" Json.flag
    tableExists := responses "table_exists" Json.flag
    close := responses "close" nothing }

namespace Entry

def statementDocument (name : String) (connection : ConnectionId) (text : String)
    (values : List Value) : Json :=
  .tagged name [.ofNat connection, .string text, .ofList Value.toDocument values]

def toDocument : Entry → Json
  | connect => .tagged "connect" []
  | execute connection text values => statementDocument "execute" connection text values
  | query connection text values => statementDocument "query" connection text values
  | lastInsertId connection => .tagged "last_insert_id" [.ofNat connection]
  | begin connection => .tagged "begin" [.ofNat connection]
  | commit connection => .tagged "commit" [.ofNat connection]
  | rollback connection => .tagged "rollback" [.ofNat connection]
  | isValid connection => .tagged "is_valid" [.ofNat connection]
  | tableExists connection table => .tagged "table_exists"
      [.ofNat connection, .string table.name, .ofOption .string table.schema]
  | close connection => .tagged "close" [.ofNat connection]

end Entry

def placeClosing (connection : ConnectionId) : List Entry → List Entry
  | .close other :: rest =>
      if connection ≤ other then .close connection :: .close other :: rest
      else .close other :: placeClosing connection rest
  | rest => .close connection :: rest

/-- The calls with every run of closings in the order of the connections, because the
order of closing several of them means nothing. -/
def World.orderedCalls (world : World) : List Entry :=
  world.calls.foldr (fun entry rest =>
    match entry with
    | .close connection => placeClosing connection rest
    | other => other :: rest) []

def World.toDocument (world : World) : Json :=
  Json.ofList Entry.toDocument world.orderedCalls

end Scripted

def PoolCounters.toDocument (counters : PoolCounters) : Json :=
  Json.ofList Json.ofNat [counters.openCount, counters.idle, counters.inUse,
    counters.totalCreated, counters.totalClosed]

end EntityStore
