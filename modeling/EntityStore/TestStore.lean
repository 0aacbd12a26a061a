/-
Stores for tests: tables in memory, an unbounded cache, and a record of every statement
that was sent. The tables can be looked at through a second store with types rebuilt
from the mappings of the first.
-/

import EntityStore.Dialect.Shipped
import EntityStore.Mapping.Specification
import EntityStore.Recording
import EntityStore.Seeding
import EntityStore.Store.Remove
import EntityStore.Store.Schema
import EntityStore.Tables.Connections

set_option autoImplicit false

namespace EntityStore

/-- A store over recorded tables, and the instances made in it so far. -/
structure TestStore where
  store : Store (Recorded Tables.World)
  made : List InstanceId := []

structure Reopened where
  /-- The mappings of all types with the ids of all their instances. -/
  types : List (Mapping × List Int64)
  /-- The types whose tables had to be created. -/
  synced : List String

namespace TestStore

def config : StoreConfig where
  pool := { maxSize := 4, minSize := 1 }
  cache := .unbounded

def tablesDatabase : Database Tables.World := Tables.database "sqlite:test.db"

def session : Session (Recorded Tables.World) where
  database := Recorded.database tablesDatabase
  dialect := Dialect.sqlite

def perform {α : Type} (operation : Operation (Recorded Tables.World) α)
    (test : TestStore) : Except Error α × TestStore :=
  let (outcome, after) := operation.run test.store
  (outcome, { test with store := after })

def changeWorld (change : Recorded Tables.World → Recorded Tables.World) (test : TestStore) :
    TestStore :=
  { test with store := { test.store with
      pool := { test.store.pool with world := change test.store.pool.world } } }

def log (test : TestStore) : StatementLog := test.store.pool.world.log

def withoutLog (test : TestStore) : TestStore := test.changeWorld Recorded.withoutLog

def empty : Except Error TestStore := do
  let store ← (Store.create session.database config 0 #[] { world := {} }).1
  return { store := store }

/-- A store with types whose tables are there. -/
def ofDefinitions (batch : List Definition) : Except Error TestStore := do
  let test ← empty
  let (outcome, after) := test.perform do
    let _ ← Store.define batch
    let _ ← Store.sync session
  outcome
  return after.withoutLog

/-! ### Instances -/

/-- The instance made at a place. -/
def madeAt (test : TestStore) (index : Nat) : InstanceId := test.made.getD index 0

def keyOf (test : TestStore) (subject : InstanceId) : Key := (test.store.instanceAt subject).key

/-- Assigns values to an instance and saves it; gives its key. -/
def save (subject : InstanceId) (values : List (String × SeedValue)) (test : TestStore) :
    Except Error Key × TestStore :=
  let (outcome, after) := test.perform (Store.saveWith session test.made subject values)
  (outcome.map fun _ => after.keyOf subject, after)

def make (seed : Seed) (test : TestStore) : Except Error Key × TestStore :=
  match test.perform (do Store.createInstance (← Store.entityType seed.entity) []) with
  | (.error error, after) => (.error error, after)
  | (.ok subject, after) =>
      { after with made := after.made ++ [subject] }.save subject seed.values

def remove (subject : InstanceId) (test : TestStore) : Except Error Key × TestStore :=
  let (outcome, after) := test.perform (Store.remove session subject)
  (outcome.map fun _ => after.keyOf subject, after)

/-! ### A second store -/

/-- The ids of all instances of each type. -/
def idsOfAll (session : Session Tables.World) :
    List Mapping → Operation Tables.World (List (Mapping × List Int64))
  | [] => return []
  | mapping :: rest => do
      let subjects ← Store.all session mapping.entity
      let store ← get
      let ids := subjects.filterMap fun subject => (store.instanceAt subject).key.id
      let others ← idsOfAll session rest
      return (mapping, ids) :: others

/-- Defines the types of mappings anew and looks at everything. -/
def inspect (session : Session Tables.World) (mappings : List Mapping) :
    Operation Tables.World Reopened := do
  let rebuilt ← Store.define
    (mappings.map fun mapping => (mapping.entity, mapping.specification))
  let types ← idsOfAll session rebuilt
  let synced ← Store.sync session
  return ⟨types, synced⟩

/-- Opens a second store over the same tables, with a cache of its own. -/
def reopen (test : TestStore) : Except Error Reopened × TestStore :=
  let second : Session Tables.World := { database := tablesDatabase, dialect := Dialect.sqlite }
  let published := test.store.pool.world.world.published
  match Store.create tablesDatabase config 1 #[] { published := published } with
  | (.error error, _) => (.error error, test)
  | (.ok store, _) =>
      let (outcome, after) := (inspect second test.store.registry.mappings).run store
      (outcome, test.changeWorld fun recorded =>
        { recorded with world :=
            { recorded.world with published := after.pool.world.published } })

end TestStore

end EntityStore
