/-
The store: the registry of entity types, the cache, the pool and the instances in
memory, with the transactions that threads have open. An operation changes the store
and may fail; what it changed before it failed stays changed.
-/

import EntityStore.Cache
import EntityStore.Instance
import EntityStore.Pool
import EntityStore.Registry

set_option autoImplicit false

namespace EntityStore

abbrev ThreadId := Nat

structure StoreConfig where
  pool : PoolConfig := {}
  cache : CachePolicy := .lru 1000
  deriving DecidableEq, Repr

/-- How an instance looked before a transaction changed it. -/
structure Snapshot where
  key : Key
  state : Lifecycle
  row : Option Row
  pending : List (String × PropertyValue)
  deriving DecidableEq, Repr

inductive CacheEffect where
  /-- A row that was written. -/
  | put (key : Key) (row : Row)
  /-- A row that was read; it yields to writers. -/
  | fill (key : Key) (row : Row)
  | evict (key : Key)
  deriving DecidableEq, Repr

/-- What a unit of work does to the cache, in order, and the keys whose owners'
collections it may have changed, each once. -/
structure WriteSet where
  effects : List CacheEffect := []
  owners : List Key := []
  deriving DecidableEq, Repr

structure Transaction where
  lease : LeaseId
  writes : WriteSet := {}
  /-- The first snapshot of each instance, in the order in which they were taken. -/
  snapshots : List (InstanceId × Snapshot) := []
  deriving DecidableEq, Repr

structure Store (World : Type) where
  id : StoreId
  config : StoreConfig
  isOpen : Bool := true
  registry : Registry := {}
  cache : Cache
  pool : Pool World
  memory : Array Instance := #[]
  /-- The instances that hold collections, by their key when they read them. -/
  owners : List (Key × List InstanceId) := []
  transactions : List (ThreadId × Transaction) := []
  /-- The time in milliseconds. -/
  clock : Nat := 0

structure Session (World : Type) where
  database : Database World
  dialect : Dialect
  thread : ThreadId := 0

/-- An operation on a store. -/
abbrev Operation (World : Type) (α : Type) := ExceptT Error (StateM (Store World)) α

namespace Store

variable {World : Type}

/-- Opens a store over a database; `memory` holds the instances of other stores. -/
def create (database : Database World) (config : StoreConfig) (id : StoreId)
    (memory : Array Instance) (world : World) : Except Error (Store World) × World :=
  match Pool.create database config.pool 0 world with
  | (.error error, pool) => (.error error, pool.world)
  | (.ok (), pool) =>
      (.ok {
        id := id
        config := config
        cache := Cache.empty config.cache
        pool := pool
        memory := memory }, pool.world)

/-! ### The state -/

def instance? (store : Store World) (subject : InstanceId) : Option Instance :=
  store.memory[subject]?

def instanceAt (store : Store World) (subject : InstanceId) : Instance :=
  (store.instance? subject).getD Instance.absent

def modifyInstance (change : Instance → Instance) (subject : InstanceId)
    (store : Store World) : Store World :=
  { store with memory := store.memory.setIfInBounds subject (change (store.instanceAt subject)) }

def addInstance (content : Instance) (store : Store World) : InstanceId × Store World :=
  (store.memory.size, { store with memory := store.memory.push content })

def mapping? (store : Store World) (entity : String) : Option Mapping :=
  store.registry.mapping? entity

def transaction? (store : Store World) (thread : ThreadId) : Option Transaction :=
  store.transactions.lookup thread

def inTransaction (store : Store World) (thread : ThreadId) : Bool :=
  (store.transaction? thread).isSome

def dropTransaction (thread : ThreadId) (store : Store World) : Store World :=
  { store with transactions := store.transactions.filter fun entry => entry.1 != thread }

def setTransaction (thread : ThreadId) (transaction : Transaction) (store : Store World) :
    Store World :=
  { store with transactions :=
      (store.transactions.filter fun entry => entry.1 != thread) ++ [(thread, transaction)] }

/-! ### Operations -/

def attempt {α : Type} (operation : Operation World α) :
    Operation World (Except Error α) :=
  ExceptT.mk do
    let outcome ← operation.run
    return .ok outcome

/-- Goes on with a result or fails with its error. -/
def settleOutcome {α : Type} (outcome : Except Error α) : Operation World α :=
  match outcome with
  | .ok content => return content
  | .error error => throw error

def ensureOpen : Operation World Unit := do
  if !(← get).isOpen then throw .storeClosed

def remember (content : Instance) : Operation World InstanceId := do
  let (subject, after) := (← get).addInstance content
  set after
  return subject

def entityType (entity : String) : Operation World Mapping := do
  match (← get).mapping? entity with
  | some mapping => return mapping
  | none => throw (.query (.reference (.undefinedType entity)))

def acquire (session : Session World) : Operation World LeaseId := do
  let store ← get
  let (outcome, pool) := store.pool.acquire session.database
  set { store with pool := pool }
  settleOutcome outcome

def release (session : Session World) (lease : LeaseId) : Operation World Unit :=
  modify fun store =>
    { store with pool := store.pool.release session.database store.clock lease }

def call {α : Type} (lease : LeaseId) (request : ConnectionId → Call World α) :
    Operation World α := do
  let store ← get
  let (outcome, pool) := store.pool.callLease lease request
  set { store with pool := pool }
  settleOutcome (outcome.mapError Error.ofDatabase)

def execute (session : Session World) (lease : LeaseId) (statement : Statement) :
    Operation World Nat :=
  call lease fun connection => session.database.execute connection statement

def query (session : Session World) (lease : LeaseId) (statement : Statement) :
    Operation World (List Row) :=
  call lease fun connection => session.database.query connection statement

/-- Rolls back; a failure is of no consequence. -/
def rollbackQuietly (session : Session World) (lease : LeaseId) : Operation World Unit := do
  let _ ← attempt (call lease session.database.rollback)

def describe (session : Session World) (store : Store World) : String :=
  "Store \x7b dialect: " ++ Text.quoted session.dialect.name ++ ", entity_types: "
    ++ toString store.registry.mappings.length ++ ", is_open: " ++ toString store.isOpen ++ " \x7d"

end Store

def Mapping.describe (mapping : Mapping) : String :=
  "EntityType(" ++ Text.quoted mapping.entity ++ ")"

end EntityStore
