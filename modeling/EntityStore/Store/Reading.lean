/-
Reading: queries, look-ups by id and the loading of rows. A row that was read goes to
the cache; an instance found by id holds its key alone until a property is read.
-/

import EntityStore.Store.Unit

set_option autoImplicit false

namespace EntityStore

namespace WriteSet

/-- The set that puts rows which were read into the cache. -/
def ofFills (rows : List (Key × Row)) : WriteSet :=
  { effects := rows.map fun entry => .fill entry.1 entry.2 }

end WriteSet

namespace Mapping

def hydrateAll (mapping : Mapping) : List Row → Except Error (List (Key × Row))
  | [] => return []
  | row :: rest => do
      let entry ← mapping.hydrate row
      let entries ← hydrateAll mapping rest
      return entry :: entries

end Mapping

namespace Store

variable {World : Type}

/-! ### Queries -/

def prepare (text : String) : Operation World Query := do
  ensureOpen
  settleOutcome ((Query.parse (← get).registry.mapping? text).mapError .query)

/-- Creates an instance for each row that was read, in order. -/
def rememberLoaded (mapping : Mapping) :
    List (Key × Row) → Operation World (List InstanceId)
  | [] => return []
  | entry :: rest => do
      let subject ← remember (Instance.loaded (← get).id mapping entry.1 entry.2)
      let subjects ← rememberLoaded mapping rest
      return subject :: subjects

/-- Runs a query and gives an instance for each row of the page, in the order of the
database. -/
def run (session : Session World) (prepared : Query) (parameters : Parameters)
    (page : Page) : Operation World (List InstanceId) := do
  let dialect := session.dialect
  let values ← settleOutcome
    (((prepared.compile dialect).bind parameters dialect).mapError .parameter)
  let mapping ← entityType prepared.root.entity
  let rows ← unit session false fun lease => do
    let rows ← query session lease (Statement.select dialect prepared page values)
    let entries ← settleOutcome (prepared.root.hydrateAll rows)
    return (entries, WriteSet.ofFills entries)
  rememberLoaded mapping rows

def all (session : Session World) (entity : String) : Operation World (List InstanceId) := do
  let prepared ← prepare ("from " ++ entity)
  run session prepared .none {}

/-! ### Rows -/

def fetchRow (session : Session World) (lease : LeaseId) (mapping : Mapping) (key : Key) :
    Operation World (Option Row) := do
  match key.id with
  | none => return none
  | some id =>
      let rows ← query session lease (Statement.selectById session.dialect mapping id)
      return rows.head?

/-- Takes the row of a key from the cache, which counts as use of it. -/
def cachedRow (key : Key) : Operation World (Option Row) := do
  let store ← get
  let (row, cache) := store.cache.get key
  set { store with cache := cache }
  return row

/-- The row of a key, from the cache or else from the database. -/
def loadRow (session : Session World) (mapping : Mapping) (key : Key) :
    Operation World (Option Row) := do
  ensureOpen
  match ← cachedRow key with
  | some row => return some row
  | none =>
      unit session false fun lease => do
        let row ← fetchRow session lease mapping key
        return (row, WriteSet.ofFills (row.toList.map fun content => (key, content)))

def find (session : Session World) (mapping : Mapping) (id : Int64) :
    Operation World (Option InstanceId) := do
  match ← loadRow session mapping (Key.withId mapping.entity id) with
  | none => return none
  | some _ =>
      let subject ← remember (Instance.reference (← get).id mapping id)
      return some subject

end Store

end EntityStore
