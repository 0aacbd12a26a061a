/-
Units of work and transactions. Every access to the database is a unit of work.
Outside a transaction a unit has a connection of its own and, if it writes, is
bracketed by begin and commit. Inside a transaction all units of a thread share its
connection; the keys they touch leave the cache at once, the effects are replayed
when the transaction commits, and the instances they changed are put back when it
does not.
-/

import EntityStore.Store.Basic

set_option autoImplicit false

namespace EntityStore

def CacheEffect.key : CacheEffect → Key
  | put key _ => key
  | fill key _ => key
  | evict key => key

def CacheEffect.isFill : CacheEffect → Bool
  | fill .. => true
  | _ => false

namespace WriteSet

def add (writes : WriteSet) (effect : CacheEffect) : WriteSet :=
  { writes with effects := writes.effects ++ [effect] }

/-- Records an owner; a key without id owns nothing. -/
def addOwner (writes : WriteSet) (key : Key) : WriteSet :=
  if key.hasId && !writes.owners.contains key then
    { writes with owners := writes.owners ++ [key] }
  else writes

def addOwners (writes : WriteSet) (keys : List Key) : WriteSet :=
  keys.foldl addOwner writes

/-- The set without the rows that were read. -/
def withoutFills (writes : WriteSet) : WriteSet :=
  { writes with effects := writes.effects.filter fun effect => !effect.isFill }

def append (first second : WriteSet) : WriteSet :=
  ({ first with effects := first.effects ++ second.effects }).addOwners second.owners

def evictTouched (writes : WriteSet) (cache : Cache) : Cache :=
  writes.effects.foldl (fun current effect => current.invalidate effect.key) cache

/-- Applies one effect; `generation` is from before anything was read. -/
def applyEffect (generation : Nat) (cache : Cache) : CacheEffect → Cache
  | .put key row => cache.put key row
  | .fill key row => (cache.fill key row generation).2
  | .evict key => cache.invalidate key

/-- Replays the effects on the cache. -/
def apply (writes : WriteSet) (generation : Nat) (cache : Cache) : Cache :=
  writes.effects.foldl (applyEffect generation) cache

end WriteSet

namespace Snapshot

def ofInstance (subject : Instance) : Snapshot :=
  ⟨subject.key, subject.state, subject.row, subject.pending⟩

/-- The instance as it was, without the collections read since. -/
def restore (snapshot : Snapshot) (subject : Instance) : Instance :=
  { subject with
    key := snapshot.key
    state := snapshot.state
    row := snapshot.row
    pending := snapshot.pending
    collections := [] }

end Snapshot

/-- Keeps the first snapshot of an instance. -/
def Transaction.keepSnapshot (transaction : Transaction) (subject : InstanceId)
    (snapshot : Snapshot) : Transaction :=
  if transaction.snapshots.any fun entry => entry.1 == subject then transaction
  else { transaction with snapshots := transaction.snapshots ++ [(subject, snapshot)] }

namespace Store

variable {World : Type}

/-! ### Owners of collections -/

/-- Registers an instance that holds collections under its key. -/
def registerOwner (key : Key) (subject : InstanceId) (store : Store World) : Store World :=
  let others := ((store.owners.lookup key).getD []).filter fun other => other != subject
  { store with owners := Row.place key (others ++ [subject]) store.owners }

/-- Forgets the collections of every instance registered under one of the keys. -/
def invalidateOwners (keys : List Key) (store : Store World) : Store World :=
  let affected := (store.owners.filter fun entry => keys.contains entry.1).flatMap Prod.snd
  let cleared := affected.foldl
    (fun current subject =>
      current.modifyInstance (fun content => { content with collections := [] }) subject) store
  { cleared with owners := cleared.owners.filter fun entry => !keys.contains entry.1 }

/-! ### Ending a transaction -/

/-- Puts back every instance that a transaction changed. -/
def restoreInstances (transaction : Transaction) (store : Store World) : Store World :=
  transaction.snapshots.reverse.foldl
    (fun current entry => current.modifyInstance entry.2.restore entry.1) store

/-- Records how an instance looks before the thread's transaction changes it. -/
def rememberInTransaction (thread : ThreadId) (subject : InstanceId) (store : Store World) :
    Store World :=
  match store.transaction? thread with
  | none => store
  | some transaction =>
      store.setTransaction thread
        (transaction.keepSnapshot subject (Snapshot.ofInstance (store.instanceAt subject)))

/-- What a unit of work inside a transaction leaves behind when it succeeds. -/
def recordWrites (thread : ThreadId) (writes : WriteSet) (store : Store World) : Store World :=
  let kept := writes.withoutFills
  let evicted := { store with cache := kept.evictTouched store.cache }
  let invalidated := evicted.invalidateOwners kept.owners
  match invalidated.transaction? thread with
  | none => invalidated
  | some transaction =>
      invalidated.setTransaction thread
        { transaction with writes := transaction.writes.append kept }

/-! ### Units of work -/

/-- The work of a unit: a result and what it does to cache and collections. -/
abbrev Work (World : Type) (α : Type) := LeaseId → Operation World (α × WriteSet)

/-- A unit inside the thread's transaction. A failure ends the transaction. -/
def unitInside {α : Type} (session : Session World) (transaction : Transaction)
    (work : Work World α) : Operation World α := do
  match ← attempt (work transaction.lease) with
  | .ok (result, writes) =>
      modify (recordWrites session.thread writes)
      return result
  | .error error =>
      -- The work was on the transaction's own connection, so its part cannot be undone alone.
      modify (dropTransaction session.thread)
      rollbackQuietly session transaction.lease
      modify (restoreInstances transaction)
      release session transaction.lease
      throw error

/-- Does the work, inside begin and commit if it is transactional. -/
def bracket {α : Type} (session : Session World) (transactional : Bool) (lease : LeaseId)
    (work : Work World α) : Operation World (α × WriteSet) := do
  if transactional then
    call lease session.database.begin
    match ← attempt (work lease) with
    | .error error =>
        rollbackQuietly session lease
        throw error
    | .ok outcome =>
        match ← attempt (call lease session.database.commit) with
        | .error error =>
            rollbackQuietly session lease
            throw error
        | .ok () => return outcome
  else work lease

def unitOutside {α : Type} (session : Session World) (transactional : Bool)
    (work : Work World α) : Operation World α := do
  -- A row that is read below must not replace one that is written meanwhile.
  let generation := (← get).cache.generation
  let lease ← acquire session
  let outcome ← attempt (bracket session transactional lease work)
  match outcome with
  | .ok (result, writes) =>
      modify fun store =>
        { store with cache := writes.apply generation store.cache }.invalidateOwners writes.owners
      release session lease
      return result
  | .error error =>
      release session lease
      throw error

def unit {α : Type} (session : Session World) (transactional : Bool) (work : Work World α) :
    Operation World α := do
  ensureOpen
  match (← get).transaction? session.thread with
  | some transaction => unitInside session transaction work
  | none => unitOutside session transactional work

/-! ### Transactions -/

def beginTransaction (session : Session World) : Operation World Unit := do
  ensureOpen
  if (← get).inTransaction session.thread then throw (.transaction .alreadyOpen)
  let lease ← acquire session
  match ← attempt (call lease session.database.begin) with
  | .ok () => modify (setTransaction session.thread { lease := lease })
  | .error error =>
      release session lease
      throw error

/-- Takes the thread's transaction out of the store. -/
def takeTransaction (session : Session World) : Operation World Transaction := do
  ensureOpen
  match (← get).transaction? session.thread with
  | none => throw (.transaction .notOpen)
  | some transaction =>
      modify (dropTransaction session.thread)
      return transaction

/-- Commits the thread's transaction; when that fails, the transaction is rolled
back. -/
def commitTransaction (session : Session World) : Operation World Unit := do
  let transaction ← takeTransaction session
  match ← attempt (call transaction.lease session.database.commit) with
  | .ok () =>
      modify fun store =>
        { store with
          cache := transaction.writes.apply store.cache.generation store.cache
        }.invalidateOwners transaction.writes.owners
      release session transaction.lease
  | .error error =>
      rollbackQuietly session transaction.lease
      modify (restoreInstances transaction)
      modify (invalidateOwners transaction.writes.owners)
      release session transaction.lease
      throw error

def rollbackTransaction (session : Session World) : Operation World Unit := do
  let transaction ← takeTransaction session
  let outcome ← attempt (call transaction.lease session.database.rollback)
  -- A rollback that fails ends the transaction as well: a connection that is still inside of
  -- one is closed when it is released.
  modify (restoreInstances transaction)
  modify (invalidateOwners transaction.writes.owners)
  release session transaction.lease
  settleOutcome outcome

/-- Ends a transaction in which operations had an outcome: it commits if they succeeded
and is rolled back if they failed, unless a failing unit has already ended it. -/
def concludeTransaction {α : Type} (session : Session World) (outcome : Except Error α) :
    Operation World α := do
  match outcome with
  | .ok result =>
      commitTransaction session
      return result
  | .error error =>
      if (← get).inTransaction session.thread then
        -- The error of the operations is the one that counts.
        let _ ← attempt (rollbackTransaction session)
      throw error

def transaction {α : Type} (session : Session World) (body : Operation World α) :
    Operation World α := do
  beginTransaction session
  let outcome ← attempt body
  concludeTransaction session outcome

def clearCache : Operation World Unit :=
  modify fun store => { store with cache := store.cache.clear }

/-- Checks a connection out, outside of any unit of work. -/
def checkOut (session : Session World) : Operation World LeaseId := do
  ensureOpen
  acquire session

/-! ### Closing -/

/-- Rolls back a transaction left open. -/
def abandon (session : Session World) (transaction : Transaction) : Operation World Unit := do
  rollbackQuietly session transaction.lease
  modify (restoreInstances transaction)
  release session transaction.lease

def abandonAll (session : Session World) : List Transaction → Operation World Unit
  | [] => return ()
  | transaction :: rest => do
      abandon session transaction
      abandonAll session rest

/-- Closes the store: open transactions are rolled back, the pool is shut down, and
cache and owners are emptied. Closing again changes nothing. -/
def close (session : Session World) : Operation World Unit := do
  if (← get).isOpen then
    -- Open transactions have no order of their own: any would do.
    let transactions := (← get).transactions.map Prod.snd
    -- What follows cannot fail, and nothing can be begun any more.
    modify fun store => { store with isOpen := false, transactions := [] }
    abandonAll session transactions
    modify fun store =>
      { store with
        pool := store.pool.shutdown session.database
        cache := store.cache.clear
        owners := [] }

end Store

end EntityStore
