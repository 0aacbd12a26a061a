/-
A bounded pool of connections. Connections are handed out under leases and come back
when the lease is released; one that is still fit waits at the end of the idle queue,
any other is closed. Maintenance closes connections that waited too long, the longest
waiting first, and shutdown closes everything, leased connections included.

Time is a count of milliseconds given to the operations that need it.
-/

import EntityStore.Error

set_option autoImplicit false

namespace EntityStore

/-- The number of a lease, in the order of handing out. -/
abbrev LeaseId := Nat

/-- Times are in milliseconds. -/
structure PoolConfig where
  maxSize : Nat := 10
  minSize : Nat := 1
  acquireTimeout : Nat := 30000
  idleTimeout : Nat := 300000
  maintenanceInterval : Nat := 60000
  shutdownGrace : Nat := 5000
  deriving DecidableEq, Repr

/-- At least one connection is allowed, and the minimum is not above the maximum. -/
def PoolConfig.normalized (config : PoolConfig) : PoolConfig :=
  let maxSize := max config.maxSize 1
  { config with maxSize := maxSize, minSize := min config.minSize maxSize }

structure IdleConnection where
  connection : ConnectionId
  releasedAt : Nat
  deriving DecidableEq, Repr

structure Pool (World : Type) where
  config : PoolConfig
  world : World
  /-- In order of release. -/
  idle : List IdleConnection := []
  /-- The connections handed out. -/
  leased : List (LeaseId × ConnectionId) := []
  nextLease : LeaseId := 0
  openCount : Nat := 0
  inUse : Nat := 0
  isClosed : Bool := false
  totalCreated : Nat := 0
  totalClosed : Nat := 0

structure PoolCounters where
  openCount : Nat
  idle : Nat
  inUse : Nat
  totalCreated : Nat
  totalClosed : Nat
  deriving DecidableEq, Repr

namespace Pool

variable {World : Type}

def counters (pool : Pool World) : PoolCounters :=
  ⟨pool.openCount, pool.idle.length, pool.inUse, pool.totalCreated, pool.totalClosed⟩

/-! ### Calls through leases -/

def call {α : Type} (pool : Pool World) (call : Call World α) :
    Except DatabaseError α × Pool World :=
  let (outcome, world) := call pool.world
  (outcome, { pool with world := world })

/-- Makes a call on the connection of a lease; a lease without connection is closed. -/
def callLease {α : Type} (pool : Pool World) (lease : LeaseId)
    (request : ConnectionId → Call World α) : Except DatabaseError α × Pool World :=
  match pool.leased.lookup lease with
  | none => (.error .closed, pool)
  | some connection => pool.call (request connection)

def inTransaction (database : Database World) (pool : Pool World) (lease : LeaseId) : Bool :=
  match pool.leased.lookup lease with
  | none => false
  | some connection => database.inTransaction connection pool.world

def isValid (database : Database World) (pool : Pool World) (lease : LeaseId) :
    Bool × Pool World :=
  match pool.leased.lookup lease with
  | none => (false, pool)
  | some connection =>
      let (valid, world) := database.isValid connection pool.world
      (valid, { pool with world := world })

/-! ### Opening and closing connections -/

def connect (database : Database World) (pool : Pool World) :
    Except DatabaseError ConnectionId × Pool World :=
  let connection := pool.totalCreated
  match pool.call (database.connect connection) with
  | (.error fault, after) => (.error fault, after)
  | (.ok (), after) => (.ok connection, { after with totalCreated := connection + 1 })

/-- Closes a connection that the pool no longer holds. A failure is of no consequence. -/
def close (database : Database World) (connection : ConnectionId) (pool : Pool World) :
    Pool World :=
  (pool.call (database.close connection)).2

def closeAll (database : Database World) (connections : List ConnectionId)
    (pool : Pool World) : Pool World :=
  connections.foldl (fun current connection => close database connection current) pool

/-- Opens a connection that waits from the start. -/
def addIdle (database : Database World) (now : Nat) (pool : Pool World) :
    Except DatabaseError Unit × Pool World :=
  match pool.connect database with
  | (.error fault, after) => (.error fault, after)
  | (.ok connection, after) =>
      (.ok (), { after with
        openCount := after.openCount + 1
        idle := after.idle ++ [⟨connection, now⟩] })

def addIdles (database : Database World) (now : Nat) :
    Nat → Pool World → Except DatabaseError Unit × Pool World
  | 0, pool => (.ok (), pool)
  | count + 1, pool =>
      match pool.addIdle database now with
      | (.error fault, after) => (.error fault, after)
      | (.ok (), after) => addIdles database now count after

/-- A pool with its least number of connections open. When one of them cannot be
opened, there is no pool. -/
def create (database : Database World) (config : PoolConfig) (now : Nat) (world : World) :
    Except Error Unit × Pool World :=
  let pool : Pool World := { config := config.normalized, world := world }
  match addIdles database now pool.config.minSize pool with
  | (.error fault, after) => (.error (.ofDatabase fault), after)
  | (.ok (), after) => (.ok (), after)

/-! ### Acquiring -/

def lease (connection : ConnectionId) (pool : Pool World) : LeaseId × Pool World :=
  (pool.nextLease, { pool with
    leased := pool.leased ++ [(pool.nextLease, connection)]
    nextLease := pool.nextLease + 1 })

def takeIdle? (pool : Pool World) : Option (ConnectionId × Pool World) :=
  match pool.idle.getLast? with
  | none => none
  | some entry => some (entry.connection, { pool with idle := pool.idle.dropLast })

/-- Hands out the connection released last, or a new one while there is room for it.
A pool without either is exhausted: nobody else acts while the caller waits. -/
def acquire (database : Database World) (pool : Pool World) :
    Except Error LeaseId × Pool World :=
  if pool.isClosed then (.error .poolClosed, pool)
  else
    match pool.takeIdle? with
    | some (connection, rest) =>
        let (lease, after) := ({ rest with inUse := rest.inUse + 1 } : Pool World).lease connection
        (.ok lease, after)
    | none =>
        if pool.openCount < pool.config.maxSize then
          match pool.connect database with
          | (.error fault, after) => (.error (.ofDatabase fault), after)
          | (.ok connection, after) =>
              let counted := { after with
                openCount := after.openCount + 1
                inUse := after.inUse + 1 }
              let (lease, leased) := Pool.lease connection counted
              (.ok lease, leased)
        else (.error .poolExhausted, pool)

/-! ### Releasing -/

def takeLeased? (lease : LeaseId) (pool : Pool World) : Option (ConnectionId × Pool World) :=
  match pool.leased.lookup lease with
  | none => none
  | some connection =>
      some (connection, { pool with
        leased := pool.leased.filter fun entry => entry.1 != lease })

/-- Keeps the least number of connections open after one was discarded. -/
def replenish (database : Database World) (now : Nat) (pool : Pool World) : Pool World :=
  if !pool.isClosed && pool.openCount < pool.config.minSize then
    (pool.addIdle database now).2
  else pool

/-- Gives the connection of a lease back. A lease that has none left changes nothing. -/
def release (database : Database World) (now : Nat) (lease : LeaseId) (pool : Pool World) :
    Pool World :=
  match pool.takeLeased? lease with
  | none => pool
  | some (connection, taken) =>
      let (valid, checked) :=
        if taken.isClosed then (false, taken)
        else
          let (answer, world) := database.isValid connection taken.world
          (answer, { taken with world := world })
      let returned := { checked with inUse := checked.inUse - 1 }
      if valid then { returned with idle := returned.idle ++ [⟨connection, now⟩] }
      else
        let discarded := { returned with
          openCount := returned.openCount - 1
          totalClosed := returned.totalClosed + 1 }
        replenish database now (close database connection discarded)

/-! ### Maintenance and shutdown -/

def isStale (pool : Pool World) (now : Nat) (entry : IdleConnection) : Bool :=
  pool.config.idleTimeout ≤ now - entry.releasedAt

/-- How many connections at the front of the idle queue are to be closed: those that
waited too long, as long as the least number stays open. -/
def expiredCount (pool : Pool World) (now : Nat) : Nat :=
  min (pool.openCount - pool.config.minSize) (pool.idle.takeWhile (pool.isStale now)).length

def maintain (database : Database World) (now : Nat) (pool : Pool World) : Pool World :=
  let count := pool.expiredCount now
  let expired := pool.idle.take count
  closeAll database (expired.map IdleConnection.connection) { pool with
    idle := pool.idle.drop count
    openCount := pool.openCount - expired.length
    totalClosed := pool.totalClosed + expired.length }

/-- Closes the pool: idle connections first, then, as nobody gives them back in time,
those still leased. A second shutdown changes nothing. -/
def shutdown (database : Database World) (pool : Pool World) : Pool World :=
  if pool.isClosed then pool
  else
    let waiting := pool.idle.map IdleConnection.connection
    let drained := closeAll database waiting { pool with
      isClosed := true
      idle := []
      openCount := pool.openCount - waiting.length
      totalClosed := pool.totalClosed + waiting.length }
    -- Leases keep their numbers, but a call on one of them finds no connection any more.
    let overdue := drained.leased.map Prod.snd
    closeAll database overdue { drained with
      leased := []
      inUse := drained.inUse - overdue.length
      openCount := drained.openCount - overdue.length
      totalClosed := drained.totalClosed + overdue.length }

/-! ### Descriptions -/

def describeCounters (counters : PoolCounters) : String :=
  "PoolStats \x7b open: " ++ toString counters.openCount ++ ", idle: "
    ++ toString counters.idle ++ ", in_use: " ++ toString counters.inUse
    ++ ", total_created: " ++ toString counters.totalCreated
    ++ ", total_closed: " ++ toString counters.totalClosed ++ " \x7d"

def describe (database : Database World) (pool : Pool World) : String :=
  "ConnectionPool \x7b target: " ++ Text.quoted database.description ++ ", stats: "
    ++ describeCounters pool.counters ++ " \x7d"

def describeLease (database : Database World) (pool : Pool World) (lease : LeaseId) : String :=
  "PooledConnection \x7b lease: " ++ toString lease ++ ", in_transaction: "
    ++ toString (pool.inTransaction database lease) ++ " \x7d"

end Pool

end EntityStore
