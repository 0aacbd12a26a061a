/-
Leases held by name. A name holds one lease; what it held before is given back once
the new one is there.
-/

import EntityStore.Pool

set_option autoImplicit false

namespace EntityStore

structure Leases (World : Type) where
  pool : Pool World
  held : List (String × LeaseId) := []

namespace Leases

variable {World : Type}

def lease? (leases : Leases World) (name : String) : Option LeaseId :=
  leases.held.lookup name

def drop (database : Database World) (name : String) (leases : Leases World) : Leases World :=
  match leases.lease? name with
  | none => leases
  | some lease =>
      { pool := leases.pool.release database 0 lease
        held := leases.held.filter fun entry => entry.1 != name }

/-- Holds what an acquisition gave; `pool` is the pool after it. -/
def hold (database : Database World) (name : String) (outcome : Except Error LeaseId)
    (pool : Pool World) (leases : Leases World) : Except Error Unit × Leases World :=
  match outcome with
  | .error error => (.error error, { leases with pool := pool })
  | .ok lease =>
      let freed := { leases with pool := pool }.drop database name
      (.ok (), { freed with held := freed.held ++ [(name, lease)] })

def acquire (database : Database World) (name : String) (leases : Leases World) :
    Except Error Unit × Leases World :=
  let (outcome, pool) := leases.pool.acquire database
  leases.hold database name outcome pool

/-- Acquires while somebody else gives a lease back: a pool that is exhausted at first
hands out what was given back. -/
def handover (database : Database World) (source name : String) (leases : Leases World) :
    Except Error Unit × Leases World :=
  match leases.pool.acquire database with
  | (.error .poolExhausted, _) => (leases.drop database source).acquire database name
  | (outcome, pool) =>
      let freed := { leases with pool := pool }.drop database source
      freed.hold database name outcome freed.pool

def dropAll (database : Database World) (leases : Leases World) : Leases World :=
  let names := (leases.held.map Prod.fst).mergeSort fun left right => !(right < left)
  names.foldl (fun current name => current.drop database name) leases

def onPool (change : Pool World → Pool World) (leases : Leases World) : Leases World :=
  { leases with pool := change leases.pool }

/-- Gives every lease back and closes the connections that have waited too long. -/
def idleOut (database : Database World) (leases : Leases World) : Leases World :=
  (leases.dropAll database).onPool (Pool.maintain database 0)

def call {α : Type} (lease : LeaseId) (request : ConnectionId → Call World α)
    (leases : Leases World) : Except DatabaseError α × Leases World :=
  let (outcome, pool) := leases.pool.callLease lease request
  (outcome, { leases with pool := pool })

end Leases

end EntityStore
