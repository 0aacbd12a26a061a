/-
A workbench: several stores over databases of one kind, whose instances are in one
memory, so that an instance of one store can be assigned to a property of another's.
Instances and leases are held by name.
-/

import EntityStore.Leases
import EntityStore.Store.Properties
import EntityStore.Store.Schema

set_option autoImplicit false

namespace EntityStore

/-- The first store is the main one; leases are of its pool. -/
structure Workbench (World : Type) where
  database : Database World
  stores : List (Dialect × Store World)
  memory : Array Instance := #[]
  /-- The thread that acts, and how many there have been. -/
  thread : ThreadId := 0
  threads : Nat := 1
  bindings : List (String × InstanceId) := []
  held : List (String × LeaseId) := []

namespace Workbench

variable {World : Type}

abbrev Action (World : Type) (α : Type) := StateM (Workbench World) α

def instanceAt (bench : Workbench World) (subject : InstanceId) : Instance :=
  (bench.memory[subject]?).getD Instance.absent

def subject? (bench : Workbench World) (name : String) : Option InstanceId :=
  bench.bindings.lookup name

def summary (bench : Workbench World) (subject : InstanceId) : String :=
  (bench.instanceAt subject).summary

def summaries (bench : Workbench World) : List (String × String) :=
  bench.bindings.map fun entry => (entry.1, bench.summary entry.2)

def name (name : String) (subject : InstanceId) (bench : Workbench World) : Workbench World :=
  { bench with bindings := Row.place name subject bench.bindings }

/-- Names the members of a list by their numbers. -/
def nameAll (base : String) (subjects : List InstanceId) (bench : Workbench World) :
    Workbench World :=
  subjects.zipIdx.foldl (fun current entry =>
    current.name (base ++ "." ++ toString entry.2) entry.1) bench

def forget (name : String) (bench : Workbench World) : Workbench World :=
  { bench with bindings := bench.bindings.filter fun entry => entry.1 != name }

def onStore {α : Type} (index : StoreId) (operation : Session World → Operation World α) :
    Action World (Except Error α) := do
  let bench ← get
  match bench.stores[index]? with
  | none => return .error .storeClosed
  | some (dialect, store) =>
      let session : Session World :=
        { database := bench.database, dialect := dialect, thread := bench.thread }
      let (outcome, after) := (operation session).run { store with memory := bench.memory }
      set { bench with
        stores := bench.stores.set index (dialect, { after with memory := #[] })
        memory := after.memory }
      return outcome

def addStore (dialect : Dialect) (world : World) (batch : List Definition) :
    Action World (Except Error StoreId) := do
  let bench ← get
  let index := bench.stores.length
  match (Store.create bench.database {} index #[] world).1 with
  | .error error => return .error error
  | .ok store =>
      set { bench with stores := bench.stores ++ [(dialect, store)] }
      let defined ← onStore index fun _ => Store.define batch
      return defined.map fun _ => index

def changeMain (change : Store World → Store World) (bench : Workbench World) :
    Workbench World :=
  match bench.stores with
  | [] => bench
  | (dialect, store) :: rest => { bench with stores := (dialect, change store) :: rest }

def changeWorld (change : World → World) (bench : Workbench World) : Workbench World :=
  bench.changeMain fun store =>
    { store with pool := { store.pool with world := change store.pool.world } }

/-- Does something with the leases of the main store. -/
def onLeases {α : Type} (fallback : α) (act : Leases World → α × Leases World) :
    Action World α := do
  let bench ← get
  match bench.stores with
  | [] => return fallback
  | (_, store) :: _ =>
      let (result, after) := act { pool := store.pool, held := bench.held }
      set { bench.changeMain (fun store => { store with pool := after.pool }) with
        held := after.held }
      return result

/-- Goes on as a new thread. -/
def startThread (bench : Workbench World) : Workbench World :=
  { bench with thread := bench.threads, threads := bench.threads + 1 }

def switchThread (thread : ThreadId) (bench : Workbench World) : Workbench World :=
  { bench with thread := thread }

end Workbench

end EntityStore
