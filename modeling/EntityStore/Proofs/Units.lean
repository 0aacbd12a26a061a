/-
How units of work end. All that can happen in a unit is said once, path by path: work
outside a transaction is bracketed by begin and commit and is rolled back when anything
fails, and work inside a transaction ends the transaction when it fails. It is said for work
that does anything to the world of its connection, and then for work that asks the connection.
-/

import EntityStore.Proofs.Calls
import EntityStore.Proofs.Pools
import EntityStore.Store.Unit

set_option autoImplicit false

namespace EntityStore
namespace Store

variable {World α β : Type}

/-! ### On the connection of a lease -/

def released (session : Session World) (lease : LeaseId) (store : Store World) : Store World :=
  { store with pool := store.pool.release session.database store.clock lease }

theorem run_release {session : Session World} (lease : LeaseId) (store : Store World) :
    (release session lease).run store = (.ok (), store.released session lease) := rfl

theorem run_call_held {lease : LeaseId} {connection : ConnectionId}
    {request : ConnectionId → Call World β} {store : Store World}
    (held : store.pool.leased.lookup lease = some connection) :
    (call lease request).run store =
      ((request connection store.pool.world).1.mapError Error.ofDatabase,
        store.withWorld (request connection store.pool.world).2) := by
  rw [run_call]
  simp only [Pool.callLease, held]
  rfl

theorem run_rollbackQuietly {session : Session World} {lease : LeaseId}
    {connection : ConnectionId} {store : Store World}
    (held : store.pool.leased.lookup lease = some connection) :
    (rollbackQuietly session lease).run store =
      (.ok (), store.withWorld (session.database.rollback connection store.pool.world).2) := by
  unfold rollbackQuietly
  rw [run_bind, run_attempt, run_call_held held]
  rfl

/-- The operation changes nothing but the world behind the pool, in the way that is said for the
connection of the lease. -/
def Performs (lease : LeaseId) (operation : Operation World α)
    (does : ConnectionId → World → Except Error α → World → Prop) : Prop :=
  ∀ (store : Store World) (connection : ConnectionId),
    store.pool.leased.lookup lease = some connection →
    ∃ outcome world, operation.run store = (outcome, store.withWorld world) ∧
      does connection store.pool.world outcome world

section Performs

variable {lease : LeaseId} {does : ConnectionId → World → Except Error α → World → Prop}

theorem Performs.weaken {operation : Operation World α}
    {weak : ConnectionId → World → Except Error α → World → Prop}
    (performs : Performs lease operation does)
    (weaker : ∀ connection before outcome after,
      does connection before outcome after → weak connection before outcome after) :
    Performs lease operation weak := by
  intro store connection held
  obtain ⟨outcome, world, ran, done⟩ := performs store connection held
  exact ⟨outcome, world, ran, weaker _ _ _ _ done⟩

theorem performs_pure {result : α}
    (done : ∀ connection world, does connection world (.ok result) world) :
    Performs lease (pure result) does :=
  fun store connection _ => ⟨.ok result, store.pool.world, rfl, done connection _⟩

theorem performs_settleOutcome {outcome : Except Error α}
    (done : ∀ connection world, does connection world outcome world) :
    Performs lease (settleOutcome outcome) does :=
  fun store connection _ =>
    ⟨outcome, store.pool.world, run_settleOutcome outcome store, done connection _⟩

theorem performs_call {request : ConnectionId → Call World α}
    (done : ∀ connection world, does connection world
      ((request connection world).1.mapError Error.ofDatabase) (request connection world).2) :
    Performs lease (call lease request) does :=
  fun store connection held => ⟨_, _, run_call_held held, done connection store.pool.world⟩

/-- The rule for sequences: the second part begins in the world that the first one leaves. -/
theorem performs_bind {operation : Operation World α} {next : α → Operation World β}
    {later : α → ConnectionId → World → Except Error β → World → Prop}
    {whole : ConnectionId → World → Except Error β → World → Prop}
    (performs : Performs lease operation does)
    (performsLater : ∀ result, Performs lease (next result) (later result))
    (failed : ∀ connection before error after, does connection before (.error error) after →
      whole connection before (.error error) after)
    (went : ∀ connection before result between outcome after,
      does connection before (.ok result) between →
      later result connection between outcome after → whole connection before outcome after) :
    Performs lease (operation >>= next) whole := by
  intro store connection held
  obtain ⟨outcome, between, ran, done⟩ := performs store connection held
  cases outcome with
  | error error =>
      refine ⟨.error error, between, ?_, failed _ _ _ _ done⟩
      rw [run_bind, ran]
  | ok result =>
      obtain ⟨final, world, ranLater, doneLater⟩ :=
        performsLater result (store.withWorld between) connection held
      refine ⟨final, world, ?_, went _ _ _ _ _ _ done doneLater⟩
      rw [run_bind, ran]
      exact ranLater

end Performs

/-! ### The paths of a unit -/

inductive BracketRuns (database : Database World) (connection : ConnectionId)
    (does : World → Except Error α → World → Prop) :
    Bool → World → Except Error α → World → Prop where
  | plain {world after : World} {outcome : Except Error α} : does world outcome after →
      BracketRuns database connection does false world outcome after
  | notBegun {world after : World} {fault : DatabaseError} :
      database.begin connection world = (.error fault, after) →
      BracketRuns database connection does true world (.error (.ofDatabase fault)) after
  | failed {world begun worked after : World} {error : Error}
      {outcome : Except DatabaseError Unit} :
      database.begin connection world = (.ok (), begun) → does begun (.error error) worked →
      database.rollback connection worked = (outcome, after) →
      BracketRuns database connection does true world (.error error) after
  | notCommitted {world begun worked refused after : World} {result : α} {fault : DatabaseError}
      {outcome : Except DatabaseError Unit} :
      database.begin connection world = (.ok (), begun) → does begun (.ok result) worked →
      database.commit connection worked = (.error fault, refused) →
      database.rollback connection refused = (outcome, after) →
      BracketRuns database connection does true world (.error (.ofDatabase fault)) after
  | committed {world begun worked after : World} {result : α} :
      database.begin connection world = (.ok (), begun) → does begun (.ok result) worked →
      database.commit connection worked = (.ok (), after) →
      BracketRuns database connection does true world (.ok result) after

/-- The store after the writes of a unit outside a transaction took effect on the cache
and on collections. -/
def written (writes : WriteSet) (generation : Nat) (store : Store World) : Store World :=
  { store with cache := writes.apply generation store.cache }.invalidateOwners writes.owners

inductive UnitRuns (session : Session World) (transactional : Bool)
    (does : ConnectionId → World → Except Error (α × WriteSet) → World → Prop)
    (store : Store World) : Except Error α → Store World → Prop where
  | closed : store.isOpen = false →
      UnitRuns session transactional does store (.error .storeClosed) store
  /-- Inside a transaction the effects are recorded. -/
  | recorded {transaction : Transaction} {connection : ConnectionId} {world : World} {result : α}
      {writes : WriteSet} :
      store.isOpen = true → store.transaction? session.thread = some transaction →
      store.pool.leased.lookup transaction.lease = some connection →
      does connection store.pool.world (.ok (result, writes)) world →
      UnitRuns session transactional does store (.ok result)
        (recordWrites session.thread writes (store.withWorld world))
  /-- A failure inside a transaction ends the transaction. -/
  | aborted {transaction : Transaction} {connection : ConnectionId} {worked world : World}
      {error : Error} {outcome : Except DatabaseError Unit} :
      store.isOpen = true → store.transaction? session.thread = some transaction →
      store.pool.leased.lookup transaction.lease = some connection →
      does connection store.pool.world (.error error) worked →
      session.database.rollback connection worked = (outcome, world) →
      UnitRuns session transactional does store (.error error)
        ((restoreInstances transaction
          ((store.withWorld world).dropTransaction session.thread)).released session
            transaction.lease)
  | unconnected {pool : Pool World} {error : Error} :
      store.isOpen = true → store.transaction? session.thread = none →
      store.pool.acquire session.database = (.error error, pool) →
      UnitRuns session transactional does store (.error error) { store with pool := pool }
  /-- Outside a transaction the effects are applied at once. -/
  | applied {pool : Pool World} {lease : LeaseId} {connection : ConnectionId} {world : World}
      {result : α} {writes : WriteSet} :
      store.isOpen = true → store.transaction? session.thread = none →
      store.pool.acquire session.database = (.ok lease, pool) →
      pool.leased.lookup lease = some connection →
      BracketRuns session.database connection (does connection) transactional pool.world
        (.ok (result, writes)) world →
      UnitRuns session transactional does store (.ok result)
        ((written writes store.cache.generation
          { store with pool := { pool with world := world } }).released session lease)
  | failed {pool : Pool World} {lease : LeaseId} {connection : ConnectionId} {world : World}
      {error : Error} :
      store.isOpen = true → store.transaction? session.thread = none →
      store.pool.acquire session.database = (.ok lease, pool) →
      pool.leased.lookup lease = some connection →
      BracketRuns session.database connection (does connection) transactional pool.world
        (.error error) world →
      UnitRuns session transactional does store (.error error)
        ({ store with pool := { pool with world := world } }.released session lease)

theorem run_ensureOpen (store : Store World) :
    ensureOpen.run store = if store.isOpen then (.ok (), store) else (.error .storeClosed, store) := by
  unfold ensureOpen
  rw [run_bind, run_get]
  cases isOpen : store.isOpen <;> simp only [isOpen, Bool.not_true, Bool.not_false] <;> rfl

theorem run_acquire {session : Session World} (store : Store World) :
    (acquire session).run store =
      ((store.pool.acquire session.database).1,
        { store with pool := (store.pool.acquire session.database).2 }) := by
  unfold acquire
  rw [run_bind, run_get]
  simp only
  rw [run_bind, run_set]
  simp only
  rw [run_settleOutcome]

section Units

variable {session : Session World} {store : Store World} {work : Work World α}
  {does : ConnectionId → World → Except Error (α × WriteSet) → World → Prop}

private theorem performs_bracket (transactional : Bool) {lease : LeaseId}
    (performs : Performs lease (work lease) does) :
    Performs lease (bracket session transactional lease work)
      fun connection before outcome after => BracketRuns session.database connection
        (does connection) transactional before outcome after := by
  intro store connection held
  unfold bracket
  cases transactional with
  | false =>
      obtain ⟨outcome, world, ran, done⟩ := performs store connection held
      exact ⟨outcome, world, ran, .plain done⟩
  | true =>
      simp only [↓reduceIte]
      rw [run_bind, run_call_held held]
      rcases begins : session.database.begin connection store.pool.world with ⟨begun, world⟩
      cases begun with
      | error fault => exact ⟨_, world, rfl, .notBegun begins⟩
      | ok _ =>
          simp only [Except.mapError]
          obtain ⟨outcome, worked, ran, done⟩ := performs (store.withWorld world) connection held
          rw [run_bind, run_attempt, ran]
          simp only [withWorld_withWorld]
          have heldWorked : (store.withWorld worked).pool.leased.lookup lease = some connection :=
            held
          cases outcome with
          | error error =>
              simp only
              rw [run_bind, run_rollbackQuietly heldWorked]
              exact ⟨_, _, rfl, .failed begins done rfl⟩
          | ok result =>
              simp only
              rw [run_bind, run_attempt, run_call_held heldWorked]
              rcases commits : session.database.commit connection worked with ⟨committed, after⟩
              have commits' : session.database.commit connection
                  (store.withWorld worked).pool.world = (committed, after) := commits
              rw [commits']
              cases committed with
              | error fault =>
                  simp only [Except.mapError, withWorld_withWorld]
                  have heldAfter : (store.withWorld after).pool.leased.lookup lease
                      = some connection := held
                  rw [run_bind, run_rollbackQuietly heldAfter]
                  exact ⟨_, _, rfl, .notCommitted begins done commits rfl⟩
              | ok _ => exact ⟨_, _, rfl, .committed begins done commits⟩

variable {transactional : Bool}

private theorem runs_unitInside {transaction : Transaction} {connection : ConnectionId}
    (performs : Performs transaction.lease (work transaction.lease) does)
    (isOpen : store.isOpen = true)
    (inside : store.transaction? session.thread = some transaction)
    (held : store.pool.leased.lookup transaction.lease = some connection) :
    Ensures (unitInside session transaction work) store
      (UnitRuns session transactional does store) := by
  obtain ⟨outcome, worked, ran, done⟩ := performs store connection held
  unfold Ensures unitInside
  rw [run_bind, run_attempt, ran]
  cases outcome with
  | ok result =>
      obtain ⟨result, writes⟩ := result
      exact .recorded isOpen inside held done
  | error error =>
      simp only
      rw [run_bind, run_modify]
      simp only
      have heldAfter : ((store.withWorld worked).dropTransaction session.thread).pool.leased.lookup
          transaction.lease = some connection := held
      rw [run_bind, run_rollbackQuietly heldAfter]
      exact .aborted isOpen inside held done rfl

private theorem runs_unitOutside (performs : ∀ lease, Performs lease (work lease) does)
    (isOpen : store.isOpen = true) (outside : store.transaction? session.thread = none) :
    Ensures (unitOutside session transactional work) store
      (UnitRuns session transactional does store) := by
  unfold Ensures unitOutside
  rw [run_bind, run_get]
  simp only
  rw [run_bind, run_acquire]
  rcases acquired : store.pool.acquire session.database with ⟨outcome, pool⟩
  cases outcome with
  | error error => exact .unconnected isOpen outside acquired
  | ok lease =>
      simp only
      obtain ⟨connection, held⟩ := Pool.lookup_leased_of_acquire acquired
      obtain ⟨outcome, world, ran, bracketed⟩ :=
        @performs_bracket _ _ session _ _ transactional _ (performs lease)
          { store with pool := pool } _ held
      rw [run_bind, run_attempt, ran]
      cases outcome with
      | ok result =>
          obtain ⟨result, writes⟩ := result
          exact .applied isOpen outside acquired held bracketed
      | error error => exact .failed isOpen outside acquired held bracketed

/-- Everything that can happen in a unit. -/
theorem runs_unit (performs : ∀ lease, Performs lease (work lease) does)
    (leased : ∀ transaction, store.transaction? session.thread = some transaction →
      ∃ connection, store.pool.leased.lookup transaction.lease = some connection) :
    Ensures (unit session transactional work) store
      (UnitRuns session transactional does store) := by
  unfold unit
  apply ensures_bind
  unfold Ensures
  rw [run_ensureOpen]
  cases isOpen : store.isOpen with
  | false => exact .closed isOpen
  | true =>
      simp only [↓reduceIte]
      apply ensures_bind
      unfold Ensures
      rw [run_get]
      simp only
      cases inside : store.transaction? session.thread with
      | none => exact runs_unitOutside performs isOpen inside
      | some transaction =>
          obtain ⟨connection, held⟩ := leased transaction inside
          exact runs_unitInside (performs transaction.lease) isOpen inside held

end Units

end Store

/-! ### Units whose work asks -/

inductive Bracketed {World α : Type} (database : Database World) (issued : Question → Prop)
    (connection : ConnectionId) (gives : α × WriteSet → List Event → Prop) :
    Bool → World → Except Error (α × WriteSet) → World → Prop where
  | done {world after : World} {log : List Event} {result : α × WriteSet} :
      Asked database issued connection world log after → gives result log →
      Bracketed database issued connection gives false world (.ok result) after
  | undone {world after : World} {log : List Event} {error : Error} :
      Asked database issued connection world log after →
      Bracketed database issued connection gives false world (.error error) after
  | notBegun {world after : World} {fault : DatabaseError} :
      database.begin connection world = (.error fault, after) →
      Bracketed database issued connection gives true world (.error (.ofDatabase fault)) after
  | failed {world begun worked after : World} {log : List Event} {error : Error}
      {outcome : Except DatabaseError Unit} :
      database.begin connection world = (.ok (), begun) →
      Asked database issued connection begun log worked →
      database.rollback connection worked = (outcome, after) →
      Bracketed database issued connection gives true world (.error error) after
  | notCommitted {world begun worked refused after : World} {log : List Event}
      {fault : DatabaseError} {outcome : Except DatabaseError Unit} :
      database.begin connection world = (.ok (), begun) →
      Asked database issued connection begun log worked →
      database.commit connection worked = (.error fault, refused) →
      database.rollback connection refused = (outcome, after) →
      Bracketed database issued connection gives true world (.error (.ofDatabase fault)) after
  | committed {world begun worked after : World} {log : List Event} {result : α × WriteSet} :
      database.begin connection world = (.ok (), begun) →
      Asked database issued connection begun log worked → gives result log →
      database.commit connection worked = (.ok (), after) →
      Bracketed database issued connection gives true world (.ok result) after

namespace Store

variable {World α : Type} {session : Session World} {issued : Question → Prop}
  {gives : α × WriteSet → List Event → Prop}

inductive UnitEnds (session : Session World) (issued : Question → Prop) (transactional : Bool)
    (gives : α × WriteSet → List Event → Prop) (store : Store World) :
    Except Error α → Store World → Prop where
  | closed : store.isOpen = false →
      UnitEnds session issued transactional gives store (.error .storeClosed) store
  /-- Inside a transaction the effects are recorded. -/
  | recorded {transaction : Transaction} {connection : ConnectionId} {world : World}
      {log : List Event} {result : α} {writes : WriteSet} :
      store.isOpen = true → store.transaction? session.thread = some transaction →
      store.pool.leased.lookup transaction.lease = some connection →
      Asked session.database issued connection store.pool.world log world →
      gives (result, writes) log →
      UnitEnds session issued transactional gives store (.ok result)
        (recordWrites session.thread writes (store.withWorld world))
  /-- A failure inside a transaction ends the transaction. -/
  | aborted {transaction : Transaction} {connection : ConnectionId} {worked world : World}
      {log : List Event} {error : Error} {outcome : Except DatabaseError Unit} :
      store.isOpen = true → store.transaction? session.thread = some transaction →
      store.pool.leased.lookup transaction.lease = some connection →
      Asked session.database issued connection store.pool.world log worked →
      session.database.rollback connection worked = (outcome, world) →
      UnitEnds session issued transactional gives store (.error error)
        ((restoreInstances transaction
          ((store.withWorld world).dropTransaction session.thread)).released session
            transaction.lease)
  | unconnected {pool : Pool World} {error : Error} :
      store.isOpen = true → store.transaction? session.thread = none →
      store.pool.acquire session.database = (.error error, pool) →
      UnitEnds session issued transactional gives store (.error error) { store with pool := pool }
  /-- Outside a transaction the effects are applied at once. -/
  | applied {pool : Pool World} {lease : LeaseId} {connection : ConnectionId} {world : World}
      {result : α} {writes : WriteSet} :
      store.isOpen = true → store.transaction? session.thread = none →
      store.pool.acquire session.database = (.ok lease, pool) →
      pool.leased.lookup lease = some connection →
      Bracketed session.database issued connection gives transactional pool.world
        (.ok (result, writes)) world →
      UnitEnds session issued transactional gives store (.ok result)
        ((written writes store.cache.generation
          { store with pool := { pool with world := world } }).released session lease)
  | failed {pool : Pool World} {lease : LeaseId} {connection : ConnectionId} {world : World}
      {error : Error} :
      store.isOpen = true → store.transaction? session.thread = none →
      store.pool.acquire session.database = (.ok lease, pool) →
      pool.leased.lookup lease = some connection →
      Bracketed session.database issued connection gives transactional pool.world
        (.error error) world →
      UnitEnds session issued transactional gives store (.error error)
        ({ store with pool := { pool with world := world } }.released session lease)

def Answered {β : Type} (database : Database World) (issued : Question → Prop)
    (gives : β → List Event → Prop) (connection : ConnectionId) (before : World)
    (outcome : Except Error β) (after : World) : Prop :=
  ∃ log, Asked database issued connection before log after ∧
    ∀ result, outcome = .ok result → gives result log

theorem Asks.performs {β : Type} {database : Database World} {lease : LeaseId}
    {operation : Operation World β} {gives : β → List Event → Prop}
    (asks : Asks database issued lease operation gives) :
    Performs lease operation (Answered database issued gives) := by
  intro store connection held
  obtain ⟨outcome, world, log, ran, asked, given⟩ := asks store connection held
  exact ⟨outcome, world, ran, log, asked, given⟩

theorem BracketRuns.bracketed {database : Database World} {connection : ConnectionId}
    {transactional : Bool} {before after : World} {outcome : Except Error (α × WriteSet)}
    (runs : BracketRuns database connection (Answered database issued gives connection)
      transactional before outcome after) :
    Bracketed database issued connection gives transactional before outcome after := by
  cases runs with
  | plain done =>
      obtain ⟨log, asked, given⟩ := done
      cases outcome with
      | ok result => exact .done asked (given result rfl)
      | error error => exact .undone asked
  | notBegun begins => exact .notBegun begins
  | failed begins done rolledBack =>
      obtain ⟨log, asked, _⟩ := done
      exact .failed begins asked rolledBack
  | notCommitted begins done commits rolledBack =>
      obtain ⟨log, asked, _⟩ := done
      exact .notCommitted begins asked commits rolledBack
  | committed begins done commits =>
      obtain ⟨log, asked, given⟩ := done
      exact .committed begins asked (given _ rfl) commits

/-- Everything that can happen in a unit whose work only asks. -/
theorem ensures_unit {transactional : Bool} {work : Work World α} {store : Store World}
    (asks : ∀ lease, Asks session.database issued lease (work lease) gives)
    (leased : ∀ transaction, store.transaction? session.thread = some transaction →
      ∃ connection, store.pool.leased.lookup transaction.lease = some connection) :
    Ensures (unit session transactional work) store
      (UnitEnds session issued transactional gives store) := by
  refine (runs_unit (fun lease => (asks lease).performs) leased).weaken fun outcome after runs => ?_
  cases runs with
  | closed isClosed => exact .closed isClosed
  | recorded isOpen inside held done =>
      obtain ⟨log, asked, given⟩ := done
      exact .recorded isOpen inside held asked (given _ rfl)
  | aborted isOpen inside held done rolledBack =>
      obtain ⟨log, asked, _⟩ := done
      exact .aborted isOpen inside held asked rolledBack
  | unconnected isOpen outside acquired => exact .unconnected isOpen outside acquired
  | applied isOpen outside acquired held bracketed =>
      exact .applied isOpen outside acquired held bracketed.bracketed
  | failed isOpen outside acquired held bracketed =>
      exact .failed isOpen outside acquired held bracketed.bracketed

end Store

end EntityStore
