/-
How transactions begin and end. As for units of work, everything that can happen is said
once, path by path; closing the store abandons the transactions that are open and shuts
the pool down.
-/

import EntityStore.Proofs.Units

set_option autoImplicit false

namespace EntityStore
namespace Store

variable {World : Type}

inductive BeginEnds (session : Session World) (store : Store World) :
    Except Error Unit → Store World → Prop where
  | closed : store.isOpen = false → BeginEnds session store (.error .storeClosed) store
  | alreadyOpen : store.isOpen = true → store.inTransaction session.thread = true →
      BeginEnds session store (.error (.transaction .alreadyOpen)) store
  | unconnected {pool : Pool World} {error : Error} :
      store.isOpen = true → store.transaction? session.thread = none →
      store.pool.acquire session.database = (.error error, pool) →
      BeginEnds session store (.error error) { store with pool := pool }
  | begun {pool : Pool World} {lease : LeaseId} {connection : ConnectionId} {world : World} :
      store.isOpen = true → store.transaction? session.thread = none →
      store.pool.acquire session.database = (.ok lease, pool) →
      pool.leased.lookup lease = some connection →
      session.database.begin connection pool.world = (.ok (), world) →
      BeginEnds session store (.ok ()) (setTransaction session.thread { lease := lease }
        { store with pool := { pool with world := world } })
  | refused {pool : Pool World} {lease : LeaseId} {connection : ConnectionId} {world : World}
      {fault : DatabaseError} :
      store.isOpen = true → store.transaction? session.thread = none →
      store.pool.acquire session.database = (.ok lease, pool) →
      pool.leased.lookup lease = some connection →
      session.database.begin connection pool.world = (.error fault, world) →
      BeginEnds session store (.error (.ofDatabase fault))
        ({ store with pool := { pool with world := world } }.released session lease)

inductive CommitEnds (session : Session World) (store : Store World) :
    Except Error Unit → Store World → Prop where
  | closed : store.isOpen = false → CommitEnds session store (.error .storeClosed) store
  | notOpen : store.isOpen = true → store.transaction? session.thread = none →
      CommitEnds session store (.error (.transaction .notOpen)) store
  | committed {transaction : Transaction} {connection : ConnectionId} {world : World} :
      store.isOpen = true → store.transaction? session.thread = some transaction →
      store.pool.leased.lookup transaction.lease = some connection →
      session.database.commit connection store.pool.world = (.ok (), world) →
      CommitEnds session store (.ok ())
        ((written transaction.writes store.cache.generation
          ((store.dropTransaction session.thread).withWorld world)).released session
            transaction.lease)
  | refused {transaction : Transaction} {connection : ConnectionId} {refused world : World}
      {fault : DatabaseError} {outcome : Except DatabaseError Unit} :
      store.isOpen = true → store.transaction? session.thread = some transaction →
      store.pool.leased.lookup transaction.lease = some connection →
      session.database.commit connection store.pool.world = (.error fault, refused) →
      session.database.rollback connection refused = (outcome, world) →
      CommitEnds session store (.error (.ofDatabase fault))
        ((invalidateOwners transaction.writes.owners (restoreInstances transaction
          ((store.dropTransaction session.thread).withWorld world))).released session
            transaction.lease)

inductive RollbackEnds (session : Session World) (store : Store World) :
    Except Error Unit → Store World → Prop where
  | closed : store.isOpen = false → RollbackEnds session store (.error .storeClosed) store
  | notOpen : store.isOpen = true → store.transaction? session.thread = none →
      RollbackEnds session store (.error (.transaction .notOpen)) store
  | rolledBack {transaction : Transaction} {connection : ConnectionId} {world : World}
      {outcome : Except DatabaseError Unit} :
      store.isOpen = true → store.transaction? session.thread = some transaction →
      store.pool.leased.lookup transaction.lease = some connection →
      session.database.rollback connection store.pool.world = (outcome, world) →
      RollbackEnds session store (outcome.mapError Error.ofDatabase)
        ((invalidateOwners transaction.writes.owners (restoreInstances transaction
          ((store.dropTransaction session.thread).withWorld world))).released session
            transaction.lease)

/-- What rolling back quietly makes of the world: a lease without connection does nothing. -/
inductive Reverts (session : Session World) (lease : LeaseId) (store : Store World) :
    World → Prop where
  | held {connection : ConnectionId} {world : World} {outcome : Except DatabaseError Unit} :
      store.pool.leased.lookup lease = some connection →
      session.database.rollback connection store.pool.world = (outcome, world) →
      Reverts session lease store world
  | gone : store.pool.leased.lookup lease = none → Reverts session lease store store.pool.world

inductive Abandoned (session : Session World) :
    List Transaction → Store World → Store World → Prop where
  | nil (store : Store World) : Abandoned session [] store store
  | cons {transaction : Transaction} {rest : List Transaction} {store after : Store World}
      {world : World} :
      Reverts session transaction.lease store world →
      Abandoned session rest
        ((restoreInstances transaction (store.withWorld world)).released session
          transaction.lease) after →
      Abandoned session (transaction :: rest) store after

def shut (session : Session World) (store : Store World) : Store World :=
  { store with
    pool := store.pool.shutdown session.database
    cache := store.cache.clear
    owners := [] }

inductive CloseEnds (session : Session World) (store : Store World) : Store World → Prop where
  | again : store.isOpen = false → CloseEnds session store store
  | closed {between : Store World} : store.isOpen = true →
      Abandoned session (store.transactions.map Prod.snd)
        { store with isOpen := false, transactions := [] } between →
      CloseEnds session store (between.shut session)

variable {session : Session World} {store : Store World}

private theorem run_takeTransaction {transaction : Transaction} (isOpen : store.isOpen = true)
    (inside : store.transaction? session.thread = some transaction) :
    (takeTransaction session).run store =
      (.ok transaction, store.dropTransaction session.thread) := by
  unfold takeTransaction
  rw [run_bind, run_ensureOpen, isOpen]
  simp only [↓reduceIte]
  rw [run_bind, run_get]
  simp only [inside]
  rw [run_bind, run_modify]
  rfl

private theorem run_takeTransaction_none (isOpen : store.isOpen = true)
    (outside : store.transaction? session.thread = none) :
    (takeTransaction session).run store = (.error (.transaction .notOpen), store) := by
  unfold takeTransaction
  rw [run_bind, run_ensureOpen, isOpen]
  simp only [↓reduceIte]
  rw [run_bind, run_get]
  simp only [outside]
  rfl

private theorem run_takeTransaction_closed (isClosed : store.isOpen = false) :
    (takeTransaction session).run store = (.error .storeClosed, store) := by
  unfold takeTransaction
  rw [run_bind, run_ensureOpen, isClosed]
  rfl

theorem ensures_beginTransaction (session : Session World) (store : Store World) :
    Ensures (beginTransaction session) store (BeginEnds session store) := by
  unfold Ensures beginTransaction
  rw [run_bind, run_ensureOpen]
  cases isOpen : store.isOpen with
  | false => exact .closed isOpen
  | true =>
      simp only [↓reduceIte]
      rw [run_bind, run_get]
      simp only
      cases inside : store.transaction? session.thread with
      | some transaction =>
          have already : store.inTransaction session.thread = true := by
            unfold inTransaction
            rw [inside]
            rfl
          simp only [already, ↓reduceIte]
          rw [run_bind, run_throw]
          exact .alreadyOpen isOpen already
      | none =>
          have free : store.inTransaction session.thread = false := by
            unfold inTransaction
            rw [inside]
            rfl
          simp only [free, Bool.false_eq_true, ↓reduceIte]
          rw [run_bind, run_acquire]
          rcases acquired : store.pool.acquire session.database with ⟨outcome, pool⟩
          cases outcome with
          | error error => exact .unconnected isOpen inside acquired
          | ok lease =>
              simp only
              obtain ⟨connection, held⟩ := Pool.lookup_leased_of_acquire acquired
              have called : (call lease session.database.begin).run { store with pool := pool } = _ :=
                run_call_held held
              rw [run_bind, run_attempt, called]
              rcases begins : session.database.begin connection pool.world with ⟨begun, world⟩
              cases begun with
              | ok _ => exact .begun isOpen inside acquired held begins
              | error fault => exact .refused isOpen inside acquired held begins

theorem ensures_commitTransaction
    (leased : ∀ transaction, store.transaction? session.thread = some transaction →
      ∃ connection, store.pool.leased.lookup transaction.lease = some connection) :
    Ensures (commitTransaction session) store (CommitEnds session store) := by
  unfold Ensures commitTransaction
  rw [run_bind]
  cases isOpen : store.isOpen with
  | false =>
      rw [run_takeTransaction_closed isOpen]
      exact .closed isOpen
  | true =>
      cases inside : store.transaction? session.thread with
      | none =>
          rw [run_takeTransaction_none isOpen inside]
          exact .notOpen isOpen inside
      | some transaction =>
          obtain ⟨connection, held⟩ := leased transaction inside
          rw [run_takeTransaction isOpen inside]
          simp only
          have heldTaken : (store.dropTransaction session.thread).pool.leased.lookup
              transaction.lease = some connection := held
          rw [run_bind, run_attempt, run_call_held heldTaken]
          rcases commits : session.database.commit connection store.pool.world
            with ⟨committed, world⟩
          have commits' : session.database.commit connection
              (store.dropTransaction session.thread).pool.world = (committed, world) := commits
          rw [commits']
          cases committed with
          | ok _ => exact .committed isOpen inside held commits
          | error fault =>
              simp only [Except.mapError]
              have heldRefused : ((store.dropTransaction session.thread).withWorld world).pool.leased.lookup
                  transaction.lease = some connection := held
              rw [run_bind, run_rollbackQuietly heldRefused]
              exact .refused isOpen inside held commits rfl

theorem ensures_rollbackTransaction
    (leased : ∀ transaction, store.transaction? session.thread = some transaction →
      ∃ connection, store.pool.leased.lookup transaction.lease = some connection) :
    Ensures (rollbackTransaction session) store (RollbackEnds session store) := by
  unfold Ensures rollbackTransaction
  rw [run_bind]
  cases isOpen : store.isOpen with
  | false =>
      rw [run_takeTransaction_closed isOpen]
      exact .closed isOpen
  | true =>
      cases inside : store.transaction? session.thread with
      | none =>
          rw [run_takeTransaction_none isOpen inside]
          exact .notOpen isOpen inside
      | some transaction =>
          obtain ⟨connection, held⟩ := leased transaction inside
          rw [run_takeTransaction isOpen inside]
          simp only
          have heldTaken : (store.dropTransaction session.thread).pool.leased.lookup
              transaction.lease = some connection := held
          rw [run_bind, run_attempt, run_call_held heldTaken]
          simp only
          rw [run_bind, run_modify]
          simp only
          rw [run_bind, run_modify]
          simp only
          rw [run_bind, run_release]
          simp only
          rw [run_settleOutcome]
          exact .rolledBack isOpen inside held rfl

/-! ### Closing -/

private theorem run_abandon (session : Session World) (transaction : Transaction)
    (store : Store World) :
    ∃ world, Reverts session transaction.lease store world ∧
      (abandon session transaction).run store = (.ok (),
        (restoreInstances transaction (store.withWorld world)).released session
          transaction.lease) := by
  unfold abandon
  rw [run_bind]
  cases held : store.pool.leased.lookup transaction.lease with
  | some connection =>
      rw [run_rollbackQuietly held]
      exact ⟨_, .held held rfl, rfl⟩
  | none =>
      refine ⟨store.pool.world, .gone held, ?_⟩
      unfold rollbackQuietly
      rw [run_bind, run_attempt, run_call]
      simp only [Pool.callLease, held]
      rfl

private theorem run_abandonAll (session : Session World) (transactions : List Transaction)
    (store : Store World) :
    ∃ after, Abandoned session transactions store after ∧
      (abandonAll session transactions).run store = (.ok (), after) := by
  induction transactions generalizing store with
  | nil => exact ⟨store, .nil store, rfl⟩
  | cons transaction rest ih =>
      obtain ⟨world, reverts, ran⟩ := run_abandon session transaction store
      obtain ⟨after, abandoned, ranRest⟩ := ih
        ((restoreInstances transaction (store.withWorld world)).released session transaction.lease)
      refine ⟨after, .cons reverts abandoned, ?_⟩
      unfold abandonAll
      rw [run_bind, ran]
      exact ranRest

theorem run_close (session : Session World) (store : Store World) :
    ∃ after, CloseEnds session store after ∧ (close session).run store = (.ok (), after) := by
  unfold close
  rw [run_bind, run_get]
  cases isOpen : store.isOpen with
  | false =>
      simp only [isOpen, Bool.false_eq_true, ↓reduceIte]
      exact ⟨store, .again isOpen, rfl⟩
  | true =>
      obtain ⟨between, abandoned, ran⟩ := run_abandonAll session
        (store.transactions.map Prod.snd) { store with isOpen := false, transactions := [] }
      refine ⟨_, .closed isOpen abandoned, ?_⟩
      simp only [isOpen, ↓reduceIte]
      rw [run_bind, run_get]
      simp only
      rw [run_bind, run_modify]
      simp only
      rw [run_bind, ran]
      rfl

end Store
end EntityStore
