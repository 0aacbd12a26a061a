/-
Every stage is a turn. The units of work and the boundaries of transactions are gone
through path by path; so every store that is reached from a database at rest is orderly.
-/

import EntityStore.Proofs.KeyedRows
import EntityStore.Proofs.ServedConnections

set_option autoImplicit false

namespace EntityStore
namespace Store

variable {World : Type} {layout : Layout} {session : Session World}
  {faithful : Faithful layout session.database} {store after : Store World}
  {connection : ConnectionId} {lease : LeaseId} {poses : Task → Prop} {ok : Bool}

/-- The connection of a lease that is given back is outside of any transaction. -/
theorem confined_released {pool : Pool World} (same : store.pool = pool)
    (valid : faithful.Valid pool.world) (held : pool.leased.lookup lease = some connection) :
    faithful.Confined connection pool.world (store.released session lease).pool.world ∧
      faithful.standing (store.released session lease).pool.world connection = .outside := by
  subst same
  exact Faithful.confined_release valid held store.clock

theorem asked_fits {writes : Bool} {world worked : World} {log : List Event}
    (fits : ∀ mapping ∈ store.registry.mappings, layout.Fits mapping)
    (asked : Asked session.database (Question.Issued (· ∈ store.registry.mappings) writes)
      connection world log worked) :
    Asked session.database (Question.Issued layout.Fits writes) connection world log worked :=
  asked.weaken fun _ issued => issued.weaken fits

theorem Issued.writes {fits : Mapping → Prop} {writes : Bool} {question : Question}
    (issued : question.Issued fits writes) : question.Issued fits true := by
  cases issued with
  | execute _ conforms => exact .execute rfl conforms
  | query conforms => exact .query conforms
  | lastInsertId => exact .lastInsertId
  | tableExists table => exact .tableExists table

/-! ### Transactions that are over -/

section Over

variable {transaction : Transaction} {world : World} {between : Store World}
  (leased : store.Leased) (inside : store.transaction? session.thread = some transaction)
  (pool : between.pool = { store.pool with world := world })
  (transactions : between.transactions = (store.dropTransaction session.thread).transactions)
include leased inside pool transactions

theorem serving_over (other : ThreadId) :
    (between.released session transaction.lease).serving other =
      if other = session.thread then none else store.serving other := by
  have dropped : between.serving other = (store.dropTransaction session.thread).serving other := by
    refine serving_congr ?_ fun one _ => by rw [pool]; rfl
    unfold transaction?
    rw [transactions]
  rw [serving_released, dropped, serving_dropTransaction]
  unfold leases
  rw [transactions]
  exact leased.dropped_not_mem inside

private theorem turn_ended (uncommitted : ok = false ∨ poses .rollback)
    (held : store.pool.leased.lookup transaction.lease = some connection)
    (confined : faithful.Confined connection store.pool.world world) :
    Turn faithful session.thread poses store ok
      (between.released session transaction.lease) := by
  obtain ⟨released, outside⟩ :=
    @confined_released _ _ session faithful _ _ _ _ pool confined.valid held
  exact .ended uncommitted (serving_eq_some inside held) (confined.trans released) outside
    (serving_over leased inside pool transactions)

end Over

theorem isOpen_restoreInstances (transaction : Transaction) (store : Store World) :
    (restoreInstances transaction store).isOpen = store.isOpen :=
  congrArg (fun frame => frame.2.2.2.2) (frame_restoreInstances transaction store)

theorem transactions_restoreInstances (transaction : Transaction) (store : Store World) :
    (restoreInstances transaction store).transactions = store.transactions :=
  transactions_eq_of_frame (frame_restoreInstances transaction store)

theorem transactions_rolledBack (transaction : Transaction) (keys : List Key) (store : Store World) :
    (Store.invalidateOwners keys (restoreInstances transaction store)).transactions
      = store.transactions :=
  (transactions_eq_of_frame (frame_invalidateOwners keys _)).trans
    (transactions_restoreInstances transaction store)

theorem pool_rolledBack (transaction : Transaction) (keys : List Key) (store : Store World) :
    (Store.invalidateOwners keys (restoreInstances transaction store)).pool = store.pool :=
  (pool_invalidateOwners keys _).trans (pool_restoreInstances transaction store)

theorem transactions_written (writes : WriteSet) (generation : Nat) (store : Store World) :
    (store.written writes generation).transactions = store.transactions :=
  congrArg (fun frame => frame.2.1) (frame_written writes generation store)

/-! ### Units -/

section Units

variable {α : Type} {gives : α × WriteSet → List Event → Prop} {transactional : Bool}
  {pool : Pool World} {world : World}

private theorem bracketed_fits {outcome : Except Error (α × WriteSet)} {first second : World}
    (fits : ∀ mapping ∈ store.registry.mappings, layout.Fits mapping)
    (bracketed : Bracketed session.database
      (Question.Issued (· ∈ store.registry.mappings) transactional) connection gives
      transactional first outcome second) :
    Bracketed session.database (Question.Issued layout.Fits transactional) connection gives
      transactional first outcome second := by
  cases bracketed with
  | done asked given => exact .done (asked_fits fits asked) given
  | undone asked => exact .undone (asked_fits fits asked)
  | notBegun begins => exact .notBegun begins
  | failed begins asked rolledBack => exact .failed begins (asked_fits fits asked) rolledBack
  | notCommitted begins asked refused rolledBack =>
      exact .notCommitted begins (asked_fits fits asked) refused rolledBack
  | committed begins asked given commits =>
      exact .committed begins (asked_fits fits asked) given commits

theorem acquired_outside (regular : store.Regular) (orderly : store.Orderly faithful)
    (acquired : store.pool.acquire session.database = (.ok lease, pool))
    (held : pool.leased.lookup lease = some connection) :
    faithful.Valid pool.world ∧ faithful.Same store.pool.world pool.world ∧
      faithful.standing pool.world connection = .outside ∧
      ∀ thread, store.serving thread ≠ some connection := by
  obtain ⟨valid, same⟩ := Faithful.same_acquire orderly.valid acquired
  have free := not_serving_of_acquired regular.leased acquired held
  exact ⟨valid, same, (same.standing connection).trans (orderly.outside free), free⟩

/-- A unit outside of a transaction publishes what its log says. -/
theorem published_of_applied (regular : store.Regular) (orderly : store.Orderly faithful)
    (fits : ∀ mapping ∈ store.registry.mappings, layout.Fits mapping) {result : α × WriteSet}
    (acquired : store.pool.acquire session.database = (.ok lease, pool))
    (held : pool.leased.lookup lease = some connection)
    (bracketed : Bracketed session.database
      (Question.Issued (· ∈ store.registry.mappings) transactional) connection gives
      transactional pool.world (.ok result) world)
    {between : Store World} (same : between.pool = { pool with world := world }) :
    ∃ log, gives result log ∧ faithful.HasPublished connection store.pool.world log
      (between.released session lease).pool.world := by
  obtain ⟨valid, sameWorld, outside, _⟩ := acquired_outside regular orderly acquired held
  obtain ⟨log, given, published, _⟩ :=
    Faithful.hasPublished_of_bracketed valid outside (bracketed_fits fits bracketed)
  obtain ⟨confined, left⟩ := @confined_released _ _ _ faithful _ _ _ _ same published.valid held
  exact ⟨log, given, (published.after sameWorld).before confined left⟩

/-- A unit outside of a transaction that fails publishes nothing. -/
theorem confined_of_failed (regular : store.Regular) (orderly : store.Orderly faithful)
    (fits : ∀ mapping ∈ store.registry.mappings, layout.Fits mapping) {error : Error}
    (acquired : store.pool.acquire session.database = (.ok lease, pool))
    (held : pool.leased.lookup lease = some connection)
    (bracketed : Bracketed session.database
      (Question.Issued (· ∈ store.registry.mappings) transactional) connection gives
      transactional pool.world (.error error) world) :
    let after := ({ store with pool := { pool with world := world } } : Store World).released
      session lease
    faithful.Confined connection store.pool.world after.pool.world ∧
      faithful.standing after.pool.world connection = .outside := by
  obtain ⟨valid, same, outside, _⟩ := acquired_outside regular orderly acquired held
  have confined := Faithful.confined_of_bracketed valid outside (bracketed_fits fits bracketed)
  obtain ⟨released, left⟩ := @confined_released _ _ session faithful
    { store with pool := { pool with world := world } } _ _ _ rfl confined.valid held
  exact ⟨((Faithful.Confined.of_same valid same).trans confined).trans released, left⟩

/-- A unit that ends the transaction of its thread publishes nothing. -/
theorem confined_of_aborted (orderly : store.Orderly faithful)
    (fits : ∀ mapping ∈ store.registry.mappings, layout.Fits mapping) {writes : Bool}
    {worked : World} {log : List Event} {outcome : Except DatabaseError Unit}
    (serves : store.serving session.thread = some connection)
    (asked : Asked session.database (Question.Issued (· ∈ store.registry.mappings) writes)
      connection store.pool.world log worked)
    (rolledBack : session.database.rollback connection worked = (outcome, world)) :
    faithful.Confined connection store.pool.world world := by
  have works := Faithful.hasWorked_of_asked (asked_fits fits asked) orderly.valid
    (orderly.not_outside serves)
  exact works.confined.trans (Faithful.confined_rollback works.valid rolledBack)

private theorem turn_unit {outcome : Except Error α} (regular : store.Regular)
    (orderly : store.Orderly faithful)
    (fits : ∀ mapping ∈ store.registry.mappings, layout.Fits mapping)
    (ends : UnitEnds session (Question.Issued (· ∈ store.registry.mappings) transactional)
      transactional gives store outcome after) :
    Turn faithful session.thread poses store outcome.isOk after := by
  cases ends with
  | closed _ => exact .still rfl fun _ => rfl
  | @recorded transaction connection world log _ writes _ inside held asked _ =>
      refine @Turn.worked _ _ _ _ _ _ _ _ _ _ log (serving_eq_some inside held) ?_ fun other => ?_
      · rw [pool_recordWrites]
        exact (asked_fits fits asked).weaken fun _ => Issued.writes
      · exact serving_recordWrites session.thread other writes _
  | @aborted transaction connection worked world log _ _ _ inside held asked rolledBack =>
      exact turn_ended regular.leased inside (pool_restoreInstances _ _)
        (transactions_restoreInstances _ _) (Or.inl rfl) held
        (confined_of_aborted orderly fits (serving_eq_some inside held) asked rolledBack)
  | unconnected _ outside acquired =>
      obtain ⟨valid, same⟩ := Faithful.same_acquire orderly.valid acquired
      exact .upkeep outside valid same (serving_acquire regular.leased acquired _)
  | @applied pool lease connection world result writes _ outside acquired held bracketed =>
      obtain ⟨_, _, _, free⟩ := acquired_outside regular orderly acquired held
      obtain ⟨log, ⟨_, conforms⟩, published⟩ := published_of_applied regular orderly fits acquired
        held bracketed.conforming (pool_written writes store.cache.generation
          { store with pool := { pool with world := world } })
      refine .published outside free published
        (fun statement member => (conforms statement member).weaken fits) fun other => ?_
      rw [serving_released]
      · refine Eq.trans (serving_congr ?_ fun _ _ => ?_)
          (serving_acquire regular.leased acquired world other)
        · unfold transaction?
          rw [transactions_written]
        · rw [pool_written]
      · rw [leases_written]
        exact regular.leased.acquired_not_mem acquired
  | @failed pool lease connection world _ _ outside acquired held bracketed =>
      obtain ⟨_, _, _, free⟩ := acquired_outside regular orderly acquired held
      obtain ⟨confined, left⟩ := confined_of_failed regular orderly fits acquired held bracketed
      refine .failed outside free confined left fun other => ?_
      rw [serving_released]
      · exact serving_acquire regular.leased acquired world other
      · exact regular.leased.acquired_not_mem acquired

end Units

/-! ### Boundaries -/

/-- A transaction that has begun is inside of one on its connection. -/
theorem reading_of_begins (regular : store.Regular) (orderly : store.Orderly faithful)
    (ends : BeginEnds session store (.ok ()) after) :
    ∃ connection, after.serving session.thread = some connection ∧
      faithful.standing after.pool.world connection = .reading := by
  cases ends with
  | @begun pool lease connection world _ _ acquired held begins =>
      obtain ⟨valid, _, outside, _⟩ := acquired_outside regular orderly acquired held
      obtain ⟨_, _, _, reading⟩ := faithful.begin connection pool.world valid outside
      rw [begins] at reading
      refine ⟨connection, ?_, reading⟩
      exact serving_eq_some (transaction?_setTransaction_self _ session.thread _) held

/-- Nothing is published when a connection is acquired and begins. -/
theorem confined_of_begins {pool : Pool World} {world : World}
    {begun : Except DatabaseError Unit} (regular : store.Regular)
    (orderly : store.Orderly faithful)
    (acquired : store.pool.acquire session.database = (.ok lease, pool))
    (held : pool.leased.lookup lease = some connection)
    (begins : session.database.begin connection pool.world = (begun, world)) :
    faithful.Confined connection store.pool.world world := by
  obtain ⟨valid, same, outside, _⟩ := acquired_outside regular orderly acquired held
  obtain ⟨validBegun, published, besides, _⟩ := faithful.begin connection pool.world valid outside
  rw [begins] at validBegun published besides
  exact (Faithful.Confined.of_same valid same).trans ⟨validBegun, published, besides⟩

theorem turn_begin {outcome : Except Error Unit} (posed : poses .begin) (regular : store.Regular)
    (orderly : store.Orderly faithful) (ends : BeginEnds session store outcome after) :
    Turn faithful session.thread poses store outcome.isOk after := by
  cases ends with
  | closed _ => exact .still rfl fun _ => rfl
  | alreadyOpen _ _ => exact .still rfl fun _ => rfl
  | unconnected _ outside acquired =>
      obtain ⟨valid, same⟩ := Faithful.same_acquire orderly.valid acquired
      exact .upkeep outside valid same (serving_acquire regular.leased acquired _)
  | @begun pool lease connection world _ outside acquired held begins =>
      obtain ⟨valid, _, outsidePool, free⟩ := acquired_outside regular orderly acquired held
      obtain ⟨_, _, _, reading⟩ := faithful.begin connection pool.world valid outsidePool
      rw [begins] at reading
      refine .begun posed rfl outside free
        (confined_of_begins regular orderly acquired held begins) reading fun other => ?_
      refine (@serving_setTransaction _
        { store with pool := { pool with world := world } } _ { lease := lease } held _ other).trans ?_
      rw [serving_acquire regular.leased acquired]
  | @refused pool lease connection world _ _ outside acquired held begins =>
      obtain ⟨_, _, _, free⟩ := acquired_outside regular orderly acquired held
      have confined := confined_of_begins regular orderly acquired held begins
      obtain ⟨released, left⟩ := @confined_released _ _ session faithful
        { store with pool := { pool with world := world } } _ _ _ rfl confined.valid held
      refine .failed outside free (confined.trans released) left fun other => ?_
      rw [serving_released]
      · exact serving_acquire regular.leased acquired world other
      · exact regular.leased.acquired_not_mem acquired

/-- A commit that succeeds publishes what its connection sees. -/
theorem publishes_of_commit {transaction : Transaction} {world : World} {between : Store World}
    (orderly : store.Orderly faithful) (inside : store.transaction? session.thread = some transaction)
    (held : store.pool.leased.lookup transaction.lease = some connection)
    (commits : session.database.commit connection store.pool.world = (.ok (), world))
    (pool : between.pool = { store.pool with world := world }) :
    let after := between.released session transaction.lease
    faithful.Valid after.pool.world ∧
      faithful.Besides connection store.pool.world after.pool.world ∧
      faithful.published after.pool.world = faithful.seen store.pool.world connection ∧
      faithful.standing after.pool.world connection = .outside := by
  obtain ⟨valid, besides, publishes, _⟩ := by
    have facts := faithful.commit connection store.pool.world orderly.valid
      (orderly.not_outside (serving_eq_some inside held))
    rw [commits] at facts
    exact facts
  obtain ⟨released, left⟩ :=
    @confined_released _ _ session faithful _ _ _ _ pool valid held
  exact ⟨released.valid, besides.trans released.besides, released.published.trans publishes, left⟩

theorem published_of_commits (orderly : store.Orderly faithful)
    (ends : CommitEnds session store (.ok ()) after) :
    ∃ connection, store.serving session.thread = some connection ∧
      faithful.published after.pool.world = faithful.seen store.pool.world connection := by
  cases ends with
  | @committed transaction connection world _ inside held commits =>
      obtain ⟨_, _, publishes, _⟩ := publishes_of_commit orderly inside held commits
        (pool_written transaction.writes store.cache.generation
          ((store.dropTransaction session.thread).withWorld world))
      exact ⟨_, serving_eq_some inside held, publishes⟩

/-- Nothing is published by a commit that is refused and rolled back. -/
theorem confined_of_refused {refused world : World} {fault : DatabaseError}
    {outcome : Except DatabaseError Unit} (orderly : store.Orderly faithful)
    (serves : store.serving session.thread = some connection)
    (commits : session.database.commit connection store.pool.world = (.error fault, refused))
    (rolledBack : session.database.rollback connection refused = (outcome, world)) :
    faithful.Confined connection store.pool.world world := by
  have facts := faithful.commit connection store.pool.world orderly.valid
    (orderly.not_outside serves)
  rw [commits] at facts
  have confined : faithful.Confined connection store.pool.world refused :=
    ⟨facts.1, facts.2.2, facts.2.1⟩
  exact confined.trans (Faithful.confined_rollback confined.valid rolledBack)

theorem turn_commit {outcome : Except Error Unit} (posed : poses .commit) (regular : store.Regular)
    (orderly : store.Orderly faithful) (ends : CommitEnds session store outcome after) :
    Turn faithful session.thread poses store outcome.isOk after := by
  cases ends with
  | closed _ => exact .still rfl fun _ => rfl
  | notOpen _ _ => exact .still rfl fun _ => rfl
  | @committed transaction connection world _ inside held commits =>
      have pool := pool_written transaction.writes store.cache.generation
        ((store.dropTransaction session.thread).withWorld world)
      obtain ⟨valid, besides, publishes, outside⟩ :=
        publishes_of_commit orderly inside held commits pool
      exact .committed posed rfl (serving_eq_some inside held) valid besides publishes outside
        (serving_over regular.leased inside pool (transactions_written _ _ _))
  | @refused transaction connection refused world _ _ _ inside held commits rolledBack =>
      exact turn_ended regular.leased inside (pool_rolledBack _ _ _)
        (transactions_rolledBack _ _ _) (Or.inl rfl) held
        (confined_of_refused orderly (serving_eq_some inside held) commits rolledBack)

theorem turn_rollback {outcome : Except Error Unit} (posed : poses .rollback) (regular : store.Regular)
    (orderly : store.Orderly faithful) (ends : RollbackEnds session store outcome after) :
    Turn faithful session.thread poses store outcome.isOk after := by
  cases ends with
  | closed _ => exact .still rfl fun _ => rfl
  | notOpen _ _ => exact .still rfl fun _ => rfl
  | rolledBack _ inside held rolledBack =>
      exact turn_ended regular.leased inside (pool_rolledBack _ _ _)
        (transactions_rolledBack _ _ _) (Or.inr posed) held
        (Faithful.confined_rollback orderly.valid rolledBack)

/-! ### Closing -/

structure AllOutside (faithful : Faithful layout session.database) (store after : Store World) :
    Prop where
  valid : faithful.Valid after.pool.world
  published : faithful.published after.pool.world = faithful.published store.pool.world
  outside : ∀ connection, faithful.standing after.pool.world connection = .outside

private theorem confined_abandoned {transaction : Transaction} {world : World}
    (valid : faithful.Valid store.pool.world)
    (held : store.pool.leased.lookup transaction.lease = some connection)
    (reverts : Reverts session transaction.lease store world) :
    let left := (restoreInstances transaction (store.withWorld world)).released session
      transaction.lease
    faithful.Confined connection store.pool.world left.pool.world ∧
      faithful.standing left.pool.world connection = .outside := by
  cases reverts with
  | gone missing =>
      rw [held] at missing
      cases missing
  | held holds rolledBack =>
      rw [held] at holds
      cases holds
      have confined := Faithful.confined_rollback valid rolledBack
      obtain ⟨released, outside⟩ := @confined_released _ _ session faithful _ _ _ _
        (pool_restoreInstances transaction (store.withWorld world)) confined.valid held
      exact ⟨confined.trans released, outside⟩

private theorem allOutside_of_abandoned {transactions : List Transaction}
    (abandoned : Abandoned session transactions store after)
    (valid : faithful.Valid store.pool.world)
    (distinct : (transactions.map Transaction.lease).Nodup)
    (held : ∀ transaction ∈ transactions, ∃ connection,
      store.pool.leased.lookup transaction.lease = some connection)
    (inside : ∀ connection, faithful.standing store.pool.world connection ≠ .outside →
      ∃ transaction ∈ transactions,
        store.pool.leased.lookup transaction.lease = some connection) :
    AllOutside faithful store after := by
  -- The induction is on the transactions that are still to be abandoned: a connection that is
  -- inside of one belongs to one of them.
  induction abandoned with
  | nil store =>
      refine ⟨valid, rfl, fun connection => ?_⟩
      by_contra isInside
      obtain ⟨_, member, _⟩ := inside connection isInside
      cases member
  | @cons transaction rest store after world reverts _ ih =>
      obtain ⟨connection, holds⟩ := held transaction List.mem_cons_self
      obtain ⟨confined, outside⟩ := @confined_abandoned _ _ _ faithful _ _ _ _ valid holds reverts
      obtain ⟨fresh, distinctRest⟩ := List.nodup_cons.mp distinct
      -- Giving back one lease leaves the others held, as their leases differ.
      have kept : ∀ other ∈ rest, ((restoreInstances transaction
          (store.withWorld world)).released session transaction.lease).pool.leased.lookup other.lease
            = store.pool.leased.lookup other.lease := by
        intro other member
        have different : other.lease ≠ transaction.lease :=
          fun same => fresh (List.mem_map.mpr ⟨other, member, same⟩)
        refine (Pool.lookup_release different _ _ _).trans ?_
        rw [pool_restoreInstances]
        rfl
      obtain ⟨validAfter, published, allOutside⟩ := ih confined.valid distinctRest
        (fun other member => by
          obtain ⟨found, holdsOther⟩ := held other (List.mem_cons_of_mem transaction member)
          exact ⟨found, (kept other member).trans holdsOther⟩)
        (fun other isInside => by
          have different : other ≠ connection := fun same => isInside (same ▸ outside)
          rw [confined.besides.standing other different] at isInside
          obtain ⟨served, member, holdsOther⟩ := inside other isInside
          rcases List.mem_cons.mp member with rfl | isLater
          · rw [holds] at holdsOther
            exact absurd (Option.some.inj holdsOther).symm different
          · exact ⟨served, isLater, (kept served isLater).trans holdsOther⟩)
      exact ⟨validAfter, published.trans confined.published, allOutside⟩

theorem isOpen_abandoned {transactions : List Transaction}
    (abandoned : Abandoned session transactions store after) : after.isOpen = store.isOpen := by
  induction abandoned with
  | nil store => rfl
  | cons _ _ ih => exact ih.trans (isOpen_restoreInstances _ _)

private theorem allOutside_shut (regular : store.Regular) (orderly : store.Orderly faithful)
    (abandoned : Abandoned session (store.transactions.map Prod.snd)
      { store with isOpen := false, transactions := [] } after) :
    AllOutside faithful store (after.shut session) := by
  have outside : AllOutside faithful
      ({ store with isOpen := false, transactions := [] } : Store World) after := by
    refine allOutside_of_abandoned abandoned orderly.valid ?_ ?_ ?_
    · rw [List.map_map]
      exact regular.leased.distinct
    · intro transaction member
      refine regular.leased.held _ ?_
      obtain ⟨entry, entryMember, rfl⟩ := List.mem_map.mp member
      exact List.mem_map.mpr ⟨entry, entryMember, rfl⟩
    · intro connection inside
      obtain ⟨thread, serves⟩ := (orderly.inside connection).mp inside
      obtain ⟨transaction, isOpen, holds⟩ := exists_of_serving serves
      exact ⟨transaction, List.mem_map.mpr ⟨_, mem_of_transaction isOpen, rfl⟩, holds⟩
  cases closed : after.pool.isClosed with
  | true =>
      have same : (after.shut session).pool.world = after.pool.world := by
        show (after.pool.shutdown session.database).world = after.pool.world
        unfold Pool.shutdown
        simp only [closed, ↓reduceIte]
      exact ⟨same ▸ outside.valid, same ▸ outside.published, same ▸ outside.outside⟩
  | false =>
      have same : (after.shut session).pool.world = Pool.closedWorld session.database
          after.pool.connections after.pool.world :=
        congrArg Pool.world (Pool.shutdown_eq session.database closed)
      obtain ⟨valid, published, allOutside⟩ := @Faithful.closedWorld_outside _ _ _ _
        after.pool.connections _ outside.valid outside.outside
      exact ⟨same ▸ valid, same ▸ published.trans outside.published, same ▸ allOutside⟩

theorem published_of_closes (regular : store.Regular) (orderly : store.Orderly faithful)
    (ends : CloseEnds session store after) :
    faithful.published after.pool.world = faithful.published store.pool.world := by
  cases ends with
  | again _ => rfl
  | closed _ abandoned => exact (allOutside_shut regular orderly abandoned).published

theorem turn_close (posed : poses .close) (regular : store.Regular)
    (orderly : store.Orderly faithful) (ends : CloseEnds session store after) :
    Turn faithful session.thread poses store ok after := by
  cases ends with
  | again _ => exact .still rfl fun _ => rfl
  | @closed between _ abandoned =>
      obtain ⟨valid, published, outside⟩ :=
        @allOutside_shut _ _ _ faithful _ _ regular orderly abandoned
      have none := (regular.abandonsAll abandoned).2
      refine .closed posed (isOpen_abandoned abandoned) valid published outside
        fun other => serving_eq_none ?_
      unfold transaction?
      rw [show (between.shut session).transactions = [] from none]
      rfl

/-! ### Stages and courses -/

theorem Stage.turn (stage : Stage session poses store ok after) (regular : store.Regular)
    (orderly : store.Orderly faithful)
    (fits : ∀ mapping ∈ store.registry.mappings, layout.Fits mapping) :
    Turn faithful session.thread poses store ok after := by
  cases stage with
  | quiet quiet => exact .still (by rw [quiet.pool]) (serving_of_quiet quiet)
  | looked key => exact .still rfl fun _ => rfl
  | cleared => exact .still rfl fun _ => rfl
  | unit _ ends => exact turn_unit regular orderly fits ends
  | began posed ends => exact turn_begin posed regular orderly ends
  | committed posed ends => exact turn_commit posed regular orderly ends
  | rolledBack posed ends => exact turn_rollback posed regular orderly ends
  | closed posed ends => exact turn_close posed regular orderly ends

theorem Course.orderly (course : Course session poses store ok after) (regular : store.Regular)
    (orderly : store.Orderly faithful)
    (fits : ∀ mapping ∈ after.registry.mappings, layout.Fits mapping) :
    after.Orderly faithful := by
  induction course with
  | ended => exact orderly
  | failed stage =>
      have turn := stage.turn regular orderly (stage.grows.forall_registered fits)
      exact turn.orderly orderly regular.leased
  | @went _ store between after _ stage rest ih =>
      have fitsBetween : ∀ mapping ∈ between.registry.mappings, layout.Fits mapping :=
        rest.grows.forall_registered fits
      have turn := stage.turn regular orderly (stage.grows.forall_registered fitsBetween)
      exact ih (stage.regular regular) (turn.orderly orderly regular.leased) fits

end Store

namespace Deployment

variable {World : Type} {layout : Layout} {deployment : Deployment World}
  {faithful : Faithful layout deployment.database}
  {allowed : Store World → ThreadId → Action → Prop} {store : Store World}

theorem orderly_of_act {after : Store World} {thread : ThreadId} {action : Action}
    {outcome : Except Error Unit} (regular : store.Regular) (orderly : store.Orderly faithful)
    (fits : ∀ mapping ∈ after.registry.mappings, layout.Fits mapping)
    (inMemory : action.InMemory store.memory.size)
    (ran : (action.perform (deployment.session thread)).run store = (outcome, after)) :
    after.Orderly faithful :=
  @Store.Course.orderly _ _ (deployment.session thread) _ _ _ _ _
    ((Action.follows_perform regular inMemory).of_run ran) regular orderly fits

/-- Every store that is reached from a database at rest is orderly, if its types fit. -/
theorem Reached.orderly (rest : faithful.AtRest deployment.world)
    (reached : deployment.Reached allowed store)
    (fits : ∀ mapping ∈ store.registry.mappings, layout.Fits mapping) :
    store.Orderly faithful := by
  induction reached with
  | created created =>
      obtain ⟨pool, made, rfl⟩ := create_ok created
      obtain ⟨valid, same⟩ := Faithful.same_create rest.valid made
      refine ⟨valid, fun connection => iff_of_false (fun inside => inside ?_) ?_⟩
      · exact (same.standing connection).trans (rest.outside connection)
      · rintro ⟨thread, serves⟩
        cases serves
  | @acted store after thread action outcome reached _ inMemory ran ih =>
      have grows := ((Action.follows_perform reached.regular inMemory).of_run ran).grows
      exact orderly_of_act reached.regular
        (ih (grows.forall_registered fits)) fits inMemory ran

end Deployment
end EntityStore
