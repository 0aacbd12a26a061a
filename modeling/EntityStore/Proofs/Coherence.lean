/-
A cache that agrees with the database. One thread acts, and what it saves knows current rows;
then every row in the cache is held in the database and agrees with it, whatever became of
units of work and transactions. While a transaction is open the same holds of the rows that
its commit would show and what its connection sees.
-/

import EntityStore.Proofs.Columns
import EntityStore.Proofs.Orderly
import EntityStore.Proofs.Reflecting
import EntityStore.Proofs.Runs

set_option autoImplicit false

namespace EntityStore

structure Layout.Backs (layout : Layout) (registered : Mapping → Prop) (contents : Contents)
    (shown : Showing) : Prop where
  keyed : layout.Keyed contents
  reflects : layout.Reflects registered contents shown

theorem Layout.Backs.mono {layout : Layout} {registered more : Mapping → Prop}
    {contents : Contents} {shown fewer : Showing} (backs : layout.Backs registered contents shown)
    (grows : ∀ mapping, registered mapping → more mapping)
    (le : ∀ key row, fewer key row → shown key row) : layout.Backs more contents fewer := by
  refine ⟨backs.keyed, fun key row isShown => ?_⟩
  obtain ⟨mapping, id, fields, isRegistered, rest⟩ := backs.reflects key row (le key row isShown)
  exact ⟨mapping, id, fields, grows mapping isRegistered, rest⟩

theorem Layout.Backs.task {layout : Layout} {dialect : Dialect} {registered : Mapping → Prop}
    {before after : Contents} {shown : Showing} {task : Task} {writes : WriteSet}
    {log : List Event} (backs : layout.Backs registered before shown)
    (fits : ∀ mapping, registered mapping → layout.Fits mapping)
    (separates : layout.Separates registered) (gives : task.Gives dialect registered writes log)
    (conforms : ∀ statement, .executed statement ∈ log → statement.Conforms layout.Fits)
    (replayed : layout.Replayed before log after) (sound : task.Sound registered)
    (careful : task.Careful layout before) :
    layout.Backs registered after (writes.alter shown) := by
  obtain ⟨_, _, replays⟩ := replayed
  exact ⟨Keyed.replays backs.keyed conforms replays,
    gives.reflects replays fits separates backs.keyed sound careful backs.reflects⟩

namespace Store

variable {World : Type}

/-- The contents that a thread sees: those of its open transaction, or what is published. -/
def view {layout : Layout} {database : Database World} (faithful : Faithful layout database)
    (thread : ThreadId) (store : Store World) : Contents :=
  match store.serving thread with
  | some connection => faithful.seen store.pool.world connection
  | none => faithful.published store.pool.world

/-- What the open transaction of a thread does to the cache when it is committed. -/
def owed (thread : ThreadId) (store : Store World) : WriteSet :=
  ((store.transaction? thread).map Transaction.writes).getD {}

section Views

variable {layout : Layout} {database : Database World} {faithful : Faithful layout database}
  {thread : ThreadId} {store after : Store World} {connection : ConnectionId}

theorem view_of_serving (serves : store.serving thread = some connection) :
    store.view faithful thread = faithful.seen store.pool.world connection := by
  unfold view
  rw [serves]

theorem view_of_outside (outside : store.transaction? thread = none) :
    store.view faithful thread = faithful.published store.pool.world := by
  unfold view
  rw [serving_eq_none outside]

theorem Quiet.view (quiet : store.Quiet after) :
    after.view faithful thread = store.view faithful thread := by
  unfold Store.view
  rw [serving_of_quiet quiet, quiet.pool]

theorem Quiet.owed (quiet : store.Quiet after) : after.owed thread = store.owed thread := by
  have same := congrArg (Option.map Prod.snd) (quiet.transactions thread)
  rw [Option.map_map, Option.map_map] at same
  exact congrArg (fun writes => writes.getD {}) same

theorem owed_of_inside {transaction : Transaction}
    (inside : store.transaction? thread = some transaction) :
    store.owed thread = transaction.writes := by
  unfold owed
  rw [inside]
  rfl

def ShowsOnly (store after : Store World) : Prop :=
  ∀ key row, after.cache.Shows key row → store.cache.Shows key row

theorem showsOnly_of_same (same : after.cache = store.cache) : store.ShowsOnly after :=
  fun _ _ isShown => same ▸ isShown

structure Even (faithful : Faithful layout database) (thread : ThreadId)
    (store : Store World) : Prop where
  view : store.view faithful thread = faithful.published store.pool.world
  owed : store.owed thread = {}

theorem even_of_outside (outside : store.transaction? thread = none) :
    store.Even faithful thread := by
  refine ⟨view_of_outside outside, ?_⟩
  unfold Store.owed
  rw [outside]
  rfl

/-- What the cache shows is held in what is published, and what it would show after a commit
is held in what the thread sees. -/
structure Coherent (faithful : Faithful layout database) (thread : ThreadId)
    (store : Store World) : Prop where
  published : layout.Backs (· ∈ store.registry.mappings)
    (faithful.published store.pool.world) store.cache.Shows
  seen : layout.Backs (· ∈ store.registry.mappings) (store.view faithful thread)
    ((store.owed thread).alter store.cache.Shows)

theorem Even.coherent (even : store.Even faithful thread)
    (backs : layout.Backs (· ∈ store.registry.mappings)
      (faithful.published store.pool.world) store.cache.Shows) :
    store.Coherent faithful thread := by
  refine ⟨backs, ?_⟩
  rw [even.view, even.owed]
  exact backs

end Views

variable {layout : Layout} {session : Session World}
  {faithful : Faithful layout session.database} {thread : ThreadId} {poses : Task → Prop}
  {store between after : Store World} {connection : ConnectionId} {ok : Bool}

inductive Moves (faithful : Faithful layout session.database) (poses : Task → Prop)
    (store after : Store World) : Prop where
  | idle : store.ShowsOnly after →
      faithful.published after.pool.world = faithful.published store.pool.world →
      after.view faithful session.thread = store.view faithful session.thread →
      after.owed session.thread = store.owed session.thread → Moves faithful poses store after
  /-- Nothing is published; a transaction that was open is over. -/
  | evened : store.ShowsOnly after →
      faithful.published after.pool.world = faithful.published store.pool.world →
      after.Even faithful session.thread → Moves faithful poses store after
  | committed : after.Even faithful session.thread →
      faithful.published after.pool.world = store.view faithful session.thread →
      (∀ key row, after.cache.Shows key row →
        (store.owed session.thread).alter store.cache.Shows key row) →
      Moves faithful poses store after
  /-- A task is done outside of a transaction. -/
  | applied {task : Task} {writes : WriteSet} {log : List Event} : task = .read ∨ poses task →
      task.Gives session.dialect (· ∈ store.registry.mappings) writes log →
      (∀ statement, .executed statement ∈ log → statement.Conforms layout.Fits) →
      store.Even faithful session.thread → after.Even faithful session.thread →
      layout.Replayed (faithful.published store.pool.world) log
        (faithful.published after.pool.world) →
      (∀ key row, after.cache.Shows key row → writes.alter store.cache.Shows key row) →
      Moves faithful poses store after
  /-- A task is done inside of a transaction. -/
  | recorded {task : Task} {writes : WriteSet} {log : List Event} : task = .read ∨ poses task →
      task.Gives session.dialect (· ∈ store.registry.mappings) writes log →
      (∀ statement, .executed statement ∈ log → statement.Conforms layout.Fits) →
      faithful.published after.pool.world = faithful.published store.pool.world →
      layout.Replayed (store.view faithful session.thread) log
        (after.view faithful session.thread) →
      store.ShowsOnly after →
      (∀ key row, (after.owed session.thread).alter after.cache.Shows key row →
        writes.alter ((store.owed session.thread).alter store.cache.Shows) key row) →
      Moves faithful poses store after

/-! ### Every stage -/

theorem cache_recordWrites (thread : ThreadId) (writes : WriteSet) (store : Store World) :
    (recordWrites thread writes store).cache = writes.withoutFills.evictTouched store.cache := by
  unfold recordWrites
  simp only
  split <;> exact cache_eq_of_frame (frame_invalidateOwners _ _)

theorem owed_recordWrites {transaction : Transaction}
    (inside : store.transaction? thread = some transaction) (writes : WriteSet) :
    (recordWrites thread writes store).owed thread
      = transaction.writes.append writes.withoutFills := by
  have kept : (Store.invalidateOwners writes.withoutFills.owners
      { store with cache := writes.withoutFills.evictTouched store.cache }).transaction? thread
        = some transaction :=
    (transaction?_of_frame (frame_invalidateOwners _ _) thread).trans inside
  unfold recordWrites
  simp only [kept]
  rw [owed_of_inside (transaction?_setTransaction_self _ _ _)]

theorem cache_written (writes : WriteSet) (generation : Nat) (store : Store World) :
    (store.written writes generation).cache = writes.apply generation store.cache :=
  congrArg (fun frame => frame.2.2.2.1) (frame_written writes generation store)

theorem UnitEnds.applies {α : Type} {session : Session World} {issued : Question → Prop}
    {transactional : Bool} {gives : α × WriteSet → List Event → Prop} {result : α}
    (ends : UnitEnds session issued transactional gives store (.ok result) after)
    (outside : store.inTransaction session.thread = false) :
    ∃ writes log, gives (result, writes) log ∧
      after.cache = writes.apply store.cache.generation store.cache := by
  cases ends with
  | recorded _ inside _ _ _ => simp [inTransaction, inside] at outside
  | @applied _ _ _ _ _ writes _ _ _ _ bracketed =>
      cases bracketed with
      | done _ given => exact ⟨writes, _, given, cache_written writes _ _⟩
      | committed _ _ given _ => exact ⟨writes, _, given, cache_written writes _ _⟩

theorem shows_written {writes : WriteSet} {generation : Nat} {key : Key} {row : Row}
    (isShown : (store.written writes generation).cache.Shows key row) :
    writes.alter store.cache.Shows key row := by
  rw [cache_written] at isShown
  exact Cache.shows_apply isShown

theorem cache_restoreInstances (transaction : Transaction) (store : Store World) :
    (restoreInstances transaction store).cache = store.cache :=
  cache_eq_of_frame (frame_restoreInstances transaction store)

theorem cache_rolledBack (transaction : Transaction) (keys : List Key) (store : Store World) :
    (Store.invalidateOwners keys (restoreInstances transaction store)).cache = store.cache :=
  (cache_eq_of_frame (frame_invalidateOwners keys _)).trans
    (cache_restoreInstances transaction store)

/-- What recorded writes will show, and what their effects would show at once. -/
theorem alter_recordWrites {transaction : Transaction}
    (inside : store.transaction? thread = some transaction) (writes : WriteSet) {key : Key}
    {row : Row} (isShown : ((recordWrites thread writes store).owed thread).alter
      (recordWrites thread writes store).cache.Shows key row) :
    writes.alter ((store.owed thread).alter store.cache.Shows) key row := by
  rw [owed_recordWrites inside, cache_recordWrites, WriteSet.alter_append] at isShown
  rw [owed_of_inside inside]
  refine alterAll_mono (fun _ _ => alterAll_mono fun _ _ => Cache.shows_evictTouched)
    (alterAll_withoutFills isShown)

section Stages

variable (regular : store.Regular) (orderly : store.Orderly faithful)
include regular orderly

omit regular orderly in
private theorem moves_over {transaction : Transaction} {world : World}
    (pool : between.pool = { store.pool with world := world })
    (transactions : between.transactions = (store.dropTransaction session.thread).transactions)
    (cache : between.cache = store.cache)
    (held : store.pool.leased.lookup transaction.lease = some connection)
    (confined : faithful.Confined connection store.pool.world world) :
    Moves faithful poses store (between.released session transaction.lease) := by
  obtain ⟨released, _⟩ :=
    @confined_released _ _ session faithful _ _ _ _ pool confined.valid held
  refine .evened (showsOnly_of_same cache) (released.published.trans confined.published)
    (even_of_outside ?_)
  show between.transactions.lookup session.thread = none
  rw [transactions]
  exact transaction?_dropTransaction_self store session.thread

private theorem moves_unit {α : Type} {task : Task} {transactional : Bool}
    {outcome : Except Error α} (fits : ∀ mapping ∈ store.registry.mappings, layout.Fits mapping)
    (posed : task = .read ∨ poses task)
    (ends : UnitEnds session (Question.Issued (· ∈ store.registry.mappings) transactional)
      transactional (fun result log =>
        task.Gives session.dialect (· ∈ store.registry.mappings) result.2 log)
      store outcome after) : Moves faithful poses store after := by
  cases ends with
  | closed _ => exact .idle (showsOnly_of_same rfl) rfl rfl rfl
  | @recorded transaction connection world log _ writes _ inside held asked gives =>
      have serves := serving_eq_some inside held
      have works := Faithful.hasWorked_of_asked (asked_fits fits asked) orderly.valid
        (orderly.not_outside serves)
      have pool := pool_recordWrites session.thread writes (store.withWorld world)
      have servesAfter : (recordWrites session.thread writes (store.withWorld world)).serving
          session.thread = some connection :=
        (serving_recordWrites session.thread session.thread writes _).trans serves
      refine .recorded posed gives (asked_fits fits asked).conforms ?_ ?_ ?_ ?_
      · rw [pool]
        exact works.published
      · rw [view_of_serving serves, view_of_serving servesAfter, pool]
        exact ⟨_, _, works.replays⟩
      · intro key row isShown
        rw [cache_recordWrites] at isShown
        exact Cache.shows_evictTouched isShown
      · exact fun key row => @alter_recordWrites _ _ (store.withWorld world) _ inside writes key row
  | @aborted transaction connection worked world _ _ _ _ inside held asked rolledBack =>
      exact moves_over (pool_restoreInstances _ _) (transactions_restoreInstances _ _)
        (cache_restoreInstances _ _) held
        (confined_of_aborted orderly fits (serving_eq_some inside held) asked rolledBack)
  | unconnected _ outside acquired =>
      obtain ⟨_, same⟩ := Faithful.same_acquire orderly.valid acquired
      exact .evened (showsOnly_of_same rfl) same.published (even_of_outside outside)
  | @applied pool lease connection world result writes _ outside acquired held bracketed =>
      obtain ⟨log, ⟨gives, conforms⟩, published⟩ := published_of_applied regular orderly fits
        acquired held bracketed.conforming (pool_written writes store.cache.generation
          { store with pool := { pool with world := world } })
      refine .applied posed gives (fun statement member => (conforms statement member).weaken fits)
        (even_of_outside outside) (even_of_outside ?_) published.replayed ?_
      · show (Store.written writes store.cache.generation
          { store with pool := { pool with world := world } }).transactions.lookup session.thread
            = none
        rw [transactions_written]
        exact outside
      · exact fun key row => @shows_written _ { store with pool := { pool with world := world } }
          writes store.cache.generation key row
  | @failed pool lease connection world _ _ outside acquired held bracketed =>
      obtain ⟨confined, _⟩ := confined_of_failed regular orderly fits acquired held bracketed
      exact .evened (showsOnly_of_same rfl) confined.published (even_of_outside outside)

/-- A transaction that is begun sees what is published, and owes nothing yet. -/
theorem even_of_begins {outcome : Except Error Unit} (ends : BeginEnds session store outcome after) :
    after = store ∨ (store.transaction? session.thread = none ∧
      faithful.published after.pool.world = faithful.published store.pool.world ∧
      after.Even faithful session.thread) := by
  cases ends with
  | closed _ => exact Or.inl rfl
  | alreadyOpen _ _ => exact Or.inl rfl
  | unconnected _ outside acquired =>
      obtain ⟨_, same⟩ := Faithful.same_acquire orderly.valid acquired
      exact Or.inr ⟨outside, same.published, even_of_outside outside⟩
  | @begun pool lease connection world isOpen outside acquired held begins =>
      have confined := confined_of_begins regular orderly acquired held begins
      obtain ⟨other, serves, reading⟩ := reading_of_begins regular orderly
        (.begun isOpen outside acquired held begins)
      refine Or.inr ⟨outside, confined.published, ?_, ?_⟩
      · rw [view_of_serving serves]
        exact Perspective.seen_of_reading reading
      · exact owed_of_inside (transaction?_setTransaction_self _ _ _)
  | @refused pool lease connection world _ _ outside acquired held begins =>
      have confined := confined_of_begins regular orderly acquired held begins
      obtain ⟨released, _⟩ := @confined_released _ _ session faithful
        { store with pool := { pool with world := world } } _ _ _ rfl confined.valid held
      exact Or.inr ⟨outside, (confined.trans released).published, even_of_outside outside⟩

private theorem moves_begin {outcome : Except Error Unit}
    (ends : BeginEnds session store outcome after) : Moves faithful poses store after := by
  have shows : store.ShowsOnly after := by
    cases ends <;> exact showsOnly_of_same rfl
  rcases even_of_begins regular orderly ends with rfl | ⟨_, published, even⟩
  · exact .idle shows rfl rfl rfl
  · exact .evened shows published even

omit regular in
/-- What a thread has seen is published by its commit. -/
theorem even_of_commits (ends : CommitEnds session store (.ok ()) after) :
    after.Even faithful session.thread ∧
      faithful.published after.pool.world = store.view faithful session.thread := by
  cases ends with
  | @committed transaction connection world _ inside held commits =>
      obtain ⟨_, _, publishes, _⟩ := publishes_of_commit orderly inside held commits
        (pool_written transaction.writes store.cache.generation
          ((store.dropTransaction session.thread).withWorld world))
      refine ⟨even_of_outside ?_, ?_⟩
      · show (Store.written transaction.writes store.cache.generation
          ((store.dropTransaction session.thread).withWorld world)).transactions.lookup
            session.thread = none
        rw [transactions_written]
        exact transaction?_dropTransaction_self store session.thread
      · rw [view_of_serving (serving_eq_some inside held)]
        exact publishes

omit regular in
private theorem moves_commit {outcome : Except Error Unit}
    (ends : CommitEnds session store outcome after) : Moves faithful poses store after := by
  cases ends with
  | closed _ => exact .idle (showsOnly_of_same rfl) rfl rfl rfl
  | notOpen _ _ => exact .idle (showsOnly_of_same rfl) rfl rfl rfl
  | @committed transaction connection world isOpen inside held commits =>
      obtain ⟨even, publishes⟩ := even_of_commits orderly (.committed isOpen inside held commits)
      refine .committed even publishes ?_
      rw [owed_of_inside inside]
      exact fun key row => @shows_written _ ((store.dropTransaction session.thread).withWorld world)
        transaction.writes store.cache.generation key row
  | @refused transaction connection refused world _ _ _ inside held commits rolledBack =>
      exact moves_over (pool_rolledBack _ _ _) (transactions_rolledBack _ _ _)
        (cache_rolledBack _ _ _) held
        (confined_of_refused orderly (serving_eq_some inside held) commits rolledBack)

omit regular in
private theorem moves_rollback {outcome : Except Error Unit}
    (ends : RollbackEnds session store outcome after) : Moves faithful poses store after := by
  cases ends with
  | closed _ => exact .idle (showsOnly_of_same rfl) rfl rfl rfl
  | notOpen _ _ => exact .idle (showsOnly_of_same rfl) rfl rfl rfl
  | @rolledBack transaction connection world _ _ inside held rolledBack =>
      exact moves_over (pool_rolledBack _ _ _) (transactions_rolledBack _ _ _)
        (cache_rolledBack _ _ _) held (Faithful.confined_rollback orderly.valid rolledBack)

private theorem moves_close (ends : CloseEnds session store after) :
    Moves faithful poses store after := by
  have published := published_of_closes regular orderly ends
  cases ends with
  | again _ => exact .idle (showsOnly_of_same rfl) rfl rfl rfl
  | @closed between _ abandoned =>
      refine .evened (fun key row isShown => (Cache.not_shows_clear _ _ _ isShown).elim) published
        (even_of_outside ?_)
      show between.transactions.lookup session.thread = none
      rw [(regular.abandonsAll abandoned).2]
      rfl

theorem Stage.moves (stage : Stage session poses store ok after)
    (fits : ∀ mapping ∈ store.registry.mappings, layout.Fits mapping) :
    Moves faithful poses store after := by
  cases stage with
  | quiet quiet =>
      exact .idle (showsOnly_of_same quiet.cache) (by rw [quiet.pool]) quiet.view quiet.owed
  | looked key => exact .idle (fun _ _ => Cache.shows_get) rfl rfl rfl
  | cleared =>
      exact .idle (fun key row isShown => (Cache.not_shows_clear _ _ _ isShown).elim) rfl rfl rfl
  | unit posed ends => exact moves_unit regular orderly fits posed ends
  | began _ ends => exact moves_begin regular orderly ends
  | committed _ ends => exact moves_commit orderly ends
  | rolledBack _ ends => exact moves_rollback orderly ends
  | closed _ ends => exact moves_close regular orderly ends

end Stages

/-! ### Courses -/

theorem Moves.coherent (moves : Moves faithful poses store after) (grows : store.Grows after)
    (fits : ∀ mapping ∈ store.registry.mappings, layout.Fits mapping)
    (separates : layout.Separates (· ∈ store.registry.mappings))
    (sound : ∀ task, poses task → task.Sound (· ∈ store.registry.mappings))
    (careful : ∀ task, poses task → task.Careful layout (store.view faithful session.thread))
    (coherent : store.Coherent faithful session.thread) :
    after.Coherent faithful session.thread := by
  have soundly {task : Task} (posed : task = .read ∨ poses task) :
      task.Sound (· ∈ store.registry.mappings) := by
    rcases posed with rfl | posed
    · exact trivial
    · exact sound task posed
  have carefully {task : Task} (posed : task = .read ∨ poses task) :
      task.Careful layout (store.view faithful session.thread) := by
    rcases posed with rfl | posed
    · exact trivial
    · exact careful task posed
  cases moves with
  | idle shows published view owed =>
      refine ⟨?_, ?_⟩
      · rw [published]
        exact coherent.published.mono grows.registered shows
      · rw [view, owed]
        exact coherent.seen.mono grows.registered fun _ _ => alterAll_mono shows
  | evened shows published even =>
      refine even.coherent ?_
      rw [published]
      exact coherent.published.mono grows.registered shows
  | committed even published shows =>
      refine even.coherent ?_
      rw [published]
      exact coherent.seen.mono grows.registered shows
  | applied posed gives conforms even evenAfter replayed shows =>
      refine evenAfter.coherent ?_
      exact (coherent.published.task fits separates gives conforms replayed (soundly posed)
        (even.view ▸ carefully posed)).mono grows.registered shows
  | recorded posed gives conforms published replayed shows showsOwed =>
      refine ⟨?_, ?_⟩
      · rw [published]
        exact coherent.published.mono grows.registered shows
      · exact (coherent.seen.task fits separates gives conforms replayed (soundly posed)
          (carefully posed)).mono grows.registered showsOwed

theorem Course.coherent (course : Course session poses store ok after) (regular : store.Regular)
    (orderly : store.Orderly faithful)
    (fits : ∀ mapping ∈ after.registry.mappings, layout.Fits mapping)
    (separates : layout.Separates (· ∈ after.registry.mappings))
    (sound : ∀ task, poses task → task.Sound (· ∈ store.registry.mappings))
    (careful : ∀ task, poses task → task.Careful layout (store.view faithful session.thread))
    (coherent : store.Coherent faithful session.thread) :
    after.Coherent faithful session.thread := by
  -- The types of a store and of those after it.
  have earlier {store after : Store World} (grows : store.Grows after)
      (fits : ∀ mapping ∈ after.registry.mappings, layout.Fits mapping)
      (separates : layout.Separates (· ∈ after.registry.mappings)) :
      (∀ mapping ∈ store.registry.mappings, layout.Fits mapping) ∧
        layout.Separates (· ∈ store.registry.mappings) :=
    ⟨grows.forall_registered fits, separates.mono grows.registered⟩
  induction course with
  | ended => exact coherent
  | failed stage =>
      obtain ⟨fitsBefore, separatesBefore⟩ := earlier stage.grows fits separates
      exact (stage.moves regular orderly fitsBefore).coherent stage.grows fitsBefore
        separatesBefore sound careful coherent
  | @went _ store between after _ stage rest ih =>
      obtain ⟨fitsBetween, separatesBetween⟩ := earlier rest.grows fits separates
      obtain ⟨fitsBefore, separatesBefore⟩ := earlier stage.grows fitsBetween separatesBetween
      have turn := stage.turn regular orderly fitsBefore
      -- The task was for this stage: what the rest of the course does poses none.
      exact ih (stage.regular regular) (turn.orderly orderly regular.leased) fits separates
        (fun _ impossible => impossible.elim) (fun _ impossible => impossible.elim)
        ((stage.moves regular orderly fitsBefore).coherent stage.grows fitsBefore
          separatesBefore sound careful coherent)

end Store

/-! ### Actions -/

section Saves

variable {World : Type} {layout : Layout} {database : Database World} {store : Store World}
  {thread : ThreadId} {root : InstanceId} {graph : Graph} {dialect : Dialect}

/-- The changed instances that a save writes know no row or the one that the thread sees, and
each is the only one of its row. -/
structure Store.SavesCurrent (faithful : Faithful layout database) (thread : ThreadId)
    (store : Store World) (root : InstanceId) : Prop where
  current : ∀ subject, Reaches store.memory root subject →
    (store.instanceAt subject).state = .dirty → ∀ row id,
    (store.instanceAt subject).row = some row → (store.instanceAt subject).key.id = some id →
    ∃ fields,
      store.view faithful thread (layout.tableOf (store.instanceAt subject).mapping) id
        = some fields ∧ layout.Agrees (store.instanceAt subject).mapping row fields
  sole : ∀ first second, Reaches store.memory root first → Reaches store.memory root second →
    (store.instanceAt first).state = .dirty → (store.instanceAt second).state = .dirty →
    layout.tableOf (store.instanceAt first).mapping
      = layout.tableOf (store.instanceAt second).mapping →
    (store.instanceAt first).key.id = (store.instanceAt second).key.id → first = second

/-- No table is dropped, and what is saved knows current rows. -/
def Action.Careful (faithful : Faithful layout database) (thread : ThreadId)
    (store : Store World) : Action → Prop
  | save root => store.SavesCurrent faithful thread root
  | drop => False
  | _ => True

namespace Store

theorem Sound.savesWhole (sound : store.Sound)
    (collected : Graph.collect store.id store.memory root = .ok graph) :
    Task.SavesWhole (· ∈ store.registry.mappings) (graph.plan dialect) := by
  refine ⟨List.Nodup.of_map _ (Graph.places_plan dialect graph),
    fun planned member _ => sound.fit_of_plan collected member, ?_⟩
  intro planned member isNew column isColumn
  obtain ⟨property, declared, same⟩ := List.mem_filterMap.mp isColumn
  cases property with
  | scalar property =>
      cases same
      exact ⟨_, assignment_of_new member isNew declared (assignment?_scalar isNew property), rfl⟩
  | object relation =>
      cases same
      exact ⟨_, assignment_of_new member isNew declared (assignment?_object isNew relation), rfl⟩
  | collection relation => cases same

private theorem savesCurrent_of_alone {faithful : Faithful layout database}
    (alone : (Node.ofMemory store.memory root).content.targets = [])
    (current : (store.instanceAt root).state = .dirty → ∀ row id,
      (store.instanceAt root).row = some row → (store.instanceAt root).key.id = some id →
      ∃ fields,
        store.view faithful thread (layout.tableOf (store.instanceAt root).mapping) id
          = some fields ∧ layout.Agrees (store.instanceAt root).mapping row fields) :
    store.SavesCurrent faithful thread root := by
  refine ⟨fun subject reaches => ?_, fun first second toFirst toSecond _ _ _ _ =>
    (eq_of_reaches alone toFirst).trans (eq_of_reaches alone toSecond).symm⟩
  rw [eq_of_reaches alone reaches]
  exact current

theorem SavesCurrent.plan {faithful : Faithful layout database} (sound : store.Sound)
    (inMemory : root < store.memory.size) (careful : store.SavesCurrent faithful thread root)
    (collected : Graph.collect store.id store.memory root = .ok graph) :
    Task.SavesCurrent layout (store.view faithful thread) (graph.plan dialect) := by
  refine ⟨fun planned member dirty row id isRow keyed => ?_, ?_⟩
  · have same := @sound.instanceAt_plan _ _ _ _ dialect collected _ member
    rw [← same] at dirty isRow keyed
    obtain ⟨fields, found, agrees⟩ := careful.current _
      (sound.reaches_of_plan inMemory collected member) dirty row id isRow keyed
    rw [same] at found agrees
    exact ⟨fields, found, agrees⟩
  · rintro first isFirst second isSecond address ⟨firstDirty, firstId, firstKeyed, rfl⟩
      ⟨secondDirty, secondId, secondKeyed, same⟩
    have firstContent := sound.instanceAt_plan collected isFirst
    have secondContent := sound.instanceAt_plan collected isSecond
    refine planned_eq_of_subject collected isFirst isSecond (careful.sole _ _
      (sound.reaches_of_plan inMemory collected isFirst)
      (sound.reaches_of_plan inMemory collected isSecond) ?_ ?_ ?_ ?_)
    · rw [firstContent]
      exact firstDirty
    · rw [secondContent]
      exact secondDirty
    · rw [firstContent, secondContent]
      exact (congrArg Prod.fst same).symm
    · rw [firstContent, secondContent, firstKeyed, secondKeyed]
      exact congrArg (some ∘ Prod.snd) same.symm

end Store

namespace Action

variable {session : Session World} {faithful : Faithful layout session.database}
  {action : Action} {task : Task}

theorem sound_of_poses (sound : store.Sound) (inMemory : action.InMemory store.memory.size)
    (posed : action.Poses session store task) : task.Sound (· ∈ store.registry.mappings) := by
  cases action with
  | save root =>
      obtain ⟨graph, collected, rfl⟩ := posed
      exact sound.savesWhole collected
  | remove subject =>
      cases posed
      have isSound := sound.instanceAt inMemory
      exact ⟨isSound.registered, isSound.sound.entity⟩
  | sync | drop | begin | commit | rollback | close =>
      cases posed
      exact trivial
  | _ => exact posed.elim

theorem careful_of_poses (sound : store.Sound) (inMemory : action.InMemory store.memory.size)
    (careful : action.Careful faithful thread store) (posed : action.Poses session store task) :
    task.Careful layout (store.view faithful thread) := by
  cases action with
  | save root =>
      obtain ⟨graph, collected, rfl⟩ := posed
      exact careful.plan sound inMemory collected
  | drop => exact careful.elim
  | remove | sync | begin | commit | rollback | close =>
      cases posed
      exact trivial
  | _ => exact posed.elim

end Action

end Saves

namespace Deployment

variable {World : Type} {layout : Layout} {deployment : Deployment World}
  {faithful : Faithful layout deployment.database} {thread : ThreadId} {store : Store World}

/-- One thread acts, and carefully. -/
def Carefully (faithful : Faithful layout deployment.database) (thread : ThreadId)
    (store : Store World) (other : ThreadId) (action : Action) : Prop :=
  other = thread ∧ action.Careful faithful thread store

theorem Reached.coherent (rest : faithful.AtRest deployment.world)
    (keyed : layout.Keyed (faithful.published deployment.world))
    (reached : deployment.Reached (Carefully faithful thread) store)
    (fits : ∀ mapping ∈ store.registry.mappings, layout.Fits mapping)
    (separates : layout.Separates (· ∈ store.registry.mappings)) :
    store.Coherent faithful thread := by
  induction reached with
  | created created =>
      obtain ⟨pool, made, rfl⟩ := create_ok created
      obtain ⟨_, same⟩ := Faithful.same_create rest.valid made
      refine (Store.even_of_outside rfl).coherent ⟨?_, fun _ _ impossible => by cases impossible⟩
      show layout.Keyed (faithful.published pool.world)
      rw [same.published]
      exact keyed
  | @acted store after other action outcome reached allowed inMemory ran ih =>
      obtain ⟨rfl, careful⟩ := allowed
      have regular := reached.regular
      have course := (Action.follows_perform regular inMemory).of_run ran
      have fitsBefore : ∀ mapping ∈ store.registry.mappings, layout.Fits mapping :=
        course.grows.forall_registered fits
      have coherent := ih fitsBefore (separates.mono course.grows.registered)
      exact @Store.Course.coherent _ _ (deployment.session other) faithful _ _ _ _ course regular
        (reached.orderly rest fitsBefore) fits separates
        (fun _ => Action.sound_of_poses regular.sound inMemory)
        (fun _ => Action.careful_of_poses regular.sound inMemory careful) coherent

/-- Every row in the cache is held in the database and agrees with it on every mapped column,
if one thread acts, drops no tables and saves only what knows current rows. -/
theorem cache_reflects_database (rest : faithful.AtRest deployment.world)
    (keyed : layout.Keyed (faithful.published deployment.world))
    (reached : deployment.Reached (Carefully faithful thread) store)
    (fits : ∀ mapping ∈ store.registry.mappings, layout.Fits mapping)
    (separates : layout.Separates (· ∈ store.registry.mappings)) {key : Key} {row : Row}
    (cached : store.cache.find? key = some row) :
    ∃ mapping ∈ store.registry.mappings, ∃ id fields, key = Key.withId mapping.entity id ∧
      faithful.published store.pool.world (layout.tableOf mapping) id = some fields ∧
      layout.Agrees mapping row fields := by
  obtain ⟨mapping, id, fields, isRegistered, isKey, found, agrees⟩ :=
    (reached.coherent rest keyed fits separates).published.reflects key row cached
  exact ⟨mapping, isRegistered, id, fields, isKey, found, agrees⟩

set_option maxRecDepth 100000 in
/-- Ada is saved, renamed and saved again: the cache has her by her new name, and so has the
database. -/
theorem cache_reflects_database_renamed : ∃ store : Store Tables.World, ∃ row,
    Samples.deployment.Reached (Carefully Samples.faithful 0) store ∧
      store.cache.find? (Key.withId "Person" 1) = some row ∧
      row.get? "name" = some (.text "Bo") ∧
      ∃ mapping ∈ store.registry.mappings, ∃ id fields,
        Key.withId "Person" 1 = Key.withId mapping.entity id ∧
        Samples.faithful.published store.pool.world
          ((Tables.layout fun _ => "id").tableOf mapping) id = some fields ∧
        (Tables.layout fun _ => "id").Agrees mapping row fields := by
  have created (store : Store Tables.World) (visited : Samples.deployment.visited?
      (Samples.settled 0 ++ [(0, Samples.person "Ada")]) = some store) :
      Samples.deployment.Reached (Carefully Samples.faithful 0) store := by
    refine reached_visited (fun store thread action member => ?_) visited
    simp only [Samples.settled, List.cons_append, List.nil_append, List.mem_cons,
      List.not_mem_nil, or_false, Prod.mk.injEq] at member
    rcases member with ⟨rfl, rfl⟩ | ⟨rfl, rfl⟩ | ⟨rfl, rfl⟩ <;> exact ⟨rfl, trivial⟩
  -- When she is new she has no row, and then she has the one that was saved.
  have new : ∀ store ∈ Samples.deployment.visited?
      (Samples.settled 0 ++ [(0, Samples.person "Ada")]),
      (store.instanceAt 0).state = .transient ∧
        (Node.ofMemory store.memory 0).content.targets = [] := by
    decide +kernel
  have renamed : ∀ store ∈ Samples.deployment.visited? (Samples.saved ++
      [(0, .assign 0 "name" (.value (.text "Bo")))]),
      (Node.ofMemory store.memory 0).content.targets = [] ∧
        (store.transaction? 0).isNone = true ∧ (store.instanceAt 0).key.id = some 1 ∧
        (store.pool.world.published.contents ((Tables.layout fun _ => "id").tableOf
            (store.instanceAt 0).mapping) 1).map
          (fun fields => (store.instanceAt 0).mapping.columns.map fun column =>
            some (fields ((Tables.layout fun _ => "id").column column)))
          = (store.instanceAt 0).row.map
            fun row => (store.instanceAt 0).mapping.columns.map row.get? := by
    decide +kernel
  have facts : ∀ store ∈ Samples.deployment.visited? (Samples.settled 0 ++ Samples.renamed),
      (store.cache.find? (Key.withId "Person" 1)).map (fun row => row.get? "name")
          = some (some (.text "Bo")) ∧
        (∀ mapping ∈ store.registry.mappings, (Tables.layout fun _ => "id").column
          mapping.id.column = (Tables.layout fun _ => "id").column "id") ∧
        ∀ first ∈ store.registry.mappings, ∀ second ∈ store.registry.mappings,
          first = second := by
    decide +kernel
  obtain ⟨store, visited⟩ : ∃ store, Samples.deployment.visited?
      (Samples.settled 0 ++ Samples.renamed) = some store :=
    Option.isSome_iff_exists.mp (by decide +kernel)
  obtain ⟨cached, keyColumns, single⟩ := facts store visited
  obtain ⟨row, isCached, isName⟩ := Option.map_eq_some_iff.mp cached
  have saved := @reached_snoc _ _ _ _ 0 (.save 0) created fun store visited => by
    obtain ⟨transient, alone⟩ := new store visited
    refine ⟨rfl, Store.savesCurrent_of_alone alone fun dirty => ?_⟩
    rw [transient] at dirty
    cases dirty
  have assigned := @reached_snoc _ _ _ _ 0 (.assign 0 "name" (.value (.text "Bo"))) saved
    fun _ _ => ⟨rfl, trivial⟩
  have savedAgain := @reached_snoc _ _ _ _ 0 (.save 0) assigned fun store visited => by
    obtain ⟨alone, outside, keyed, same⟩ := renamed store visited
    refine ⟨rfl, Store.savesCurrent_of_alone alone fun _ row id isRow isId => ?_⟩
    rw [isRow] at same
    obtain ⟨fields, found, shows⟩ := Option.map_eq_some_iff.mp same
    obtain rfl : 1 = id := Option.some.inj (keyed.symm.trans isId)
    rw [Store.view_of_outside (Option.isNone_iff_eq_none.mp outside)]
    exact ⟨fields, found, .of_shows fun column member =>
      (List.map_inj_left.mp shows column member).symm⟩
  have reached := savedAgain store visited
  refine ⟨store, row, reached, isCached, isName, cache_reflects_database
    (Tables.atRest_empty _ _) (fun _ _ _ impossible => by cases impossible) reached
    (fun mapping member =>
      ⟨reached.regular.sound.registry.mappings mapping member, keyColumns mapping member⟩)
    (fun first second isFirst isSecond _ => single first isFirst second isSecond) isCached⟩

end Deployment
end EntityStore
