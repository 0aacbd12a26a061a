/-
The stages of an operation. Whatever an operation does to a store is a course of stages:
edits in memory, looks into the cache, and units of work or boundaries of transactions,
of which the first is the task that the operation is for and all others only read.
Failing stages end the course.
-/

import EntityStore.Proofs.Regularity
import EntityStore.Proofs.Saving
import EntityStore.Store.Schema

set_option autoImplicit false

namespace EntityStore

inductive Task where
  | read
  /-- Creates the tables that are missing. -/
  | sync
  | drop
  | save (plan : List PlannedNode)
  | removal (content : Instance)
  | begin
  | commit
  | rollback
  | close

def Event.Creates (event : Event) : Prop :=
  ∀ statement, event = .executed statement →
    (∃ table idColumn columns, statement.request = .createTable table idColumn columns) ∨
      ∃ sequence, statement.request = .createSequence sequence

inductive Fetched (dialect : Dialect) (fits : Mapping → Prop) :
    List (Key × Row) → List Event → Prop where
  | nothing : Fetched dialect fits [] []
  | missing {mapping : Mapping} (id : Int64) {rows : List Row} : fits mapping →
      rows.head? = none →
      Fetched dialect fits [] [.answered (Statement.selectById dialect mapping id) rows]
  | row {mapping : Mapping} (id : Int64) {rows : List Row} {row : Row} : fits mapping →
      rows.head? = some row →
      Fetched dialect fits [(Key.withId mapping.entity id, row)]
        [.answered (Statement.selectById dialect mapping id) rows]
  | selected {query : Query} (page : Page) (values : List Value) {rows : List Row}
      {entries : List (Key × Row)} : fits query.root → query.root.hydrateAll rows = .ok entries →
      Fetched dialect fits entries [.answered (Statement.select dialect query page values) rows]

inductive RowKnown (dialect : Dialect) (content : Instance) (id : Int64) :
    Option Row → List Event → Prop where
  | held {row : Row} : content.row = some row → RowKnown dialect content id (some row) []
  | fetched {rows : List Row} : content.row = none →
      RowKnown dialect content id rows.head?
        [.answered (Statement.selectById dialect content.mapping id) rows]

inductive Task.Gives (dialect : Dialect) (fits : Mapping → Prop) :
    Task → WriteSet → List Event → Prop where
  | read {entries : List (Key × Row)} {log : List Event} : Fetched dialect fits entries log →
      Gives dialect fits .read (WriteSet.ofFills entries) log
  | sync {log : List Event} : (∀ event ∈ log, event.Creates) → Gives dialect fits .sync {} log
  | drop (log : List Event) : Gives dialect fits .drop {} log
  | save {plan : List PlannedNode} (writing : Writing dialect plan) :
      Gives dialect fits (.save plan) (WriteSet.ofWritten writing.written) writing.log
  | removal {content : Instance} {id : Int64} {row : Option Row} {log : List Event} :
      content.key.id = some id → RowKnown dialect content id row log →
      Gives dialect fits (.removal content)
        (WriteSet.ofRemoval content.mapping content.key row)
        (log ++ [.executed (Statement.delete dialect content.mapping id)])

/-- What of a transaction concerns the database and the cache. -/
def Transaction.core (transaction : Transaction) : LeaseId × WriteSet :=
  (transaction.lease, transaction.writes)

namespace Store

variable {World : Type}

structure Quiet (store after : Store World) : Prop where
  pool : after.pool = store.pool
  cache : after.cache = store.cache
  isOpen : after.isOpen = store.isOpen
  transactions : ∀ thread,
    (after.transaction? thread).map Transaction.core =
      (store.transaction? thread).map Transaction.core
  registered : ∀ mapping ∈ store.registry.mappings, mapping ∈ after.registry.mappings
  size : store.memory.size ≤ after.memory.size
  regular : store.Regular → after.Regular

theorem Quiet.refl (store : Store World) : store.Quiet store :=
  ⟨rfl, rfl, rfl, fun _ => rfl, fun _ member => member, Nat.le_refl _, fun regular => regular⟩

theorem Quiet.trans {store between after : Store World} (first : store.Quiet between)
    (second : between.Quiet after) : store.Quiet after where
  pool := second.pool.trans first.pool
  cache := second.cache.trans first.cache
  isOpen := second.isOpen.trans first.isOpen
  transactions thread := (second.transactions thread).trans (first.transactions thread)
  registered mapping member := second.registered mapping (first.registered mapping member)
  size := Nat.le_trans first.size second.size
  regular regular := second.regular (first.regular regular)

/-- A stage of an operation; the flag tells whether it succeeded. -/
inductive Stage (session : Session World) (poses : Task → Prop) (store : Store World) :
    Bool → Store World → Prop where
  | quiet {after : Store World} : store.Quiet after → Stage session poses store true after
  | looked (key : Key) :
      Stage session poses store true { store with cache := (store.cache.get key).2 }
  | cleared : Stage session poses store true { store with cache := store.cache.clear }
  | unit {α : Type} {task : Task} {transactional : Bool} {outcome : Except Error α}
      {after : Store World} : task = .read ∨ poses task →
      UnitEnds session (Question.Issued (· ∈ store.registry.mappings) transactional) transactional
        (fun result log =>
          task.Gives session.dialect (· ∈ store.registry.mappings) result.2 log)
        store outcome after →
      Stage session poses store outcome.isOk after
  | began {outcome : Except Error Unit} {after : Store World} : poses .begin →
      BeginEnds session store outcome after → Stage session poses store outcome.isOk after
  | committed {outcome : Except Error Unit} {after : Store World} : poses .commit →
      CommitEnds session store outcome after → Stage session poses store outcome.isOk after
  | rolledBack {outcome : Except Error Unit} {after : Store World} : poses .rollback →
      RollbackEnds session store outcome after → Stage session poses store outcome.isOk after
  | closed {after : Store World} : poses .close → CloseEnds session store after →
      Stage session poses store true after

def onlyReads (_ : Task) : Prop := False

inductive Course (session : Session World) :
    (Task → Prop) → Store World → Bool → Store World → Prop where
  | ended (poses : Task → Prop) (ok : Bool) (store : Store World) :
      Course session poses store ok store
  | failed {poses : Task → Prop} {store after : Store World} :
      Stage session poses store false after → Course session poses store false after
  | went {poses : Task → Prop} {store between after : Store World} {ok : Bool} :
      Stage session poses store true between → Course session onlyReads between ok after →
      Course session poses store ok after

variable {session : Session World} {poses : Task → Prop} {store between after : Store World}
  {ok : Bool}

theorem Stage.weaken (stage : Stage session onlyReads store ok after) :
    Stage session poses store ok after := by
  cases stage with
  | quiet quiet => exact .quiet quiet
  | looked key => exact .looked key
  | cleared => exact .cleared
  | unit reads ends => exact .unit (Or.inl (reads.resolve_right fun impossible => impossible)) ends
  | began posed _ => exact posed.elim
  | committed posed _ => exact posed.elim
  | rolledBack posed _ => exact posed.elim
  | closed posed _ => exact posed.elim

theorem Course.weaken (course : Course session onlyReads store ok after) :
    Course session poses store ok after := by
  cases course with
  | ended => exact .ended poses ok store
  | failed stage => exact .failed stage.weaken
  | went stage rest => exact .went stage.weaken rest

theorem Course.one (stage : Stage session poses store ok after) :
    Course session poses store ok after := by
  cases ok with
  | true => exact .went stage (.ended _ true after)
  | false => exact .failed stage

theorem Course.append (first : Course session poses store true between)
    (second : Course session onlyReads between ok after) :
    Course session poses store ok after := by
  generalize succeeded : true = flag at first
  induction first with
  | ended => exact second.weaken
  | failed _ => cases succeeded
  | went stage _ ih => exact .went stage (ih second succeeded)

/-! ### What stages keep -/

theorem Stage.regular (stage : Stage session poses store ok after) (regular : store.Regular) :
    after.Regular := by
  cases stage with
  | quiet quiet => exact quiet.regular regular
  | looked key =>
      exact ⟨regular.sound.transfer_same rfl rfl rfl, regular.leased.transfer_same rfl rfl⟩
  | cleared =>
      exact ⟨regular.sound.transfer_same rfl rfl rfl, regular.leased.transfer_same rfl rfl⟩
  | unit _ ends => exact regular.unit ends
  | began _ ends => exact regular.begins ends
  | committed _ ends => exact regular.commits ends
  | rolledBack _ ends => exact regular.rollsBack ends
  | closed _ ends => exact regular.closes ends

theorem Course.regular (course : Course session poses store ok after)
    (regular : store.Regular) : after.Regular := by
  induction course with
  | ended => exact regular
  | failed stage => exact stage.regular regular
  | went stage _ ih => exact ih (stage.regular regular)

structure Grows (store after : Store World) : Prop where
  registered : ∀ mapping ∈ store.registry.mappings, mapping ∈ after.registry.mappings
  size : store.memory.size ≤ after.memory.size

theorem Grows.of_extent (same : after.extent = store.extent) : store.Grows after := by
  have registry : after.registry = store.registry := congrArg Prod.fst same
  have size : after.memory.size = store.memory.size := congrArg Prod.snd same
  exact ⟨fun mapping member => registry ▸ member, Nat.le_of_eq size.symm⟩

theorem Grows.trans (first : store.Grows between) (second : between.Grows after) :
    store.Grows after :=
  ⟨fun mapping member => second.registered mapping (first.registered mapping member),
    Nat.le_trans first.size second.size⟩

/-- What holds of every type that is registered afterwards holds of those from before. -/
theorem Grows.forall_registered {holds : Mapping → Prop} (grows : store.Grows after)
    (all : ∀ mapping ∈ after.registry.mappings, holds mapping) :
    ∀ mapping ∈ store.registry.mappings, holds mapping :=
  fun mapping member => all mapping (grows.registered mapping member)

theorem Stage.grows (stage : Stage session poses store ok after) : store.Grows after := by
  cases stage with
  | quiet quiet => exact ⟨quiet.registered, quiet.size⟩
  | looked key => exact .of_extent rfl
  | cleared => exact .of_extent rfl
  | unit _ ends => exact .of_extent ends.extent
  | began _ ends => cases ends <;> exact .of_extent rfl
  | committed _ ends => exact .of_extent ends.extent
  | rolledBack _ ends => exact .of_extent ends.extent
  | closed _ ends => exact .of_extent ends.extent

theorem Course.grows (course : Course session poses store ok after) : store.Grows after := by
  induction course with
  | ended => exact .of_extent rfl
  | failed stage => exact stage.grows
  | went stage _ ih => exact stage.grows.trans ih

/-! ### Operations that follow a course -/

/-- From a regular store, the operation follows a course of stages. -/
def Follows {α : Type} (session : Session World) (poses : Task → Prop)
    (operation : Operation World α) (store : Store World) : Prop :=
  Ensures operation store fun outcome after => Course session poses store outcome.isOk after

section Rules

variable {α β : Type} {operation : Operation World α} {next : α → Operation World β}

private theorem follows_of_same {outcome : Except Error α}
    (ran : operation.run store = (outcome, store)) : Follows session poses operation store := by
  unfold Follows Ensures
  rw [ran]
  exact .ended poses _ store

theorem follows_pure (result : α) : Follows session poses (pure result) store :=
  follows_of_same rfl

theorem follows_throw (error : Error) :
    Follows session poses (throw error : Operation World α) store := follows_of_same rfl

theorem follows_modify {change : Store World → Store World} (quiet : store.Quiet (change store)) :
    Follows session poses (modify change) store :=
  Course.one (.quiet quiet)

theorem follows_bind_same {outcome : Except Error α}
    (ran : operation.run store = (outcome, store))
    (later : ∀ result, outcome = .ok result → Follows session poses (next result) store) :
    Follows session poses (operation >>= next) store := by
  apply ensures_bind
  unfold Ensures
  rw [ran]
  cases outcome with
  | ok result => exact later result rfl
  | error error => exact .ended poses false store

/-- What follows an operation must only read. -/
theorem follows_bind (first : Follows session poses operation store)
    (later : ∀ result between, operation.run store = (.ok result, between) →
      Course session poses store true between →
      Follows session onlyReads (next result) between) :
    Follows session poses (operation >>= next) store := by
  apply ensures_bind
  unfold Follows Ensures at first
  unfold Ensures
  rcases ran : operation.run store with ⟨outcome, between⟩
  rw [ran] at first
  cases outcome with
  | ok result => exact (later result between ran first).weaken fun _ _ second => first.append second
  | error error => exact first

theorem follows_get_bind {next : Store World → Operation World β}
    (later : Follows session poses (next store) store) :
    Follows session poses (get >>= next) store :=
  follows_bind_same (run_get store) fun result same => by
    cases same
    exact later

theorem follows_ensureOpen_bind {next : Unit → Operation World β}
    (later : store.isOpen = true → Follows session poses (next ()) store) :
    Follows session poses (ensureOpen >>= next) store := by
  have ran := run_ensureOpen store
  cases isOpen : store.isOpen with
  | true =>
      rw [isOpen] at ran
      exact follows_bind_same ran fun _ _ => later isOpen
  | false =>
      rw [isOpen] at ran
      exact follows_bind_same ran fun _ impossible => (by cases impossible)

end Rules

end Store
end EntityStore
