/-
Synchronising and dropping, by the tables that a thread sees: those of its open transaction, or
else those that are there for everybody. What is missing is created, once and in the order of
definition, and nothing when it is synchronised again; after a drop no table of a type is left.
-/

import EntityStore.Proofs.CreatedTables
import EntityStore.Proofs.Orderly
import EntityStore.Proofs.Runs
import EntityStore.Proofs.TablePlaces

set_option autoImplicit false

namespace EntityStore

/-! ### Brackets -/

namespace Traced

variable {World α : Type} {inner : Database World} {connection : ConnectionId}

private theorem executed_of_silent {deed : Deed} {rows : α → List Row} {request : Call World α}
    {traced after : Traced World} {outcome : Except DatabaseError α}
    (ended : tracing connection deed rows request traced = (outcome, after))
    (silent : deed.executed? = none) : after.executed = traced.executed := by
  rw [executed_of_tracing ended, silent, Option.toList_none, List.append_nil]

private theorem executed_release (pool : Pool (Traced World)) (now : Nat) (lease : LeaseId) :
    (pool.release (database inner) now lease).world.executed = pool.world.executed :=
  Pool.view_release (fun _ _ => executed_of_silent rfl rfl) (fun _ _ => rfl)
    (fun _ _ => executed_of_silent rfl rfl) now lease pool

end Traced

namespace Catalogue

variable {World α : Type} {inner : Deployment World} (catalogue : Catalogue inner.database)

structure Rests (tables : Set catalogue.Place) (statements : List Statement)
    (traced : Traced World) : Prop where
  valid : catalogue.Valid traced.world
  published : catalogue.published traced.world = tables
  executed : traced.executed = statements

variable {catalogue} {tables : Set catalogue.Place} {statements : List Statement}
  {pool : Pool (Traced World)} {connection : ConnectionId}

private theorem rests_connect (connection : ConnectionId) (traced : Traced World)
    (rests : catalogue.Rests tables statements traced) :
    catalogue.Rests tables statements (inner.traced.database.connect connection traced).2 := by
  obtain ⟨valid, published⟩ := catalogue.connect connection traced.world rests.valid
  exact ⟨valid, published.trans rests.published,
    (Traced.executed_of_silent rfl rfl).trans rests.executed⟩

private theorem rests_acquire (rests : catalogue.Rests tables statements pool.world) :
    catalogue.Rests tables statements (pool.acquire inner.traced.database).2.world :=
  Pool.holds_acquire rests_connect rests

private theorem rests_release (rests : catalogue.Rests tables statements pool.world) (now : Nat)
    (lease : LeaseId) :
    catalogue.Rests tables statements (pool.release inner.traced.database now lease).world := by
  refine Pool.holds_release rests_connect ?_ ?_ rests now lease
  · intro connection traced rests
    obtain ⟨valid, published⟩ := catalogue.isValid connection traced.world rests.valid
    exact ⟨valid, published.trans rests.published, rests.executed⟩
  · intro connection traced rests
    obtain ⟨valid, published⟩ := catalogue.close connection traced.world rests.valid
    exact ⟨valid, published.trans rests.published,
      (Traced.executed_of_silent rfl rfl).trans rests.executed⟩

variable {effect : Set catalogue.Place → Except Error α → Set catalogue.Place →
  List Statement → Prop}

private theorem within_begin {before begun : Traced World}
    (rests : catalogue.Rests tables statements before)
    (begins : inner.traced.database.begin connection before = (.ok (), begun)) :
    catalogue.Within connection begun.world ∧
      catalogue.seen begun.world connection = tables ∧ begun.executed = statements := by
  have same := Traced.executed_of_silent begins rfl
  obtain ⟨begunInner, sameWorld⟩ := Prod.mk.inj begins
  obtain ⟨valid, inside, sees⟩ := catalogue.begin connection before.world begun.world rests.valid
    (Prod.ext begunInner (congrArg Traced.world sameWorld))
  exact ⟨⟨valid, inside⟩, sees.trans rests.published, same.trans rests.executed⟩

/-- What the connection saw is there for everybody once its transaction is committed. -/
theorem rests_commit {worked after : Traced World}
    (within : catalogue.Within connection worked.world)
    (commits : inner.traced.database.commit connection worked = (.ok (), after)) :
    catalogue.Rests (catalogue.seen worked.world connection) worked.executed after := by
  have same := Traced.executed_of_silent commits rfl
  obtain ⟨committed, sameWorld⟩ := Prod.mk.inj commits
  obtain ⟨valid, published⟩ := catalogue.commit connection _ after.world within.1 within.2
    (Prod.ext committed (congrArg Traced.world sameWorld))
  exact ⟨valid, published, same⟩

/-- What a bracket executes has the effect on what was published, if anything is executed at all;
where the bracket succeeds, what is there afterwards is published. -/
theorem altered_bracket {before after : Traced World} {outcome : Except Error α}
    (rests : catalogue.Rests tables statements before)
    (runs : Store.BracketRuns inner.traced.database connection
      (catalogue.Effects effect connection) true before outcome after) :
    ∃ executed, after.executed = statements ++ executed ∧
      (executed = [] ∨ ∃ done left, effect tables done left executed) ∧
      ∀ result, outcome = .ok result → ∃ left, effect tables (.ok result) left executed ∧
        catalogue.Rests left (statements ++ executed) after := by
  cases runs with
  | notBegun refused =>
      refine ⟨[], ?_, Or.inl rfl, fun _ impossible => by cases impossible⟩
      rw [Traced.executed_of_silent refused rfl, rests.executed, List.append_nil]
  | failed begun done rolledBack =>
      obtain ⟨within, sees, same⟩ := within_begin rests begun
      obtain ⟨executed, grown, effected, _⟩ := done within
      refine ⟨executed, ?_, Or.inr ⟨_, _, sees ▸ effected⟩, fun _ impossible => by cases impossible⟩
      rw [Traced.executed_of_silent rolledBack rfl, grown, same]
  | notCommitted begun done refused rolledBack =>
      obtain ⟨within, sees, same⟩ := within_begin rests begun
      obtain ⟨executed, grown, effected, _⟩ := done within
      refine ⟨executed, ?_, Or.inr ⟨_, _, sees ▸ effected⟩, fun _ impossible => by cases impossible⟩
      rw [Traced.executed_of_silent rolledBack rfl, Traced.executed_of_silent refused rfl, grown,
        same]
  | committed begun done commits =>
      obtain ⟨within, sees, same⟩ := within_begin rests begun
      obtain ⟨executed, grown, effected, stays⟩ := done within
      rw [sees] at effected
      rw [same] at grown
      have restsAfter := rests_commit (stays ⟨_, rfl⟩) commits
      rw [grown] at restsAfter
      refine ⟨executed, restsAfter.executed, Or.inr ⟨_, _, effected⟩, fun other sameResult => ?_⟩
      cases sameResult
      exact ⟨_, effected, restsAfter⟩

end Catalogue

/-! ### Units -/

namespace Store

variable {World α : Type} {inner : Deployment World} {thread : ThreadId}

/-- The tables as a thread sees them: those of its open transaction, or else those that are there
for everybody. -/
def tables (catalogue : Catalogue inner.database) (thread : ThreadId)
    (store : Store (Traced World)) : Set catalogue.Place :=
  match store.serving thread with
  | some connection => catalogue.seen store.pool.world.world connection
  | none => catalogue.published store.pool.world.world

def executed (store : Store (Traced World)) : List Statement := store.pool.world.executed

structure Ready (catalogue : Catalogue inner.database) (thread : ThreadId)
    (store : Store (Traced World)) : Prop where
  valid : catalogue.Valid store.pool.world.world
  inside : ∀ connection, store.serving thread = some connection →
    inner.database.inTransaction connection store.pool.world.world = true

/-- How work with a known effect ends in a store: what is executed has the effect on the tables
that the thread sees, if anything is executed at all. Where the work succeeds, it sees the tables
that the effect leaves. -/
def TablesAltered (catalogue : Catalogue inner.database) (thread : ThreadId)
    (effect : Set catalogue.Place → Except Error α → Set catalogue.Place → List Statement → Prop)
    (store : Store (Traced World)) (outcome : Except Error α) (after : Store (Traced World)) :
    Prop :=
  ∃ statements, after.executed = store.executed ++ statements ∧
    (statements = [] ∨ ∃ done left, effect (store.tables catalogue thread) done left statements) ∧
    ∀ result, outcome = .ok result →
      effect (store.tables catalogue thread) (.ok result) (after.tables catalogue thread)
        statements ∧
      after.Ready catalogue thread ∧ after.registry = store.registry

variable {catalogue : Catalogue inner.database} {store after : Store (Traced World)}

private theorem tables_inside {connection : ConnectionId}
    (serves : store.serving thread = some connection) :
    store.tables catalogue thread = catalogue.seen store.pool.world.world connection := by
  unfold tables
  rw [serves]

private theorem tables_outside (serves : store.serving thread = none) :
    store.tables catalogue thread = catalogue.published store.pool.world.world := by
  unfold tables
  rw [serves]

private theorem ready_of_rests {left : Set catalogue.Place} {statements : List Statement}
    (serves : after.serving thread = none)
    (rests : catalogue.Rests left statements after.pool.world) :
    after.Ready catalogue thread ∧ after.tables catalogue thread = left ∧
      after.executed = statements := by
  refine ⟨⟨rests.valid, fun connection served => ?_⟩, ?_, rests.executed⟩
  · rw [serves] at served
    cases served
  · exact (tables_outside serves).trans rests.published

section Units

variable {work : Work (Traced World) α} {connection : ConnectionId} {world : Traced World}
  {effect : Set catalogue.Place → Except Error α → Set catalogue.Place → List Statement → Prop}
  {does : Set catalogue.Place → Except Error (α × WriteSet) → Set catalogue.Place →
    List Statement → Prop}
  (gives : ∀ before outcome after statements, does before outcome after statements →
    effect before (outcome.map Prod.fst) after statements)

private theorem tablesAltered_failed {error : Error} {statements : List Statement}
    (grown : after.executed = store.executed ++ statements)
    (effected : statements = [] ∨
      ∃ done left, effect (store.tables catalogue thread) done left statements) :
    store.TablesAltered catalogue thread effect (.error error) after :=
  ⟨statements, grown, effected, fun _ impossible => by cases impossible⟩

private theorem tablesAltered_released {between : Store (Traced World)} {lease : LeaseId}
    {result : α} {left : Set catalogue.Place} {statements : List Statement}
    (outside : store.transaction? thread = none)
    (transactions : between.transactions = store.transactions)
    (registry : between.registry = store.registry)
    (given : effect (store.tables catalogue thread) (.ok result) left statements)
    (rests : catalogue.Rests left (store.executed ++ statements) between.pool.world) :
    store.TablesAltered catalogue thread effect (.ok result)
      (between.released (inner.traced.session thread) lease) := by
  have outsideAfter : (between.released (inner.traced.session thread) lease).serving thread
      = none := by
    refine serving_eq_none ?_
    unfold transaction?
    rw [show (between.released _ lease).transactions = between.transactions from rfl, transactions]
    exact outside
  obtain ⟨ready, sees, grown⟩ := @ready_of_rests _ _ _ _
    (between.released (inner.traced.session thread) lease) left (store.executed ++ statements)
    outsideAfter (Catalogue.rests_release rests between.clock lease)
  refine ⟨statements, grown, Or.inr ⟨_, _, given⟩, fun other same => ?_⟩
  cases same
  exact ⟨sees ▸ given, ready, registry⟩

include gives

private theorem tablesAltered_recorded {result : α} {writes : WriteSet}
    (ready : store.Ready catalogue thread)
    (serves : store.serving thread = some connection)
    (done : catalogue.Effects does connection store.pool.world (.ok (result, writes)) world) :
    store.TablesAltered catalogue thread effect (.ok result)
      (recordWrites thread writes (store.withWorld world)) := by
  obtain ⟨statements, grown, effected, stays⟩ := done ⟨ready.valid, ready.inside _ serves⟩
  obtain ⟨valid, inside⟩ := stays ⟨_, rfl⟩
  have pool : (recordWrites thread writes (store.withWorld world)).pool.world = world :=
    congrArg Pool.world (pool_recordWrites thread writes (store.withWorld world))
  have servesAfter : (recordWrites thread writes (store.withWorld world)).serving thread
      = some connection := (serving_recordWrites thread thread writes _).trans serves
  have given := gives _ _ _ _ effected
  rw [← tables_inside serves] at given
  refine ⟨statements, ?_, Or.inr ⟨_, _, given⟩, fun other same => ?_⟩
  · exact (congrArg Traced.executed pool).trans grown
  · cases same
    refine ⟨?_, ⟨?_, fun one served => ?_⟩, ?_⟩
    · rw [tables_inside servesAfter, pool]
      exact given
    · rwa [pool]
    · obtain rfl := Option.some.inj (served.symm.trans servesAfter)
      rwa [pool]
    · exact congrArg Prod.fst (extent_recordWrites thread writes (store.withWorld world))

private theorem tablesAltered_aborted {error : Error} {transaction : Transaction}
    {worked : Traced World}
    {outcome : Except DatabaseError Unit} (ready : store.Ready catalogue thread)
    (serves : store.serving thread = some connection)
    (done : catalogue.Effects does connection store.pool.world (.error error) worked)
    (rolledBack : inner.traced.database.rollback connection worked = (outcome, world)) :
    store.TablesAltered catalogue thread effect (.error error)
      ((restoreInstances transaction ((store.withWorld world).dropTransaction thread)).released
        (inner.traced.session thread) transaction.lease) := by
  obtain ⟨statements, grown, effected, _⟩ := done ⟨ready.valid, ready.inside _ serves⟩
  have given := gives _ _ _ _ effected
  rw [← tables_inside serves] at given
  refine tablesAltered_failed ?_ (Or.inr ⟨_, _, given⟩)
  refine (Traced.executed_release _ _ _).trans ?_
  rw [pool_restoreInstances]
  exact (Traced.executed_of_silent rolledBack rfl).trans grown

/-- Before a unit of its own, a thread sees what is there for everybody, also once a connection
has been acquired for it. -/
theorem tablesAltered_acquired {pool : Pool (Traced World)} {lease : LeaseId}
    {outcome : Except Error (α × WriteSet)} (ready : store.Ready catalogue thread)
    (outside : store.serving thread = none)
    (acquired : store.pool.acquire inner.traced.database = (.ok lease, pool))
    (bracketed : BracketRuns inner.traced.database connection (catalogue.Effects does connection)
      true pool.world outcome world) :
    ∃ statements, world.executed = store.executed ++ statements ∧
      (statements = [] ∨
        ∃ done left, effect (store.tables catalogue thread) done left statements) ∧
      ∀ result, outcome = .ok result → ∃ left,
        effect (store.tables catalogue thread) (.ok result.1) left statements ∧
        catalogue.Rests left (store.executed ++ statements) world := by
  have rests : catalogue.Rests (store.tables catalogue thread) store.executed store.pool.world :=
    ⟨ready.valid, (tables_outside outside).symm, rfl⟩
  have restsAcquired := Catalogue.rests_acquire rests
  rw [acquired] at restsAcquired
  obtain ⟨statements, grown, effected, whole⟩ := Catalogue.altered_bracket restsAcquired bracketed
  refine ⟨statements, grown, effected.imp_right ?_, fun result succeeded => ?_⟩
  · rintro ⟨done, left, given⟩
    exact ⟨_, left, gives _ _ _ _ given⟩
  · obtain ⟨left, given, restsAfter⟩ := whole result succeeded
    exact ⟨left, gives _ _ _ _ given, restsAfter⟩

private theorem tablesAltered_unit (leased : store.Leased) (ready : store.Ready catalogue thread)
    (alters : ∀ lease, Alters catalogue lease (work lease) does) :
    Ensures (unit (inner.traced.session thread) true work) store
      (store.TablesAltered catalogue thread effect) := by
  refine (runs_unit alters fun _ inside => leased.connection inside).weaken
    fun outcome after runs => ?_
  cases runs with
  | closed _ => exact tablesAltered_failed (List.append_nil _).symm (Or.inl rfl)
  | recorded _ inside held done =>
      exact tablesAltered_recorded gives ready (serving_eq_some inside held) done
  | aborted _ inside held done rolledBack =>
      exact tablesAltered_aborted gives ready (serving_eq_some inside held) done rolledBack
  | unconnected _ outside acquired =>
      have rests : catalogue.Rests (catalogue.published store.pool.world.world) store.executed
          store.pool.world := ⟨ready.valid, rfl, rfl⟩
      have restsAcquired := Catalogue.rests_acquire rests
      rw [show store.pool.acquire inner.traced.database = _ from acquired] at restsAcquired
      refine tablesAltered_failed ?_ (Or.inl rfl)
      rw [List.append_nil]
      exact restsAcquired.executed
  | @applied pool lease _ world result writes _ outside acquired held bracketed =>
      obtain ⟨statements, _, _, whole⟩ :=
        tablesAltered_acquired gives ready (serving_eq_none outside) acquired bracketed
      obtain ⟨left, given, rests⟩ := whole (result, writes) rfl
      refine tablesAltered_released outside (transactions_written _ _ _)
        (congrArg Prod.fst (extent_written _ _ _)) given ?_
      rw [pool_written]
      exact rests
  | failed _ outside acquired held bracketed =>
      obtain ⟨statements, grown, effected, _⟩ :=
        tablesAltered_acquired gives ready (serving_eq_none outside) acquired bracketed
      exact tablesAltered_failed ((Traced.executed_release _ _ _).trans grown) effected

end Units

/-! ### Synchronising and dropping -/

section Actions

variable (leased : store.Leased) (ready : store.Ready catalogue thread)
include leased ready

private theorem tablesAltered_names {work : Work (Traced World) (List String)}
    {effect : Set catalogue.Place → Except Error (List String) → Set catalogue.Place →
      List Statement → Prop}
    (alters : ∀ lease, Alters catalogue lease (work lease) fun before outcome after statements =>
      ∃ done, outcome = done.map (·, ({} : WriteSet)) ∧ effect before done after statements) :
    Ensures (unit (inner.traced.session thread) true work) store
      (store.TablesAltered catalogue thread effect) := by
  refine tablesAltered_unit (fun before outcome after statements => ?_) leased ready alters
  rintro ⟨done, rfl, given⟩
  cases done <;> exact given

private theorem tablesAltered_sync : Ensures (sync (inner.traced.session thread)) store
    (store.TablesAltered catalogue thread
      (catalogue.Creates inner.dialect store.registry.mappings)) := by
  unfold sync
  apply ensures_bind
  unfold Ensures
  rw [run_get]
  exact tablesAltered_names leased ready fun lease => alters_work
    (fun _ error _ => Inventory.creates_failed error) fun default => alters_createMissing default _

private theorem tablesAltered_drop : Ensures (drop (inner.traced.session thread)) store
    (store.TablesAltered catalogue thread
      (catalogue.Drops inner.dialect store.registry.mappings.reverse)) := by
  have drops (lease : LeaseId) (default : Option String) := @alters_dropExisting _ inner thread
    lease catalogue default store.registry.mappings.reverse
  have dropped := tablesAltered_names leased ready fun lease => @alters_work _ _ thread _ _ _ _
    (fun _ error _ => Inventory.drops_failed error) (drops lease)
  unfold drop
  apply ensures_bind
  unfold Ensures
  rw [run_get]
  refine @ensures_bind _ _ _ _ _ _ (store.TablesAltered catalogue thread
    (catalogue.Drops inner.dialect store.registry.mappings.reverse)) ?_
  refine dropped.weaken fun outcome between altered => ?_
  cases outcome with
  | error error => exact altered
  | ok names =>
      obtain ⟨statements, grown, effected, whole⟩ := altered
      refine ⟨statements, grown, effected, fun result same => ?_⟩
      obtain ⟨given, stays, registry⟩ := whole result same
      exact ⟨given, ⟨stays.valid, stays.inside⟩, registry⟩

end Actions

/-- The tables of exactly these types were created: their names are given, each creates its own
table and sequence, nothing else is executed, and then every type has its table. -/
structure Synchronises (catalogue : Catalogue inner.database) (thread : ThreadId)
    (created : List Mapping) (store : Store (Traced World)) (names : List String)
    (after : Store (Traced World)) : Prop where
  names : names = created.map Mapping.entity
  executed : after.executed = store.executed ++ Statement.creations inner.dialect created
  possible : ∀ mapping ∈ created,
    ∃ statements, Statement.creation inner.dialect mapping = .ok statements
  present : ∀ mapping ∈ store.registry.mappings,
    catalogue.home mapping ∈ after.tables catalogue thread

structure Clears (catalogue : Catalogue inner.database) (thread : ThreadId)
    (dropped : List Mapping) (store : Store (Traced World)) (names : List String)
    (after : Store (Traced World)) : Prop where
  names : names = dropped.map Mapping.entity
  executed : after.executed = store.executed ++ Statement.removals inner.dialect dropped
  absent : ∀ mapping ∈ store.registry.mappings,
    catalogue.home mapping ∉ after.tables catalogue thread

section Actions

variable {created : List Mapping} {outcome : Except Error (List String)} {names : List String}

private theorem sync_ok (leased : store.Leased) (ready : store.Ready catalogue thread)
    (isMissing :
      catalogue.missing (store.tables catalogue thread) store.registry.mappings = created)
    (ran : (sync (inner.traced.session thread)).run store = (outcome, after)) :
    (∃ statements, after.executed = store.executed ++ statements ∧
        statements <+: Statement.creations inner.dialect created) ∧
      ∀ names, outcome = .ok names → store.Synchronises catalogue thread created names after ∧
        after.Ready catalogue thread ∧ after.registry = store.registry := by
  obtain ⟨statements, grown, effected, whole⟩ := (tablesAltered_sync leased ready).of_run ran
  rw [← isMissing]
  refine ⟨⟨statements, grown, ?_⟩, fun names succeeded => ?_⟩
  · rcases effected with rfl | ⟨_, _, creates⟩
    · exact List.nil_prefix
    · exact creates.among
  · obtain ⟨creates, stays, registry⟩ := whole names succeeded
    obtain ⟨gives, tables, executes, possible⟩ := creates.whole names rfl
    refine ⟨⟨gives, executes ▸ grown, possible, fun mapping member => ?_⟩, stays, registry⟩
    rw [tables]
    exact Or.inr (Inventory.home_mem_homes member)

private theorem drop_ok (leased : store.Leased) (ready : store.Ready catalogue thread)
    (ran : (drop (inner.traced.session thread)).run store = (.ok names, after)) :
    store.Clears catalogue thread
        (catalogue.found (store.tables catalogue thread) store.registry.mappings.reverse) names
        after ∧ after.Ready catalogue thread ∧ after.registry = store.registry := by
  obtain ⟨statements, grown, _, whole⟩ := (tablesAltered_drop leased ready).of_run ran
  obtain ⟨drops, stays, registry⟩ := whole names rfl
  obtain ⟨gives, tables, executes⟩ := drops.whole names rfl
  refine ⟨⟨gives, executes ▸ grown, fun mapping member there => ?_⟩, stays, registry⟩
  rw [tables, Inventory.homes_reverse] at there
  exact there.2 (Inventory.home_mem_homes member)

end Actions

end Store

namespace Deployment

variable {World : Type} {inner : Deployment World} {catalogue : Catalogue inner.database}
  {allowed : Store (Traced World) → ThreadId → Action → Prop} {thread : ThreadId}
  {store : Store (Traced World)}

/-- Synchronising creates what is missing at its turn, in the order of definition, and is
idempotent: another time nothing is executed, whatever the outcome. A drop leaves no table, so
that synchronising again creates every table, none of them twice; what it executes, even if the
database refuses some of it, belongs to that. Of types that share a table only the last one is
dropped, and with it its sequence; where none do, every type is whose table is there. -/
theorem tables_synchronised (reached : inner.traced.Reached allowed store)
    (ready : store.Ready catalogue thread) :
    (∀ names after, (Store.sync (inner.traced.session thread)).run store = (.ok names, after) →
      store.Synchronises catalogue thread
          (catalogue.missing (store.tables catalogue thread) store.registry.mappings) names after ∧
        ∀ outcome final, (Store.sync (inner.traced.session thread)).run after = (outcome, final) →
          final.executed = after.executed ∧ ∀ others, outcome = .ok others → others = []) ∧
    ∀ names after, (Store.drop (inner.traced.session thread)).run store = (.ok names, after) →
      store.Clears catalogue thread
          (catalogue.found (store.tables catalogue thread) store.registry.mappings.reverse) names
          after ∧
        ((store.registry.mappings.map catalogue.home).Nodup →
          ∀ mapping ∈ store.registry.mappings,
            catalogue.home mapping ∈ store.tables catalogue thread →
            mapping ∈ catalogue.found (store.tables catalogue thread)
              store.registry.mappings.reverse) ∧
        ∃ again : List Mapping, again.Sublist store.registry.mappings ∧
          (again.map catalogue.home).Nodup ∧
          (∀ mapping ∈ store.registry.mappings,
            catalogue.home mapping ∈ again.map catalogue.home) ∧
          ∀ outcome final, (Store.sync (inner.traced.session thread)).run after = (outcome, final) →
            (∃ statements, final.executed = after.executed ++ statements ∧
              statements <+: Statement.creations inner.dialect again) ∧
            ∀ others, outcome = .ok others →
              after.Synchronises catalogue thread again others final := by
  have regular := reached.regular
  refine ⟨fun names after ran => ?_, fun names after ran => ?_⟩
  · obtain ⟨synchronises, readyAfter, registry⟩ :=
      (Store.sync_ok regular.leased ready rfl ran).2 names rfl
    have regularAfter := ((Store.follows_sync regular).of_run ran).regular regular
    refine ⟨synchronises, fun outcome final ranAgain => ?_⟩
    have none : catalogue.missing (after.tables catalogue thread) after.registry.mappings = [] := by
      refine Inventory.missing_of_subset ?_
      rintro _ ⟨mapping, member, rfl⟩
      exact synchronises.present mapping (registry ▸ member)
    obtain ⟨⟨statements, grown, among⟩, whole⟩ :=
      Store.sync_ok regularAfter.leased readyAfter none ranAgain
    rw [List.prefix_nil.mp among, List.append_nil] at grown
    exact ⟨grown, fun others succeeded => (whole others succeeded).1.names⟩
  · obtain ⟨clears, readyAfter, registry⟩ := Store.drop_ok regular.leased ready ran
    have regularAfter := ((Store.follows_drop regular).of_run ran).regular regular
    refine ⟨clears, fun distinct mapping member => ?_,
      catalogue.missing (after.tables catalogue thread) after.registry.mappings,
      registry ▸ Inventory.missing_sublist, Inventory.homes_missing.1, fun mapping member => ?_,
      fun outcome final ranAgain => ?_⟩
    · refine Inventory.mem_found ?_ (List.mem_reverse.mpr member)
      rw [List.map_reverse]
      exact List.nodup_reverse.mpr distinct
    · have isMissing : catalogue.home mapping ∈ catalogue.homes
          (catalogue.missing (after.tables catalogue thread) after.registry.mappings) := by
        rw [Inventory.homes_missing.2, registry]
        exact ⟨Inventory.home_mem_homes member, clears.absent mapping member⟩
      obtain ⟨other, isOther, same⟩ := isMissing
      exact same ▸ List.mem_map_of_mem isOther
    · obtain ⟨grows, whole⟩ := Store.sync_ok regularAfter.leased readyAfter rfl ranAgain
      exact ⟨grows, fun others succeeded => (whole others succeeded).1⟩

end Deployment

namespace Samples

def catalogued : Catalogue deployment.database := Tables.catalogued "sqlite:test.db"

/-- Two types that share a table, the schema of which only one of them names, and another type. -/
def shelves : List (ThreadId × Action) := [
  (0, .define [
    ("Shelf", (({} : MappingSpec).withTable "shelf").withProperty "name" (.bare "string")),
    ("Board", ((({} : MappingSpec).withTable "shelf").withSchema "main").withProperty "name"
      (.bare "string")),
    ("Box", ({} : MappingSpec).withProperty "name" (.bare "string"))]),
  (0, .sync)]

end Samples

namespace Deployment

set_option maxRecDepth 100000 in
theorem tables_synchronised_shared : ∃ store after final : Store (Traced Tables.World),
    Samples.deployment.traced.Reached (fun _ _ _ => True) store ∧
    store.Ready Samples.catalogued 0 ∧
    (∀ names done, (Store.sync (Samples.deployment.traced.session 0)).run store
      = (.ok names, done) → names = [] ∧ done.executed = store.executed) ∧
    (Store.drop (Samples.deployment.traced.session 0)).run store = (.ok ["Box", "Board"], after) ∧
    (Store.sync (Samples.deployment.traced.session 0)).run after
      = (.ok ["Shelf", "Box"], final) ∧
    ∃ dropped again, store.Clears Samples.catalogued 0 dropped ["Box", "Board"] after ∧
      after.Synchronises Samples.catalogued 0 again ["Shelf", "Box"] final := by
  obtain ⟨store, visited⟩ : ∃ store,
      Samples.deployment.traced.visited? Samples.shelves = some store :=
    Option.isSome_iff_exists.mp (by decide +kernel)
  have facts : ∀ store ∈ Samples.deployment.traced.visited? Samples.shelves,
      store.pool.world.world.published.Apart ∧ store.pool.world.world.writing = none ∧
      store.serving 0 = none ∧
      ((Store.sync (Samples.deployment.traced.session 0)).run store).1.toOption = some [] ∧
      ((Store.drop (Samples.deployment.traced.session 0)).run store).1.toOption
        = some ["Box", "Board"] ∧
      ((Store.sync (Samples.deployment.traced.session 0)).run
        ((Store.drop (Samples.deployment.traced.session 0)).run store).2).1.toOption
        = some ["Shelf", "Box"] := by
    decide +kernel
  obtain ⟨apart, still, outside, synced, dropped, again⟩ := facts store visited
  have reached := reached_visited (fun _ _ _ _ => trivial) visited
  have ready : store.Ready Samples.catalogued 0 := by
    refine ⟨⟨apart, fun writer own writes => ?_⟩, fun connection serves => ?_⟩
    · rw [still] at writes
      cases writes
    · rw [outside] at serves
      cases serves
  generalize drops : (Store.drop (Samples.deployment.traced.session 0)).run store = result
    at dropped again
  obtain ⟨outcome, after⟩ := result
  rw [toOption_eq_some] at dropped
  generalize syncs : (Store.sync (Samples.deployment.traced.session 0)).run after = result at again
  obtain ⟨outcomeAgain, final⟩ := result
  rw [toOption_eq_some] at again
  cases dropped
  cases again
  obtain ⟨whileThere, onceGone⟩ := tables_synchronised reached ready
  obtain ⟨clears, _, created, _, _, _, recreates⟩ := onceGone _ after drops
  refine ⟨store, after, final, reached, ready, fun names done ran => ?_, drops, syncs, _, created,
    clears, (recreates _ final syncs).2 _ rfl⟩
  have synchronises := (whileThere names done ran).1
  rw [ran, toOption_eq_some] at synced
  cases synced
  have none := synchronises.names
  rw [List.nil_eq, List.map_eq_nil_iff] at none
  have executed := synchronises.executed
  rw [none] at executed
  exact ⟨rfl, executed.trans (List.append_nil _)⟩

end Deployment

end EntityStore
