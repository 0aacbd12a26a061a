/-
What the stages of operations do to a faithful database. A connection serves at most one
thread, whose transaction it is inside of; every other connection is outside of any
transaction. Each stage is one turn: it leaves the database as it is, concerns a
connection that serves nobody, or concerns the connection that serves its own thread.
-/

import EntityStore.Proofs.Actions
import EntityStore.Proofs.Brackets

set_option autoImplicit false

namespace EntityStore
namespace Store

variable {World : Type}

def serving (store : Store World) (thread : ThreadId) : Option ConnectionId :=
  (store.transaction? thread).bind fun transaction =>
    store.pool.leased.lookup transaction.lease

variable {store after : Store World} {thread other : ThreadId} {connection : ConnectionId}

theorem serving_eq_some {transaction : Transaction}
    (inside : store.transaction? thread = some transaction)
    (held : store.pool.leased.lookup transaction.lease = some connection) :
    store.serving thread = some connection := by
  unfold serving
  rw [inside]
  exact held

theorem serving_eq_none (outside : store.transaction? thread = none) :
    store.serving thread = none := by
  unfold serving
  rw [outside]
  rfl

theorem exists_of_serving (serves : store.serving thread = some connection) :
    ∃ transaction, store.transaction? thread = some transaction ∧
      store.pool.leased.lookup transaction.lease = some connection :=
  Option.bind_eq_some_iff.mp serves

private theorem lease_eq_of_connection (leased : store.Leased) {first second : LeaseId}
    (holdsFirst : store.pool.leased.lookup first = some connection)
    (holdsSecond : store.pool.leased.lookup second = some connection) : first = second := by
  have distinct : (store.pool.leased.map Prod.snd).Nodup :=
    ((List.sublist_append_right _ _).nodup leased.numbered.connections)
  exact congrArg Prod.fst (List.inj_on_of_nodup_map distinct (mem_of_lookup holdsFirst)
    (mem_of_lookup holdsSecond) rfl)

theorem serving_inj (leased : store.Leased) (serves : store.serving thread = some connection)
    (servesOther : store.serving other = some connection) : thread = other := by
  obtain ⟨transaction, inside, held⟩ := exists_of_serving serves
  obtain ⟨transactionOther, insideOther, heldOther⟩ := exists_of_serving servesOther
  have sameLease := lease_eq_of_connection leased held heldOther
  exact congrArg Prod.fst (List.inj_on_of_nodup_map leased.distinct (mem_of_transaction inside)
    (mem_of_transaction insideOther) sameLease)

theorem not_serving_of_acquired (leased : store.Leased) {database : Database World}
    {pool : Pool World} {lease : LeaseId}
    (acquired : store.pool.acquire database = (.ok lease, pool))
    (held : pool.leased.lookup lease = some connection) (thread : ThreadId) :
    store.serving thread ≠ some connection := by
  intro serves
  obtain ⟨transaction, inside, holds⟩ := exists_of_serving serves
  have kept : pool.leased.lookup transaction.lease = some connection := by
    have found := Pool.lookup_acquire holds database
    rw [acquired] at found
    exact found
  have same := lease_eq_of_connection (leased.acquire database acquired) kept held
  exact leased.acquired_not_mem acquired (same ▸ lease_mem inside)

/-- Who is served depends on the leases of transactions and on the pool. -/
theorem serving_congr
    (leases : (after.transaction? thread).map Transaction.lease =
      (store.transaction? thread).map Transaction.lease)
    (held : ∀ transaction, store.transaction? thread = some transaction →
      after.pool.leased.lookup transaction.lease = store.pool.leased.lookup transaction.lease) :
    after.serving thread = store.serving thread := by
  unfold serving
  cases inside : store.transaction? thread with
  | none =>
      rw [inside, Option.map_none, Option.map_eq_none_iff] at leases
      rw [leases]
      rfl
  | some transaction =>
      rw [inside] at leases
      obtain ⟨changed, insideAfter, same⟩ := Option.map_eq_some_iff.mp leases
      rw [insideAfter]
      simp only [Option.bind_some, same]
      exact held transaction inside

private theorem serving_of_frame (same : after.frame = store.frame) (thread : ThreadId) :
    after.serving thread = store.serving thread := by
  refine serving_congr (by rw [transaction?_of_frame same]) fun transaction _ => ?_
  rw [pool_eq_of_frame same]

theorem serving_of_quiet (quiet : store.Quiet after) (thread : ThreadId) :
    after.serving thread = store.serving thread := by
  refine serving_congr ?_ fun transaction _ => by rw [quiet.pool]
  have same := congrArg (Option.map Prod.fst) (quiet.transactions thread)
  rw [Option.map_map, Option.map_map] at same
  exact same

/-- What is acquired for a transaction of its own or for a unit leaves the others alone. -/
theorem serving_acquire (leased : store.Leased) {database : Database World} {pool : Pool World}
    {outcome : Except Error LeaseId} (acquired : store.pool.acquire database = (outcome, pool))
    (world : World) (thread : ThreadId) :
    ({ store with pool := { pool with world := world } } : Store World).serving thread
      = store.serving thread := by
  refine serving_congr rfl fun transaction inside => ?_
  obtain ⟨connection, held⟩ := leased.connection inside
  have kept := Pool.lookup_acquire held database
  rw [acquired] at kept
  rw [held]
  exact kept

theorem serving_released (session : Session World) {lease : LeaseId}
    (free : lease ∉ store.leases) (thread : ThreadId) :
    (store.released session lease).serving thread = store.serving thread := by
  refine serving_congr rfl fun transaction inside => ?_
  refine Pool.lookup_release (fun same => free ?_) _ _ _
  rw [← same]
  exact lease_mem inside

private theorem serving_replaceTransaction {transaction changed : Transaction}
    (inside : store.transaction? thread = some transaction)
    (same : changed.lease = transaction.lease) (other : ThreadId) :
    (store.setTransaction thread changed).serving other = store.serving other := by
  refine serving_congr ?_ fun _ _ => rfl
  by_cases isSame : other = thread
  · rw [isSame, transaction?_setTransaction_self, inside, Option.map_some, Option.map_some, same]
  · rw [transaction?_setTransaction_of_ne _ _ isSame]

theorem serving_recordWrites (thread other : ThreadId) (writes : WriteSet)
    (store : Store World) :
    (recordWrites thread writes store).serving other = store.serving other := by
  unfold recordWrites
  simp only
  generalize evicted : ({ store with
    cache := writes.withoutFills.evictTouched store.cache } : Store World) = between
  have same : between.serving other = store.serving other := by
    rw [← evicted]
    rfl
  have invalidated := serving_of_frame (frame_invalidateOwners writes.withoutFills.owners between)
    other
  split
  · exact invalidated.trans same
  · rename_i transaction inside
    refine (serving_replaceTransaction inside ?_ other).trans (invalidated.trans same)
    rfl

/-- Whom connections serve once a thread's transaction is over. -/
theorem serving_dropTransaction (store : Store World) (thread other : ThreadId) :
    (store.dropTransaction thread).serving other =
      if other = thread then none else store.serving other := by
  by_cases same : other = thread
  · rw [if_pos same, same]
    exact serving_eq_none (transaction?_dropTransaction_self store thread)
  · rw [if_neg same]
    exact serving_congr (by rw [transaction?_dropTransaction_of_ne store same]) fun _ _ => rfl

theorem serving_setTransaction {transaction : Transaction}
    (held : store.pool.leased.lookup transaction.lease = some connection)
    (thread other : ThreadId) :
    (store.setTransaction thread transaction).serving other =
      if other = thread then some connection else store.serving other := by
  by_cases same : other = thread
  · rw [if_pos same, same]
    exact serving_eq_some (transaction?_setTransaction_self store thread transaction) held
  · rw [if_neg same]
    exact serving_congr (by rw [transaction?_setTransaction_of_ne store _ same]) fun _ _ => rfl

/-! ### Turns -/

variable {layout : Layout} {database : Database World}

structure Orderly (faithful : Faithful layout database) (store : Store World) : Prop where
  valid : faithful.Valid store.pool.world
  inside : ∀ connection, faithful.standing store.pool.world connection ≠ .outside ↔
    ∃ thread, store.serving thread = some connection

/-- What a stage of a thread does to the database, and to whom connections serve; `poses`
and the flag are those of the stage. -/
inductive Turn (faithful : Faithful layout database) (thread : ThreadId) (poses : Task → Prop)
    (store : Store World) (ok : Bool) (after : Store World) : Prop where
  | still : after.pool.world = store.pool.world →
      (∀ other, after.serving other = store.serving other) → Turn faithful thread poses store ok after
  /-- Connections are opened. -/
  | upkeep : store.transaction? thread = none →
      faithful.Valid after.pool.world → faithful.Same store.pool.world after.pool.world →
      (∀ other, after.serving other = store.serving other) → Turn faithful thread poses store ok after
  /-- Something failed on a connection that serves nobody. -/
  | failed {connection : ConnectionId} :
      store.transaction? thread = none → (∀ other, store.serving other ≠ some connection) →
      faithful.Confined connection store.pool.world after.pool.world →
      faithful.standing after.pool.world connection = .outside →
      (∀ other, after.serving other = store.serving other) → Turn faithful thread poses store ok after
  /-- A unit outside of a transaction. -/
  | published {connection : ConnectionId} {log : List Event} :
      store.transaction? thread = none → (∀ other, store.serving other ≠ some connection) →
      faithful.HasPublished connection store.pool.world log after.pool.world →
      (∀ statement, .executed statement ∈ log → statement.Conforms layout.Fits) →
      (∀ other, after.serving other = store.serving other) → Turn faithful thread poses store ok after
  /-- A unit inside of the thread's transaction. -/
  | worked {connection : ConnectionId} {log : List Event} :
      store.serving thread = some connection →
      Asked database (Question.Issued layout.Fits true) connection store.pool.world log
        after.pool.world →
      (∀ other, after.serving other = store.serving other) → Turn faithful thread poses store ok after
  | begun {connection : ConnectionId} : poses .begin → ok = true →
      store.transaction? thread = none → (∀ other, store.serving other ≠ some connection) →
      faithful.Confined connection store.pool.world after.pool.world →
      faithful.standing after.pool.world connection = .reading →
      (∀ other, after.serving other =
        if other = thread then some connection else store.serving other) →
      Turn faithful thread poses store ok after
  | committed {connection : ConnectionId} : poses .commit → ok = true →
      store.serving thread = some connection → faithful.Valid after.pool.world →
      faithful.Besides connection store.pool.world after.pool.world →
      faithful.published after.pool.world = faithful.seen store.pool.world connection →
      faithful.standing after.pool.world connection = .outside →
      (∀ other, after.serving other = if other = thread then none else store.serving other) →
      Turn faithful thread poses store ok after
  /-- The thread's transaction has ended without a commit. -/
  | ended {connection : ConnectionId} : ok = false ∨ poses .rollback →
      store.serving thread = some connection →
      faithful.Confined connection store.pool.world after.pool.world →
      faithful.standing after.pool.world connection = .outside →
      (∀ other, after.serving other = if other = thread then none else store.serving other) →
      Turn faithful thread poses store ok after
  /-- The store was closed, and with it every transaction. -/
  | closed : poses .close → after.isOpen = false → faithful.Valid after.pool.world →
      faithful.published after.pool.world = faithful.published store.pool.world →
      (∀ connection, faithful.standing after.pool.world connection = .outside) →
      (∀ other, after.serving other = none) → Turn faithful thread poses store ok after

variable {faithful : Faithful layout database} {session : Session World} {poses : Task → Prop}
  {ok : Bool}

theorem Orderly.outside (orderly : store.Orderly faithful)
    (free : ∀ thread, store.serving thread ≠ some connection) :
    faithful.standing store.pool.world connection = .outside := by
  by_contra inside
  obtain ⟨thread, serves⟩ := (orderly.inside connection).mp inside
  exact free thread serves

theorem Orderly.not_outside (orderly : store.Orderly faithful)
    (serves : store.serving thread = some connection) :
    faithful.standing store.pool.world connection ≠ .outside :=
  (orderly.inside connection).mpr ⟨thread, serves⟩

theorem Orderly.keep (orderly : store.Orderly faithful)
    (valid : faithful.Valid after.pool.world)
    (standing : ∀ connection, faithful.standing after.pool.world connection ≠ .outside ↔
      faithful.standing store.pool.world connection ≠ .outside)
    (serving : ∀ other, after.serving other = store.serving other) :
    after.Orderly faithful := by
  refine ⟨valid, fun connection => ?_⟩
  rw [standing, orderly.inside]
  simp only [serving]

/-- As far as the connections go that the thread neither had nor has now, those serve who
served before. -/
theorem exists_serving_congr {changed : Option ConnectionId} {any : ConnectionId}
    (serving : ∀ other, after.serving other = if other = thread then changed else store.serving other)
    (before : store.serving thread ≠ some any) (now : changed ≠ some any) :
    (∃ other, after.serving other = some any) ↔ ∃ other, store.serving other = some any := by
  constructor
  · rintro ⟨other, serves⟩
    rw [serving] at serves
    split at serves
    · exact absurd serves now
    · exact ⟨other, serves⟩
  · rintro ⟨other, serves⟩
    refine ⟨other, ?_⟩
    rw [serving, if_neg, serves]
    rintro rfl
    exact before serves

/-- One connection stays on the side of the boundary of a transaction on which it is, and
the others stand where they stood. -/
theorem Orderly.keep_besides (orderly : store.Orderly faithful)
    (valid : faithful.Valid after.pool.world)
    (besides : faithful.Besides connection store.pool.world after.pool.world)
    (inside : faithful.standing after.pool.world connection ≠ .outside ↔
      faithful.standing store.pool.world connection ≠ .outside)
    (serving : ∀ other, after.serving other = store.serving other) :
    after.Orderly faithful := by
  refine orderly.keep valid (fun other => ?_) serving
  by_cases same : other = connection
  · rw [same]
    exact inside
  · rw [besides.standing other same]

theorem Orderly.enter (orderly : store.Orderly faithful)
    (outside : store.transaction? thread = none)
    (confined : faithful.Confined connection store.pool.world after.pool.world)
    (inside : faithful.standing after.pool.world connection ≠ .outside)
    (serving : ∀ other, after.serving other =
      if other = thread then some connection else store.serving other) :
    after.Orderly faithful := by
  refine ⟨confined.valid, fun other => ?_⟩
  by_cases same : other = connection
  · rw [same]
    exact iff_of_true inside ⟨thread, by rw [serving, if_pos rfl]⟩
  · rw [confined.besides.standing other same, orderly.inside]
    refine (exists_serving_congr serving ?_ fun isOther => same (Option.some.inj isOther).symm).symm
    rw [serving_eq_none outside]
    rintro ⟨⟩

theorem Orderly.leave (orderly : store.Orderly faithful) (leased : store.Leased)
    (serves : store.serving thread = some connection)
    (valid : faithful.Valid after.pool.world)
    (besides : faithful.Besides connection store.pool.world after.pool.world)
    (outside : faithful.standing after.pool.world connection = .outside)
    (serving : ∀ other, after.serving other =
      if other = thread then none else store.serving other) : after.Orderly faithful := by
  refine ⟨valid, fun other => ?_⟩
  by_cases same : other = connection
  · subst same
    refine iff_of_false (fun inside => inside outside) ?_
    -- No other thread has the connection: threads have different ones.
    rintro ⟨otherThread, servesOther⟩
    rw [serving] at servesOther
    split at servesOther
    · cases servesOther
    · rename_i different
      exact different (serving_inj leased servesOther serves)
  · rw [besides.standing other same, orderly.inside]
    refine (exists_serving_congr serving ?_ (by rintro ⟨⟩)).symm
    rw [serves]
    exact fun isOther => same (Option.some.inj isOther).symm

/-- After every turn the connections inside of a transaction are those that serve. -/
theorem Turn.orderly (turn : Turn faithful thread poses store ok after)
    (orderly : store.Orderly faithful) (leased : store.Leased) : after.Orderly faithful := by
  cases turn with
  | still world serving => exact orderly.keep (world ▸ orderly.valid) (fun _ => by rw [world]) serving
  | upkeep _ valid same serving =>
      exact orderly.keep valid (fun connection => by rw [same.standing]) serving
  | failed _ free confined outside serving =>
      refine orderly.keep_besides confined.valid confined.besides ?_ serving
      rw [outside, orderly.outside free]
  | published _ free published _ serving =>
      refine orderly.keep_besides published.valid published.besides ?_ serving
      rw [published.outside, orderly.outside free]
  | worked serves asked serving =>
      have worked := Faithful.hasWorked_of_asked asked orderly.valid (orderly.not_outside serves)
      exact orderly.keep_besides worked.valid worked.besides
        (iff_of_true worked.inside (orderly.not_outside serves)) serving
  | begun _ _ outside _ confined reading serving =>
      refine orderly.enter outside confined ?_ serving
      rw [reading]
      rintro ⟨⟩
  | committed _ _ serves valid besides _ outside serving =>
      exact orderly.leave leased serves valid besides outside serving
  | ended _ serves confined outside serving =>
      exact orderly.leave leased serves confined.valid confined.besides outside serving
  | closed _ _ valid _ outside serving =>
      refine ⟨valid, fun connection => iff_of_false (fun inside => inside (outside connection)) ?_⟩
      rintro ⟨other, serves⟩
      rw [serving] at serves
      cases serves

end Store
end EntityStore
