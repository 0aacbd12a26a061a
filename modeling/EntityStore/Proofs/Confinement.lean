/-
Stages of operations and the connections of transactions. A stage of a thread that is
outside of a transaction works on a connection of its own and gives it back. Inside of one
everything goes to the connection that serves the thread, nothing is acquired, and whatever
ends the transaction gives the connection back. So the calls of all stages are well
bracketed.
-/

import EntityStore.Proofs.Orderly
import EntityStore.Proofs.TracedTransactions

set_option autoImplicit false

namespace EntityStore
namespace Store

variable {World : Type} {inner : Database World} {session : Session (Traced World)}
  {store between after : Store (Traced World)} {thread : ThreadId}
  {connection : ConnectionId} {lease : LeaseId}

/-- The calls were well bracketed. What is leased from the pool of an open store serves a
thread; it is inside of a transaction then. A store that was closed has no transactions. -/
structure InBrackets (inner : Database World) (store : Store (Traced World)) : Prop where
  pool : store.pool.InBrackets inner
  inside : ∀ thread connection, store.serving thread = some connection →
    insideAfter connection store.pool.world.trace = true
  served : store.isOpen = true → ∀ connection ∈ store.pool.leased.map Prod.snd,
    ∃ thread, store.serving thread = some connection
  closed : store.isOpen = false → store.transactions = []

/-- Nothing is acquired, and calls go to one connection, unless they open others. -/
structure Confined (connection : ConnectionId) (store after : Store (Traced World)) : Prop where
  acquires : after.pool.nextLease = store.pool.nextLease
  calls : ∃ calls, after.pool.world.trace = store.pool.world.trace ++ calls ∧
    ∀ call ∈ calls, call.deed ≠ .connect → call.connection = connection

structure Stays (inner : Database World) (thread : ThreadId)
    (store after : Store (Traced World)) : Prop where
  brackets : after.InBrackets inner
  serving : ∀ other, after.serving other = store.serving other
  confined : ∀ connection, store.serving thread = some connection → Confined connection store after

structure Quits (inner : Database World) (thread : ThreadId)
    (store after : Store (Traced World)) : Prop where
  brackets : after.InBrackets inner
  serving : ∀ other, after.serving other = if other = thread then none else store.serving other
  confined : ∃ connection, store.serving thread = some connection ∧ Confined connection store after

theorem Confined.of_same (pool : after.pool = store.pool) : Confined connection store after := by
  refine ⟨by rw [pool], [], ?_, fun _ member => by cases member⟩
  rw [pool, List.append_nil]

theorem Confined.trans (first : Confined connection store between)
    (second : Confined connection between after) : Confined connection store after := by
  obtain ⟨callsFirst, grownFirst, onFirst⟩ := first.calls
  obtain ⟨callsSecond, grownSecond, onSecond⟩ := second.calls
  refine ⟨second.acquires.trans first.acquires, callsFirst ++ callsSecond, ?_, ?_⟩
  · rw [grownSecond, grownFirst, List.append_assoc]
  · intro call member
    exact (List.mem_append.mp member).elim (onFirst call) (onSecond call)

theorem Confined.of_worked {world : Traced World} {inside : Bool}
    (worked : Traced.Worked inner connection store.pool.world inside world)
    (pool : after.pool = { store.pool with world := world }) :
    Confined connection store after := by
  obtain ⟨calls, grown, on⟩ := worked.calls
  refine ⟨by rw [pool], calls, ?_, fun call member _ => on call member⟩
  rw [pool]
  exact grown

private theorem nextLease_release {database : Database World} (now : Nat) (lease : LeaseId)
    (pool : Pool World) : (pool.release database now lease).nextLease = pool.nextLease := by
  have ends := Pool.releases database now lease pool
  generalize pool.release database now lease = after at ends
  cases ends with
  | unknown _ => rfl
  | returned _ _ _ => rfl
  | discarded _ _ made => cases made <;> rfl

theorem Confined.released (traced : session.database = Traced.database inner)
    (held : store.pool.leased.lookup lease = some connection) :
    Confined connection store (store.released session lease) := by
  refine ⟨nextLease_release _ _ _, ?_⟩
  unfold Store.released
  rw [traced]
  obtain ⟨calls, grown, deeds⟩ := @Pool.calls_release _ inner _ _ _ held store.clock
  refine ⟨calls, grown, fun call member more => ?_⟩
  exact ((deeds call member).resolve_left more).2

theorem Stays.trans (first : Stays inner thread store between)
    (second : Stays inner thread between after) : Stays inner thread store after := by
  refine ⟨second.brackets, fun other => (second.serving other).trans (first.serving other), ?_⟩
  intro connection serves
  exact (first.confined connection serves).trans
    (second.confined connection ((first.serving thread).trans serves))

theorem Stays.quits (first : Stays inner thread store between)
    (second : Quits inner thread between after) : Quits inner thread store after := by
  obtain ⟨connection, serves, confined⟩ := second.confined
  rw [first.serving] at serves
  refine ⟨second.brackets, fun other => ?_, connection, serves,
    (first.confined connection serves).trans confined⟩
  rw [second.serving, first.serving]

theorem Quits.none (quits : Quits inner thread store after) : after.serving thread = none := by
  rw [quits.serving, if_pos rfl]

theorem InBrackets.of_same (brackets : store.InBrackets inner) (pool : after.pool = store.pool)
    (serving : ∀ other, after.serving other = store.serving other)
    (isOpen : after.isOpen = store.isOpen)
    (closed : store.transactions = [] → after.transactions = []) : after.InBrackets inner := by
  refine ⟨by rw [pool]; exact brackets.pool, fun other connection serves => ?_,
    fun stillOpen connection leased => ?_, fun isClosed => closed (brackets.closed ?_)⟩
  · rw [serving] at serves
    rw [pool]
    exact brackets.inside other connection serves
  · rw [isOpen] at stillOpen
    rw [pool] at leased
    simp only [serving]
    exact brackets.served stillOpen connection leased
  · rw [← isOpen]
    exact isClosed

theorem Stays.of_same (brackets : store.InBrackets inner) (pool : after.pool = store.pool)
    (serving : ∀ other, after.serving other = store.serving other)
    (isOpen : after.isOpen = store.isOpen)
    (closed : store.transactions = [] → after.transactions = []) :
    Stays inner thread store after :=
  ⟨brackets.of_same pool serving isOpen closed, serving, fun _ _ => .of_same pool⟩

theorem Stays.refl (brackets : store.InBrackets inner) : Stays inner thread store store :=
  .of_same brackets rfl (fun _ => rfl) rfl fun none => none

theorem InBrackets.outside_of_closed (brackets : store.InBrackets inner)
    (isClosed : store.isOpen = false) (thread : ThreadId) : store.serving thread = none := by
  refine serving_eq_none ?_
  unfold transaction?
  rw [brackets.closed isClosed]
  rfl

/-- The connection that serves a thread is inside of a transaction for the database, too. -/
theorem InBrackets.stands (brackets : store.InBrackets inner)
    {transaction : Transaction} (inside : store.transaction? thread = some transaction)
    (held : store.pool.leased.lookup transaction.lease = some connection) :
    store.pool.world.Stands inner connection true := by
  have stands := brackets.pool.stands (Pool.mem_connections_of_held held)
  rw [brackets.inside thread connection (serving_eq_some inside held)] at stands
  exact stands

private theorem numbered_withWorld {pool : Pool World} (numbered : pool.Numbered) (world : World) :
    ({ pool with world := world } : Pool World).Numbered :=
  ⟨numbered.leases, numbered.handedOut, numbered.connections, numbered.created⟩

section Laws

variable (traced : session.database = Traced.database inner) (tracks : inner.TracksTransactions)
  (checks : inner.ChecksTransactions) (regular : store.Regular) (brackets : store.InBrackets inner)

/-! ### Outside of transactions -/

section Outside

variable {pool : Pool (Traced World)} {world : Traced World} {inside : Bool}
  (acquired : store.pool.acquire session.database = (.ok lease, pool))
  (held : pool.leased.lookup lease = some connection)

include traced tracks regular brackets acquired held in
private theorem stands_acquired : pool.world.Stands inner connection false := by
  rw [traced] at acquired
  exact brackets.pool.stands_acquired tracks regular.leased.numbered acquired held

section Worked

variable (worked : Traced.Worked inner connection pool.world inside world)
include traced regular brackets acquired held worked

/-- Who is served by another connection stays inside, whatever is done on one that was
acquired. -/
theorem insideAfter_acquired {other : ConnectionId} (serves : store.serving thread = some other) :
    insideAfter other world.trace = true := by
  have apart : other ≠ connection := by
    rintro rfl
    exact not_serving_of_acquired regular.leased acquired held thread serves
  rw [traced] at acquired
  rw [worked.insideAfter_other apart, (Pool.aside_acquire acquired).insideAfter]
  exact brackets.inside thread other serves

include tracks

private theorem inBrackets_acquired :
    ({ pool with world := world } : Pool (Traced World)).InBrackets inner := by
  have numbered := regular.leased.numbered.acquire session.database
  rw [acquired] at numbered
  rw [traced] at acquired
  exact (brackets.pool.acquire tracks acquired).work numbered held worked

include checks

/-- A thread that is served by none works on a connection of its own, which it gives back. -/
theorem stays_of_visit (wasOpen : store.isOpen = true) (isOpen : between.isOpen = true)
    (outside : store.transaction? thread = none) (same : between.pool = { pool with world := world })
    (transactions : between.transactions = store.transactions) :
    Stays inner thread store (between.released session lease) := by
  have numbered := regular.leased.numbered.acquire session.database
  rw [acquired] at numbered
  have heldBetween : between.pool.leased.lookup lease = some connection := by
    rw [same]
    exact held
  have serving (other : ThreadId) :
      (between.released session lease).serving other = store.serving other := by
    rw [serving_released]
    · refine Eq.trans (serving_congr ?_ fun _ _ => by rw [same])
        (serving_acquire regular.leased acquired world other)
      unfold transaction?
      rw [transactions]
    · unfold leases
      rw [transactions]
      exact regular.leased.acquired_not_mem acquired
  have inOrder : between.pool.InBrackets inner := by
    rw [same]
    exact inBrackets_acquired traced tracks regular brackets acquired held worked
  have aside := @Pool.aside_release _ inner _ _ _ heldBetween between.clock
  have released : (between.released session lease).pool
      = between.pool.release (Traced.database inner) between.clock lease := by
    rw [← traced]
    rfl
  refine ⟨⟨?_, ?_, fun _ one leased => ?_, ?_⟩, serving, ?_⟩
  · rw [released]
    refine inOrder.release tracks checks ?_ _ _
    rw [same]
    exact numbered_withWorld numbered world
  · intro other one serves
    rw [serving] at serves
    rw [released, aside.insideAfter, same]
    exact insideAfter_acquired traced regular brackets acquired held worked serves
  · -- What was acquired is given back, and nothing else.
    have back : (between.released session lease).pool.leased = store.pool.leased := by
      refine (Pool.leased_of_releases heldBetween (Pool.releases _ _ _ _)).1.trans ?_
      rw [same]
      show pool.leasedWithout lease = store.pool.leased
      exact Pool.leasedWithout_of_acquire regular.leased.numbered acquired
    rw [back] at leased
    simp only [serving]
    exact brackets.served wasOpen one leased
  · intro closed
    rw [show (between.released session lease).isOpen = true from isOpen] at closed
    cases closed
  · intro one serves
    rw [serving_eq_none outside] at serves
    cases serves

end Worked

end Outside

include traced tracks regular brackets in
private theorem stays_of_unconnected {pool : Pool (Traced World)} {error : Error}
    (isOpen : store.isOpen = true) (outside : store.transaction? thread = none)
    (acquired : store.pool.acquire session.database = (.error error, pool)) :
    Stays inner thread store { store with pool := pool } := by
  have serving (other : ThreadId) :
      ({ store with pool := pool } : Store (Traced World)).serving other = store.serving other :=
    serving_acquire regular.leased acquired pool.world other
  rw [traced] at acquired
  refine ⟨⟨brackets.pool.acquire tracks acquired, ?_, fun _ one leased => ?_, ?_⟩, serving, ?_⟩
  · intro other one serves
    rw [serving] at serves
    rw [(Pool.aside_acquire acquired).insideAfter]
    exact brackets.inside other one serves
  · simp only [serving]
    rw [(Pool.leased_of_refused acquired).1] at leased
    exact brackets.served isOpen one leased
  · intro closed
    rw [show ({ store with pool := pool } : Store (Traced World)).isOpen = true from isOpen] at closed
    cases closed
  · intro one serves
    rw [serving_eq_none outside] at serves
    cases serves

/-! ### Inside of a transaction -/

section Inside

variable {transaction : Transaction} {world : Traced World} {inside : Bool}
  (isInside : store.transaction? session.thread = some transaction)
  (held : store.pool.leased.lookup transaction.lease = some connection)
  (worked : Traced.Worked inner connection store.pool.world inside world)

include regular brackets isInside held worked in
private theorem insideAfter_worked {other : ConnectionId} (apart : thread ≠ session.thread)
    (serves : store.serving thread = some other) : insideAfter other world.trace = true := by
  have different : other ≠ connection := by
    rintro rfl
    exact apart (serving_inj regular.leased serves (serving_eq_some isInside held))
  rw [worked.insideAfter_other different]
  exact brackets.inside thread other serves

include regular brackets isInside held

private theorem stays_of_recorded
    (worked : Traced.Worked inner connection store.pool.world true world)
    (isOpen : store.isOpen = true) (writes : WriteSet) :
    Stays inner session.thread store
      (recordWrites session.thread writes (store.withWorld world)) := by
  have serving (other : ThreadId) :
      (recordWrites session.thread writes (store.withWorld world)).serving other
        = store.serving other :=
    serving_recordWrites session.thread other writes _
  have pool : (recordWrites session.thread writes (store.withWorld world)).pool
      = { store.pool with world := world } := pool_recordWrites _ _ _
  have stillOpen : (recordWrites session.thread writes (store.withWorld world)).isOpen = true :=
    (isOpen_recordWrites _ _ _).trans isOpen
  refine ⟨⟨?_, ?_, fun _ one leased => ?_, ?_⟩, serving, ?_⟩
  · rw [pool]
    exact brackets.pool.work regular.leased.numbered held worked
  · intro other one serves
    rw [serving] at serves
    rw [pool]
    by_cases own : other = session.thread
    · obtain rfl : connection = one := by
        rw [own, serving_eq_some isInside held] at serves
        exact Option.some.inj serves
      exact worked.stands.told
    · exact insideAfter_worked regular brackets isInside held worked own serves
  · simp only [serving]
    rw [pool] at leased
    exact brackets.served isOpen one leased
  · intro closed
    rw [stillOpen] at closed
    cases closed
  · intro one serves
    obtain rfl : connection = one := by
      rw [serving_eq_some isInside held] at serves
      exact Option.some.inj serves
    exact .of_worked worked pool

include traced tracks checks worked

private theorem quits_of_worked (wasOpen : store.isOpen = true) (isOpen : between.isOpen = true)
    (same : between.pool = { store.pool with world := world })
    (transactions : between.transactions = (store.dropTransaction session.thread).transactions) :
    Quits inner session.thread store (between.released session transaction.lease) := by
  have heldBetween : between.pool.leased.lookup transaction.lease = some connection := by
    rw [same]
    exact held
  have serving := serving_over regular.leased isInside same transactions
  have pool : between.pool.InBrackets inner := by
    rw [same]
    exact brackets.pool.work regular.leased.numbered held worked
  have aside := @Pool.aside_release _ inner _ _ _ heldBetween between.clock
  have released : (between.released session transaction.lease).pool
      = between.pool.release (Traced.database inner) between.clock transaction.lease := by
    rw [← traced]
    rfl
  refine ⟨⟨?_, ?_, fun _ one leased => ?_, ?_⟩, serving, connection,
    serving_eq_some isInside held, (Confined.of_worked worked same).trans (.released traced heldBetween)⟩
  · rw [released]
    refine pool.release tracks checks ?_ _ _
    rw [same]
    exact numbered_withWorld regular.leased.numbered world
  · intro other one serves
    rw [serving] at serves
    split at serves
    · cases serves
    rename_i apart
    rw [released, aside.insideAfter, same]
    exact insideAfter_worked regular brackets isInside held worked apart serves
  · -- The connection that has served the thread is leased no more.
    have taken : (between.released session transaction.lease).pool.leased
        = store.pool.leasedWithout transaction.lease := by
      refine (Pool.leased_of_releases heldBetween (Pool.releases _ _ _ _)).1.trans ?_
      rw [same]
      rfl
    rw [taken] at leased
    have still : one ∈ store.pool.leased.map Prod.snd :=
      (List.filter_sublist.map Prod.snd).subset leased
    obtain ⟨other, serves⟩ := brackets.served wasOpen one still
    refine ⟨other, ?_⟩
    rw [serving, if_neg, serves]
    rintro rfl
    rw [serving_eq_some isInside held] at serves
    obtain rfl := Option.some.inj serves
    exact regular.leased.numbered.taken held (List.mem_append_right _ leased)
  · intro closed
    rw [show (between.released session transaction.lease).isOpen = true from isOpen] at closed
    cases closed

end Inside

/-! ### Units and boundaries -/

section Ends

include traced tracks checks regular brackets

theorem stays_of_unit {α : Type} {fits : Mapping → Prop} {transactional : Bool}
    {gives : α × WriteSet → List Event → Prop} {result : α}
    (ends : UnitEnds session (Question.Issued fits transactional) transactional gives store
      (.ok result) after) :
    Stays inner session.thread store after := by
  cases ends with
  | recorded isOpen inside held asked _ =>
      rw [traced] at asked
      exact stays_of_recorded regular brackets inside held
        (Traced.worked_asked tracks (brackets.stands inside held) (fun _ => rfl) asked) isOpen _
  | @applied pool lease connection world _ writes isOpen outside acquired held bracketed =>
      rw [traced] at bracketed
      obtain ⟨_, worked⟩ := Traced.worked_bracketed tracks
        (stands_acquired traced tracks regular brackets acquired held) bracketed
      refine stays_of_visit traced tracks checks regular brackets acquired held worked isOpen ?_
        outside (pool_written _ _ _) (transactions_written _ _ _)
      exact (isOpen_written _ _ _).trans isOpen

/-- A unit that fails ends the transaction of its thread, if there is one. -/
theorem quits_of_unit {α : Type} {fits : Mapping → Prop} {transactional : Bool}
    {gives : α × WriteSet → List Event → Prop} {error : Error}
    (ends : UnitEnds session (Question.Issued fits transactional) transactional gives store
      (.error error) after) :
    Quits inner session.thread store after ∨
      (store.serving session.thread = none ∧ Stays inner session.thread store after) := by
  cases ends with
  | closed isClosed =>
      exact Or.inr ⟨brackets.outside_of_closed isClosed _, .refl brackets⟩
  | @aborted transaction _ worked world _ _ _ isOpen inside held asked rollsBack =>
      rw [traced] at asked rollsBack
      have asks := Traced.worked_asked tracks (brackets.stands inside held) (fun _ => rfl) asked
      have works := asks.trans (Traced.worked_rollback tracks asks.stands rollsBack)
      refine Or.inl (quits_of_worked traced tracks checks regular brackets inside held works isOpen ?_
        (pool_restoreInstances _ _) (transactions_restoreInstances _ _))
      exact (isOpen_restoreInstances _ _).trans isOpen
  | unconnected isOpen outside acquired =>
      exact Or.inr ⟨serving_eq_none outside,
        stays_of_unconnected traced tracks regular brackets isOpen outside acquired⟩
  | failed isOpen outside acquired held bracketed =>
      rw [traced] at bracketed
      obtain ⟨_, worked⟩ := Traced.worked_bracketed tracks
        (stands_acquired traced tracks regular brackets acquired held) bracketed
      exact Or.inr ⟨serving_eq_none outside, stays_of_visit traced tracks checks regular brackets
        acquired held worked isOpen isOpen outside rfl rfl⟩

/-- A transaction that could not be begun. -/
theorem stays_of_begin {error : Error} (ends : BeginEnds session store (.error error) after) :
    Stays inner session.thread store after := by
  cases ends with
  | closed _ => exact .refl brackets
  | alreadyOpen _ _ => exact .refl brackets
  | unconnected isOpen outside acquired =>
      exact stays_of_unconnected traced tracks regular brackets isOpen outside acquired
  | refused isOpen outside acquired held begins =>
      rw [traced] at begins
      have worked := Traced.worked_begin tracks
        (stands_acquired traced tracks regular brackets acquired held) begins
      exact stays_of_visit traced tracks checks regular brackets acquired held worked isOpen
        isOpen outside rfl rfl

omit checks in
theorem entered_of_begin (ends : BeginEnds session store (.ok ()) after) :
    store.serving session.thread = none ∧ after.InBrackets inner ∧ ∃ connection, ∀ other,
      after.serving other = if other = session.thread then some connection else store.serving other := by
  cases ends with
  | @begun pool lease connection world isOpen outside acquired held begins =>
      have begins' := begins
      rw [traced] at begins'
      have worked := Traced.worked_begin tracks
        (stands_acquired traced tracks regular brackets acquired held) begins'
      have serving (other : ThreadId) : (setTransaction session.thread { lease := lease }
          ({ store with pool := { pool with world := world } } : Store (Traced World))).serving other
            = if other = session.thread then some connection else store.serving other := by
        refine (@serving_setTransaction _ { store with pool := { pool with world := world } } _
          { lease := lease } held _ other).trans ?_
        rw [serving_acquire regular.leased acquired]
      refine ⟨serving_eq_none outside,
        ⟨inBrackets_acquired traced tracks regular brackets acquired held worked, ?_,
          fun _ one isLeased => ?_, ?_⟩, connection, serving⟩
      · intro other one serves
        rw [serving] at serves
        split at serves
        · cases serves
          exact worked.stands.told
        · exact insideAfter_acquired traced regular brackets acquired held worked serves
      · change one ∈ pool.leased.map Prod.snd at isLeased
        obtain ⟨_, acquiredOne, leased⟩ := Pool.leased_of_acquire acquired
        have numbered := regular.leased.numbered.acquire session.database
        rw [acquired] at numbered
        obtain rfl : acquiredOne = connection := by
          have isNew : (lease, acquiredOne) ∈ pool.leased := by
            rw [leased]
            exact List.mem_append_right _ List.mem_cons_self
          exact congrArg Prod.snd
            (List.inj_on_of_nodup_map numbered.leases isNew (mem_of_lookup held) rfl)
        rw [leased, List.map_append, List.mem_append] at isLeased
        rcases isLeased with isOld | isNew
        · obtain ⟨other, serves⟩ := brackets.served isOpen one isOld
          refine ⟨other, ?_⟩
          rw [serving, if_neg, serves]
          rintro rfl
          rw [serving_eq_none outside] at serves
          cases serves
        · refine ⟨session.thread, ?_⟩
          rw [serving, if_pos rfl, List.mem_singleton.mp isNew]
      · intro closed
        rw [show Store.isOpen _ = true from isOpen] at closed
        cases closed

theorem ended_of_commit {outcome : Except Error Unit} (ends : CommitEnds session store outcome after) :
    Quits inner session.thread store after ∨
      (store.serving session.thread = none ∧ Stays inner session.thread store after) := by
  cases ends with
  | closed isClosed =>
      exact Or.inr ⟨brackets.outside_of_closed isClosed _, .refl brackets⟩
  | notOpen _ outside => exact Or.inr ⟨serving_eq_none outside, .refl brackets⟩
  | @committed transaction _ world isOpen inside held commits =>
      rw [traced] at commits
      have works := Traced.worked_commit tracks (brackets.stands inside held) commits
      refine Or.inl (quits_of_worked traced tracks checks regular brackets inside held works isOpen ?_
        (pool_written _ _ _) (transactions_written _ _ _))
      exact (isOpen_written _ _ _).trans isOpen
  | @refused transaction _ refused world _ _ isOpen inside held commits rollsBack =>
      rw [traced] at commits rollsBack
      have refuses := Traced.worked_commit tracks (brackets.stands inside held) commits
      have works := refuses.trans (Traced.worked_rollback tracks refuses.stands rollsBack)
      refine Or.inl (quits_of_worked traced tracks checks regular brackets inside held works isOpen ?_
        (pool_rolledBack _ _ _) (transactions_rolledBack _ _ _))
      exact (isOpen_invalidateOwners _ _).trans
        ((isOpen_restoreInstances _ _).trans isOpen)

theorem ended_of_rollback {outcome : Except Error Unit}
    (ends : RollbackEnds session store outcome after) :
    Quits inner session.thread store after ∨
      (store.serving session.thread = none ∧ Stays inner session.thread store after) := by
  cases ends with
  | closed isClosed =>
      exact Or.inr ⟨brackets.outside_of_closed isClosed _, .refl brackets⟩
  | notOpen _ outside => exact Or.inr ⟨serving_eq_none outside, .refl brackets⟩
  | @rolledBack transaction _ world _ isOpen inside held rollsBack =>
      rw [traced] at rollsBack
      have works := Traced.worked_rollback tracks (brackets.stands inside held) rollsBack
      refine Or.inl (quits_of_worked traced tracks checks regular brackets inside held works isOpen ?_
        (pool_rolledBack _ _ _) (transactions_rolledBack _ _ _))
      exact (isOpen_invalidateOwners _ _).trans
        ((isOpen_restoreInstances _ _).trans isOpen)

end Ends

/-! ### Closing -/

include traced tracks checks in
private theorem inBrackets_of_abandoned {transactions : List Transaction}
    (abandoned : Abandoned session transactions store after) (numbered : store.pool.Numbered)
    (brackets : store.pool.InBrackets inner)
    (distinct : (transactions.map Transaction.lease).Nodup)
    (held : ∀ transaction ∈ transactions, ∃ connection,
      store.pool.leased.lookup transaction.lease = some connection ∧
        insideAfter connection store.pool.world.trace = true) :
    after.pool.InBrackets inner ∧ after.pool.Numbered := by
  -- The induction is on the transactions that are still to be abandoned, each of which has a
  -- connection of its own that is inside.
  induction abandoned with
  | nil store => exact ⟨brackets, numbered⟩
  | @cons transaction rest store after world reverts _ ih =>
      obtain ⟨connection, holds, inside⟩ := held transaction List.mem_cons_self
      obtain ⟨fresh, distinctRest⟩ := List.nodup_cons.mp distinct
      have worked : ∃ ended, Traced.Worked inner connection store.pool.world ended world := by
        cases reverts with
        | gone missing =>
            rw [holds] at missing
            cases missing
        | held holdsToo rollsBack =>
            obtain rfl := Option.some.inj (holds.symm.trans holdsToo)
            have stands := brackets.stands (Pool.mem_connections_of_held holds)
            rw [inside] at stands
            rw [traced] at rollsBack
            exact ⟨_, Traced.worked_rollback tracks stands rollsBack⟩
      obtain ⟨_, worked⟩ := worked
      have same := pool_restoreInstances transaction (store.withWorld world)
      have worldNumbered := numbered_withWorld numbered world
      have released : ((restoreInstances transaction (store.withWorld world)).released session
          transaction.lease).pool = ({ store.pool with world := world } : Pool _).release
            (Traced.database inner) (restoreInstances transaction (store.withWorld world)).clock
              transaction.lease := by
        rw [← traced]
        exact congrArg (fun pool => Pool.release session.database _ transaction.lease pool) same
      refine ih ?_ ?_ distinctRest fun other member => ?_
      · rw [released]
        exact worldNumbered.release _ _ _
      · rw [released]
        exact (brackets.work numbered holds worked).release tracks checks worldNumbered _ _
      · have different : other.lease ≠ transaction.lease :=
          fun same => fresh (List.mem_map.mpr ⟨other, member, same⟩)
        obtain ⟨one, holdsOther, insideOther⟩ := held other (List.mem_cons_of_mem _ member)
        have apart : one ≠ connection := by
          rintro rfl
          exact different (Pool.lease_eq_of_held numbered holdsOther holds)
        rw [released]
        have holdsWorked : ({ store.pool with world := world } : Pool _).leased.lookup
            transaction.lease = some connection := holds
        refine ⟨one, (Pool.lookup_release different _ _ _).trans holdsOther, ?_⟩
        rw [(Pool.aside_release holdsWorked _).insideAfter, worked.insideAfter_other apart]
        exact insideOther

include traced tracks checks regular brackets in
/-- Once the store is closed, no thread is served any more. -/
theorem closed_of_close (ends : CloseEnds session store after) :
    after.InBrackets inner ∧ ∀ other, after.serving other = none := by
  cases ends with
  | again isClosed => exact ⟨brackets, brackets.outside_of_closed isClosed⟩
  | @closed between isOpen abandoned =>
      have none : (between.shut session).transactions = [] := (regular.abandonsAll abandoned).2
      have serving (other : ThreadId) : (between.shut session).serving other = .none := by
        refine serving_eq_none ?_
        unfold transaction?
        rw [none]
        rfl
      obtain ⟨pool, numbered⟩ := inBrackets_of_abandoned traced tracks checks abandoned
        regular.leased.numbered brackets.pool (by rw [List.map_map]; exact regular.leased.distinct)
        (by
          intro transaction member
          obtain ⟨entry, entryMember, rfl⟩ := List.mem_map.mp member
          obtain ⟨connection, held⟩ := regular.leased.held _ (List.mem_map.mpr ⟨entry, entryMember, rfl⟩)
          obtain ⟨other, serves⟩ := brackets.served isOpen connection
            (List.mem_map.mpr ⟨_, mem_of_lookup held, rfl⟩)
          exact ⟨connection, held, brackets.inside other connection serves⟩)
      obtain ⟨shut, _⟩ := pool.shutdown tracks numbered
      rw [← traced] at shut
      have isClosed : (between.shut session).isOpen = false := isOpen_abandoned abandoned
      refine ⟨⟨shut, fun other one serves => ?_, fun stillOpen => ?_, fun _ => none⟩, serving⟩
      · rw [serving] at serves
        cases serves
      · rw [isClosed] at stillOpen
        cases stillOpen

end Laws

end Store
end EntityStore
