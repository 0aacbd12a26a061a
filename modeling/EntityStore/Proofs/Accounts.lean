/-
The accounts of a pool. Its users acquire and drop guards, call through them and run
maintenance in any order, on a database that answers as it likes. The counters then agree
with the connections that are there, and the trace of the database says of each connection
ever opened that it waits, is held under one lease, or was closed once. A pool that was
shut down has closed them all, and nothing that its users do changes it any more.
-/

import EntityStore.Proofs.Traces
import EntityStore.Scripted

set_option autoImplicit false

namespace EntityStore

/-- The connection that a call has opened. -/
def Exchange.opened? (exchange : Exchange) : Option ConnectionId :=
  match exchange.deed, exchange.answer with
  | .connect, .ok _ => some exchange.connection
  | _, _ => none

/-- The connection that a call closes; that the database may complain changes nothing. -/
def Exchange.closed? (exchange : Exchange) : Option ConnectionId :=
  match exchange.deed with
  | .close => some exchange.connection
  | _ => none

/-! ### What was opened and closed -/

namespace Traced

variable {World α : Type} {inner : Database World}

def opened (traced : Traced World) : List ConnectionId :=
  traced.trace.filterMap Exchange.opened?

def closed (traced : Traced World) : List ConnectionId :=
  traced.trace.filterMap Exchange.closed?

def SameBooks (traced after : Traced World) : Prop :=
  after.opened = traced.opened ∧ after.closed = traced.closed

private theorem sameBooks_of_trace {traced after : Traced World}
    (same : after.trace = traced.trace) : SameBooks traced after := by
  unfold SameBooks opened closed
  rw [same]
  exact ⟨rfl, rfl⟩

private theorem sameBooks_tracing {connection : ConnectionId} {deed : Deed} {rows : α → List Row}
    (opensNone : deed ≠ .connect) (closesNone : deed ≠ .close) (request : Call World α)
    (traced : Traced World) : SameBooks traced (tracing connection deed rows request traced).2 := by
  have opens : Exchange.opened? ⟨connection, deed, (request traced.world).1.map rows⟩ = none := by
    cases deed <;> first | rfl | exact absurd rfl opensNone
  have closes : Exchange.closed? ⟨connection, deed, (request traced.world).1.map rows⟩ = none := by
    cases deed <;> first | rfl | exact absurd rfl closesNone
  constructor
  · simp only [opened, tracing, List.filterMap_append, List.filterMap_cons, opens,
      List.filterMap_nil, List.append_nil]
  · simp only [closed, tracing, List.filterMap_append, List.filterMap_cons, closes,
      List.filterMap_nil, List.append_nil]

private theorem sameBooks_ask (connection : ConnectionId) (question : Question)
    (traced : Traced World) :
    SameBooks traced ((database inner).ask connection question traced).2 := by
  cases question <;>
    exact sameBooks_tracing (by rintro ⟨⟩) (by rintro ⟨⟩) _ traced

private theorem books_of_connect {connection : ConnectionId} {traced after : Traced World}
    (connects : (database inner).connect connection traced = (.ok (), after)) :
    after.opened = traced.opened ++ [connection] ∧ after.closed = traced.closed := by
  have grown := trace_of_tracing connects
  unfold opened closed
  rw [grown, List.filterMap_append, List.filterMap_append]
  exact ⟨rfl, List.append_nil _⟩

private theorem sameBooks_of_refused {connection : ConnectionId} {traced after : Traced World}
    {fault : DatabaseError}
    (refuses : (database inner).connect connection traced = (.error fault, after)) :
    SameBooks traced after := by
  have grown := trace_of_tracing refuses
  unfold SameBooks opened closed
  rw [grown, List.filterMap_append, List.filterMap_append]
  exact ⟨List.append_nil _, List.append_nil _⟩

private theorem books_close (connection : ConnectionId) (traced : Traced World) :
    ((database inner).close connection traced).2.opened = traced.opened ∧
      ((database inner).close connection traced).2.closed = traced.closed ++ [connection] := by
  constructor
  · exact List.filterMap_append.trans (List.append_nil _)
  · exact List.filterMap_append

private theorem books_closedWorld (connections : List ConnectionId) (traced : Traced World) :
    (Pool.closedWorld (database inner) connections traced).opened = traced.opened ∧
      (Pool.closedWorld (database inner) connections traced).closed
        = traced.closed ++ connections := by
  induction connections generalizing traced with
  | nil => exact ⟨rfl, (List.append_nil _).symm⟩
  | cons connection rest ih =>
      obtain ⟨openedFirst, closedFirst⟩ := @books_close _ inner connection traced
      obtain ⟨openedRest, closedRest⟩ := ih ((database inner).close connection traced).2
      constructor
      · exact openedRest.trans openedFirst
      · refine closedRest.trans ?_
        rw [closedFirst, List.append_assoc]
        rfl

end Traced

namespace Pool

/-! ### What is done with a pool -/

/-- What a user of a pool can do. To drop a guard gives its lease back. -/
inductive Action where
  | acquire
  | ask (lease : LeaseId) (question : Question)
  | begin (lease : LeaseId)
  | commit (lease : LeaseId)
  | rollback (lease : LeaseId)
  | check (lease : LeaseId)
  | drop (now : Nat) (lease : LeaseId)
  | maintain (now : Nat)
  | shutdown

variable {World : Type}

def act (database : Database World) (pool : Pool World) : Action → Pool World
  | .acquire => (pool.acquire database).2
  | .ask lease question =>
      (pool.callLease lease fun connection => database.ask connection question).2
  | .begin lease => (pool.callLease lease database.begin).2
  | .commit lease => (pool.callLease lease database.commit).2
  | .rollback lease => (pool.callLease lease database.rollback).2
  | .check lease => (pool.isValid database lease).2
  | .drop now lease => pool.release database now lease
  | .maintain now => pool.maintain database now
  | .shutdown => pool.shutdown database

def acts (database : Database World) : Pool World → List Action → Pool World
  | pool, [] => pool
  | pool, action :: later => acts database (pool.act database action) later

/-- What an action takes from a counter is there: as much is open, and as much is in
use. -/
def Covers (pool : Pool World) : Action → Prop
  | .drop _ lease => (pool.leased.lookup lease).isSome → 1 ≤ pool.inUse ∧ 1 ≤ pool.openCount
  | .maintain now => (pool.expired now).length ≤ pool.openCount
  | .shutdown => pool.isClosed = false → pool.leased.length ≤ pool.inUse ∧
      pool.idle.length ≤ pool.openCount ∧
      pool.leased.length ≤ pool.openCount - pool.idle.length
  | _ => True

structure Balanced (limit : Nat) (pool : Pool (Traced World)) : Prop where
  limited : pool.config.maxSize = limit
  numbered : pool.Numbered
  inUse : pool.inUse = pool.leased.length
  openCount : pool.openCount = pool.idle.length + pool.leased.length
  bounded : pool.openCount ≤ limit
  totalCreated : pool.totalCreated = pool.totalClosed + pool.openCount
  opened : pool.world.opened = List.range pool.totalCreated
  accounted : (pool.connections ++ pool.world.closed).Perm pool.world.opened
  final : pool.isClosed = true → pool.idle = [] ∧ pool.leased = []

variable {inner : Database World} {limit : Nat} {pool after : Pool (Traced World)}

theorem Balanced.withWorld (balanced : pool.Balanced limit) {world : Traced World}
    (same : Traced.SameBooks pool.world world) :
    ({ pool with world := world } : Pool (Traced World)).Balanced limit where
  limited := balanced.limited
  numbered := ⟨balanced.numbered.leases, balanced.numbered.handedOut,
    balanced.numbered.connections, balanced.numbered.created⟩
  inUse := balanced.inUse
  openCount := balanced.openCount
  bounded := balanced.bounded
  totalCreated := balanced.totalCreated
  opened := same.1.trans balanced.opened
  accounted := by
    show (pool.connections ++ world.closed).Perm world.opened
    rw [same.1, same.2]
    exact balanced.accounted
  final := balanced.final

theorem Balanced.covers (balanced : pool.Balanced limit) (action : Action) : pool.Covers action := by
  have inUse := balanced.inUse
  have openCount := balanced.openCount
  cases action with
  | drop now lease =>
      intro held
      obtain ⟨connection, found⟩ := Option.isSome_iff_exists.mp held
      have inhabited := (perm_leasedWithout balanced.numbered.leases found).length_eq
      rw [List.length_cons] at inhabited
      omega
  | maintain now =>
      show (pool.expired now).length ≤ pool.openCount
      unfold expired
      rw [List.length_map, List.length_take]
      omega
  | shutdown =>
      intro _
      omega
  | _ => trivial

/-! ### Each action keeps the accounts -/

theorem Balanced.acquire (balanced : pool.Balanced limit) :
    (pool.acquire (Traced.database inner)).2.Balanced limit := by
  have numbered := balanced.numbered.acquire (Traced.database inner)
  have ends := acquires (Traced.database inner) pool
  generalize pool.acquire (Traced.database inner) = acquired at numbered ends
  obtain ⟨outcome, after⟩ := acquired
  obtain ⟨limited, _, inUse, openCount, bounded, totalCreated, opened, accounted, final⟩ := balanced
  cases ends with
  | closed _ => exact ⟨limited, numbered, inUse, openCount, bounded, totalCreated, opened, accounted, final⟩
  | exhausted _ _ _ =>
      exact ⟨limited, numbered, inUse, openCount, bounded, totalCreated, opened, accounted, final⟩
  | refused refuses =>
      have same := Traced.sameBooks_of_refused refuses
      exact Balanced.withWorld
        ⟨limited, ‹_›, inUse, openCount, bounded, totalCreated, opened, accounted, final⟩ same
  | @reused connection releasedAt rest isOpen split =>
      refine ⟨limited, numbered, ?_, ?_, bounded, totalCreated, opened, ?_, ?_⟩
      · simp only [List.length_append, List.length_singleton]
        omega
      · rw [split] at openCount
        simp only [List.length_append, List.length_singleton] at openCount ⊢
        omega
      · refine List.Perm.trans (List.Perm.append_right _ ?_) accounted
        unfold connections
        simp only [split, List.map_append, List.map_cons, List.map_nil, List.append_assoc]
        exact List.Perm.append_left _ List.perm_append_comm
      · intro closed
        rw [isOpen] at closed
        cases closed
  | opened isOpen empty room connects =>
      obtain ⟨openedThen, closedThen⟩ := Traced.books_of_connect connects
      refine ⟨limited, numbered, ?_, ?_, ?_, ?_, ?_, ?_, ?_⟩
      · simp only [List.length_append, List.length_singleton]
        omega
      · simp only [List.length_append, List.length_singleton]
        omega
      · rw [limited] at room
        exact room
      · simp only
        omega
      · simp only [openedThen, opened, List.range_succ]
      · simp only [openedThen, closedThen]
        refine List.Perm.trans ?_ (List.Perm.append_right _ accounted)
        unfold connections
        simp only [List.map_append, List.map_cons, List.map_nil, List.append_assoc]
        exact List.Perm.append_left _ (List.Perm.append_left _ List.perm_append_comm)
      · intro closed
        rw [isOpen] at closed
        cases closed

theorem Balanced.discard (balanced : pool.Balanced limit) {lease : LeaseId}
    {connection : ConnectionId} {checked : Traced World} (held : pool.leased.lookup lease = some connection)
    (same : Traced.SameBooks pool.world checked) :
    ({ pool with
      world := ((Traced.database inner).close connection checked).2
      leased := pool.leasedWithout lease
      inUse := pool.inUse - 1
      openCount := pool.openCount - 1
      totalClosed := pool.totalClosed + 1 } : Pool (Traced World)).Balanced limit ∧
      1 ≤ pool.openCount := by
  obtain ⟨openedThen, closedThen⟩ := @Traced.books_close _ inner connection checked
  have moved := perm_leasedWithout balanced.numbered.leases held
  have counted := moved.length_eq
  have movedConnections := moved.map Prod.snd
  rw [List.length_cons] at counted
  obtain ⟨limited, numbered, inUse, openCount, bounded, totalCreated, opened, accounted, final⟩ := balanced
  change pool.leased.length = (pool.leasedWithout lease).length + 1 at counted
  refine ⟨⟨limited, ?_, ?_, ?_, ?_, ?_, ?_, ?_, ?_⟩, ?_⟩
  · exact numbered.fewer List.filter_sublist rfl
      (List.Sublist.append_left (List.filter_sublist.map Prod.snd) _).subperm rfl
  · simp only
    omega
  · simp only
    omega
  · simp only
    omega
  · simp only
    omega
  · exact openedThen.trans (same.1.trans opened)
  · simp only [openedThen, closedThen, same.1, same.2]
    refine List.Perm.trans ?_ accounted
    rw [List.perm_iff_count]
    intro other
    have found := movedConnections.count_eq other
    simp only [connections, List.count_append, List.map_cons, List.count_cons, List.count_nil,
      leasedWithout] at found ⊢
    omega
  · intro closed
    obtain ⟨empty, none⟩ := final closed
    rw [none] at held
    cases held
  · omega

theorem Balanced.oneMore (balanced : pool.Balanced limit) {now : Nat} {world : Traced World}
    (isOpen : pool.isClosed = false) (room : pool.openCount < limit)
    (connects : (Traced.database inner).connect pool.totalCreated pool.world = (.ok (), world)) :
    ({ pool with
      world := world
      totalCreated := pool.totalCreated + 1
      openCount := pool.openCount + 1
      idle := pool.idle ++ [⟨pool.totalCreated, now⟩] } : Pool (Traced World)).Balanced limit := by
  obtain ⟨openedThen, closedThen⟩ := Traced.books_of_connect connects
  obtain ⟨limited, numbered, inUse, openCount, bounded, totalCreated, opened, accounted, final⟩ := balanced
  refine ⟨limited, numbered.oneMore rfl rfl rfl rfl, inUse, ?_, room, ?_, ?_, ?_, ?_⟩
  · simp only [List.length_append, List.length_singleton]
    omega
  · simp only
    omega
  · simp only [openedThen, opened, List.range_succ]
  · simp only [openedThen, closedThen]
    refine List.Perm.trans ?_ (List.Perm.append_right _ accounted)
    unfold connections
    simp only [List.map_append, List.map_cons, List.map_nil, List.append_assoc]
    refine List.Perm.append_left _ ?_
    rw [← List.append_assoc (pool.leased.map Prod.snd)]
    exact List.perm_append_comm
  · intro closed
    rw [isOpen] at closed
    cases closed

theorem Balanced.replenish (balanced : pool.Balanced limit) {now : Nat}
    (room : pool.openCount < limit)
    (ends : Replenishes (Traced.database inner) now pool after) : after.Balanced limit := by
  cases ends with
  | kept => exact balanced
  | refused refuses => exact balanced.withWorld (Traced.sameBooks_of_refused refuses)
  | opened isOpen connects => exact balanced.oneMore isOpen room connects

theorem Balanced.release (balanced : pool.Balanced limit) (now : Nat) (lease : LeaseId) :
    (pool.release (Traced.database inner) now lease).Balanced limit := by
  have numbered := balanced.numbered.release (Traced.database inner) now lease
  have ends := releases (Traced.database inner) now lease pool
  generalize pool.release (Traced.database inner) now lease = after at numbered ends
  cases ends with
  | unknown _ => exact balanced
  | @returned connection world held isOpen valid =>
      have moved := perm_leasedWithout balanced.numbered.leases held
      have counted := moved.length_eq
      rw [List.length_cons] at counted
      have same := Traced.sameBooks_of_trace (Traced.trace_of_isValid valid)
      obtain ⟨limited, _, inUse, openCount, bounded, totalCreated, opened, accounted, final⟩ := balanced
      refine ⟨limited, numbered, ?_, ?_, bounded, totalCreated, same.1.trans opened, ?_, ?_⟩
      · simp only [leasedWithout]
        omega
      · simp only [List.length_append, List.length_singleton, leasedWithout]
        omega
      · simp only [same.1, same.2]
        refine List.Perm.trans (List.Perm.append_right _ ?_) accounted
        unfold connections
        simp only [List.map_append, List.map_cons, List.map_nil, List.append_assoc]
        exact List.Perm.append_left _ (moved.map Prod.snd).symm
      · intro closed
        rw [isOpen] at closed
        cases closed
  | @discarded connection checked _ held unfit made =>
      have same : Traced.SameBooks pool.world checked := by
        rcases unfit with ⟨_, rfl⟩ | ⟨_, checks⟩
        · exact ⟨rfl, rfl⟩
        · exact Traced.sameBooks_of_trace (Traced.trace_of_isValid checks)
      obtain ⟨discarded, one⟩ := @Balanced.discard _ inner _ _ balanced _ _ _ held same
      refine discarded.replenish ?_ made
      have bounded := balanced.bounded
      show pool.openCount - 1 < limit
      omega

theorem Balanced.maintain (balanced : pool.Balanced limit) (now : Nat) :
    (pool.maintain (Traced.database inner) now).Balanced limit := by
  have numbered := balanced.numbered.maintain (Traced.database inner) now
  rw [maintain_eq] at numbered ⊢
  obtain ⟨openedThen, closedThen⟩ :=
    @Traced.books_closedWorld _ inner (pool.expired now) pool.world
  have split := List.take_append_drop (pool.expiredCount now) pool.idle
  have counted := congrArg List.length split
  rw [List.length_append] at counted
  obtain ⟨limited, _, inUse, openCount, bounded, totalCreated, opened, accounted, final⟩ := balanced
  refine ⟨limited, numbered, inUse, ?_, ?_, ?_, openedThen.trans opened, ?_, ?_⟩
  · simp only
    omega
  · simp only
    omega
  · simp only
    omega
  · simp only [openedThen, closedThen]
    refine List.Perm.trans ?_ accounted
    rw [List.perm_iff_count]
    intro other
    have found := congrArg (fun idle => (idle.map IdleConnection.connection).count other) split
    simp only [List.map_append, List.count_append] at found
    simp only [connections, expired, List.count_append]
    omega
  · intro closed
    obtain ⟨empty, none⟩ := final closed
    simp only [empty, List.drop_nil, true_and]
    exact none

theorem Balanced.shutdown (balanced : pool.Balanced limit) :
    (pool.shutdown (Traced.database inner)).Balanced limit := by
  have numbered := balanced.numbered.shutdown (Traced.database inner)
  cases closed : pool.isClosed with
  | true =>
      unfold Pool.shutdown
      simp only [closed, ↓reduceIte]
      exact balanced
  | false =>
      rw [shutdown_eq _ closed] at numbered ⊢
      obtain ⟨openedThen, closedThen⟩ :=
        @Traced.books_closedWorld _ inner pool.connections pool.world
      obtain ⟨limited, _, inUse, openCount, bounded, totalCreated, opened, accounted, final⟩ := balanced
      refine ⟨limited, numbered, ?_, ?_, ?_, ?_, openedThen.trans opened, ?_, fun _ => ⟨rfl, rfl⟩⟩
      · simp only [List.length_nil]
        omega
      · simp only [List.length_nil]
        omega
      · simp only
        omega
      · simp only
        omega
      · simp only [openedThen, closedThen]
        show (pool.world.closed ++ pool.connections).Perm pool.world.opened
        exact List.perm_append_comm.trans accounted

theorem Balanced.callLease {α : Type} (balanced : pool.Balanced limit) (lease : LeaseId)
    {request : ConnectionId → Call (Traced World) α}
    (same : ∀ connection, Traced.SameBooks pool.world (request connection pool.world).2) :
    (pool.callLease lease request).2.Balanced limit := by
  unfold Pool.callLease
  cases pool.leased.lookup lease with
  | none => exact balanced
  | some connection => exact balanced.withWorld (same connection)

theorem Balanced.check (balanced : pool.Balanced limit) (lease : LeaseId) :
    (pool.isValid (Traced.database inner) lease).2.Balanced limit := by
  unfold Pool.isValid
  cases pool.leased.lookup lease with
  | none => exact balanced
  | some connection => exact balanced.withWorld (Traced.sameBooks_of_trace rfl)

theorem Balanced.act (balanced : pool.Balanced limit) (action : Action) :
    (pool.act (Traced.database inner) action).Balanced limit := by
  cases action with
  | acquire => exact balanced.acquire
  | ask lease question =>
      exact balanced.callLease lease fun connection => Traced.sameBooks_ask connection question _
  | begin lease =>
      exact balanced.callLease lease fun connection =>
        Traced.sameBooks_tracing (by rintro ⟨⟩) (by rintro ⟨⟩) _ _
  | commit lease =>
      exact balanced.callLease lease fun connection =>
        Traced.sameBooks_tracing (by rintro ⟨⟩) (by rintro ⟨⟩) _ _
  | rollback lease =>
      exact balanced.callLease lease fun connection =>
        Traced.sameBooks_tracing (by rintro ⟨⟩) (by rintro ⟨⟩) _ _
  | check lease => exact balanced.check lease
  | drop now lease => exact balanced.release now lease
  | maintain now => exact balanced.maintain now
  | shutdown => exact balanced.shutdown

theorem Balanced.acts (balanced : pool.Balanced limit) (actions : List Action) :
    (pool.acts (Traced.database inner) actions).Balanced limit := by
  induction actions generalizing pool with
  | nil => exact balanced
  | cons action later ih => exact ih (balanced.act action)

/-! ### Creation -/

theorem Balanced.addIdles {now count : Nat} (balanced : pool.Balanced limit)
    (isOpen : pool.isClosed = false) (room : pool.openCount + count ≤ limit)
    (added : Pool.addIdles (Traced.database inner) now count pool = (.ok (), after)) :
    after.Balanced limit := by
  induction count generalizing pool with
  | zero =>
      cases added
      exact balanced
  | succ count ih =>
      unfold Pool.addIdles at added
      split at added
      · cases added
      rename_i between first
      obtain ⟨world, connects, same⟩ := addIdle_ok first
      have grown : between.Balanced limit := by
        rw [same]
        exact balanced.oneMore isOpen (by omega) connects
      refine ih grown ?_ ?_ added
      · rw [same]
        exact isOpen
      · rw [same]
        simp only
        omega

theorem balanced_create {config : PoolConfig} {now : Nat} {world : World}
    (created : create (Traced.database inner) config now { world := world } = (.ok (), pool)) :
    pool.Balanced (max config.maxSize 1) := by
  have empty : Balanced (max config.maxSize 1)
      ({ config := config.normalized, world := { world := world } } : Pool (Traced World)) := by
    refine ⟨rfl, ⟨List.nodup_nil, ?_, List.nodup_nil, ?_⟩, rfl, rfl, Nat.zero_le _, rfl, rfl,
      List.Perm.refl _, fun _ => ⟨rfl, rfl⟩⟩
    · intro entry member
      cases member
    · intro connection member
      cases member
  have least : config.normalized.minSize ≤ max config.maxSize 1 := Nat.min_le_right _ _
  unfold create at created
  simp only at created
  split at created
  · cases created
  rename_i after added
  cases created
  exact empty.addIdles rfl (by simpa using least) added

/-! ### Every run -/

/-- What the counters of a pool say is so: of the connections that were opened, each once,
each one waits, is held under one lease, or was closed, and is in no two of these places. -/
structure InOrder (database : Database (Traced World)) (limit : Nat)
    (pool : Pool (Traced World)) : Prop where
  openCount : pool.openCount = pool.idle.length + pool.inUse
  totalCreated : pool.totalCreated = pool.totalClosed + pool.openCount
  bounded : pool.openCount ≤ limit
  covers : ∀ action, pool.Covers action
  opened : pool.world.opened.Nodup ∧ pool.world.opened.length = pool.totalCreated
  closed : pool.world.closed.length = pool.totalClosed
  held : (pool.leased.map Prod.fst).Nodup ∧ pool.leased.length = pool.inUse
  places : (pool.idle.map IdleConnection.connection ++ pool.leased.map Prod.snd
    ++ pool.world.closed).Perm pool.world.opened
  failing : ∀ error after, pool.acquire database = (.error error, after) →
    after.openCount = pool.openCount ∧ after.idle = pool.idle ∧ after.inUse = pool.inUse

private theorem unchanged_of_refused {database : Database World} {pool after : Pool World}
    {error : Error} (refused : pool.acquire database = (.error error, after)) :
    after.openCount = pool.openCount ∧ after.idle = pool.idle ∧ after.inUse = pool.inUse := by
  have ends := acquires database pool
  rw [refused] at ends
  cases ends <;> exact ⟨rfl, rfl, rfl⟩

theorem Balanced.inOrder (balanced : pool.Balanced limit) :
    InOrder (Traced.database inner) limit pool := by
  have openCount := balanced.openCount
  have inUse := balanced.inUse
  have totalCreated := balanced.totalCreated
  have distinct : pool.world.opened.Nodup := by
    rw [balanced.opened]
    exact List.nodup_range
  have created : pool.world.opened.length = pool.totalCreated := by
    rw [balanced.opened, List.length_range]
  have places := balanced.accounted.length_eq
  simp only [connections, List.length_append, List.length_map] at places
  refine ⟨by omega, totalCreated, balanced.bounded, balanced.covers, ⟨distinct, created⟩,
    by omega, ⟨balanced.numbered.leases, inUse.symm⟩, balanced.accounted, ?_⟩
  intro error after refused
  exact unchanged_of_refused refused

/-- Whatever is done with a pool, and whatever the database answers, its accounts are in
order. -/
theorem accounts_in_order {config : PoolConfig} {now : Nat} {world : World}
    (created : create (Traced.database inner) config now { world := world } = (.ok (), pool))
    (actions : List Action) :
    InOrder (Traced.database inner) (max config.maxSize 1)
      (pool.acts (Traced.database inner) actions) :=
  ((balanced_create created).acts actions).inOrder

/-- A connection that is found unfit is closed, and another one takes its place, though
the first attempt to open it fails; then the pool is exhausted. -/
theorem accounts_in_order_replaced :
    let database := Traced.database (Scripted.database "")
    let world : Scripted.World := { script := {
      connect := [.usual, .failing .closed], isValid := [.given false] } }
    let config : PoolConfig := { maxSize := 0 }
    let pool := (create database config 0 { world := world }).2
    let actions := [.acquire, .drop 0 0, .acquire, .acquire]
    create database config 0 { world := world } = (.ok (), pool) ∧
      (pool.acts database actions).counters = ⟨1, 0, 1, 2, 1⟩ ∧
      InOrder database (max config.maxSize 1) (pool.acts database actions) := by
  refine ⟨?created, by decide +kernel, accounts_in_order ?created _⟩
  rfl

/-! ### After a shutdown -/

/-- A pool that is closed for good: everything that was opened has been closed, once, and
whatever its users try reaches no connection and changes nothing. -/
structure Final (database : Database (Traced World)) (pool : Pool (Traced World)) : Prop where
  counters : pool.openCount = 0 ∧ pool.idle = [] ∧ pool.inUse = 0
  opened : pool.world.opened.Nodup
  closed : pool.world.closed.Perm pool.world.opened
  acquires : pool.acquire database = (.error .poolClosed, pool)
  calls : ∀ {α : Type} (lease : LeaseId) (request : ConnectionId → Call (Traced World) α),
    pool.callLease lease request = (.error .closed, pool)
  checks : ∀ lease, pool.isValid database lease = (false, pool)
  outside : ∀ lease, pool.inTransaction database lease = false
  keeps : ∀ action, pool.act database action = pool

private theorem isClosed_shutdown (database : Database World) (pool : Pool World) :
    (pool.shutdown database).isClosed = true := by
  cases closed : pool.isClosed with
  | true =>
      unfold Pool.shutdown
      simp only [closed, ↓reduceIte]
  | false => rw [shutdown_eq database closed]

theorem Balanced.ended (balanced : pool.Balanced limit) (closed : pool.isClosed = true) :
    Final (Traced.database inner) pool := by
  obtain ⟨empty, none⟩ := balanced.final closed
  have openCount := balanced.openCount
  have inUse := balanced.inUse
  have accounted := balanced.accounted
  rw [empty, none] at openCount
  rw [none] at inUse
  simp only [connections, empty, none, List.map_nil, List.nil_append] at accounted
  have calls : ∀ {α : Type} (lease : LeaseId) (request : ConnectionId → Call (Traced World) α),
      pool.callLease lease request = (.error .closed, pool) := by
    intro α lease request
    unfold Pool.callLease
    rw [none]
    rfl
  have checks (lease : LeaseId) : pool.isValid (Traced.database inner) lease = (false, pool) := by
    unfold Pool.isValid
    rw [none]
    rfl
  have acquires : pool.acquire (Traced.database inner) = (.error .poolClosed, pool) := by
    unfold Pool.acquire
    rw [if_pos closed]
  have inOrder : InOrder (Traced.database inner) limit pool := balanced.inOrder
  refine ⟨⟨openCount, empty, inUse⟩, inOrder.opened.1, accounted, acquires, calls, checks, ?_, ?_⟩
  · intro lease
    unfold Pool.inTransaction
    rw [none]
    rfl
  · intro action
    cases action with
    | acquire => exact congrArg Prod.snd acquires
    | ask lease question => exact congrArg Prod.snd (calls lease _)
    | begin lease => exact congrArg Prod.snd (calls lease _)
    | commit lease => exact congrArg Prod.snd (calls lease _)
    | rollback lease => exact congrArg Prod.snd (calls lease _)
    | check lease => exact congrArg Prod.snd (checks lease)
    | drop now lease =>
        show pool.release (Traced.database inner) now lease = pool
        unfold Pool.release takeLeased?
        rw [none]
        rfl
    | maintain now =>
        show pool.maintain (Traced.database inner) now = pool
        have nothing : pool.expired now = [] := by
          unfold expired
          rw [empty, List.take_nil, List.map_nil]
        rw [maintain_eq, nothing, empty, List.take_nil, List.drop_nil, List.length_nil,
          Nat.sub_zero, Nat.add_zero, ← empty]
        rfl
    | shutdown =>
        show pool.shutdown (Traced.database inner) = pool
        unfold Pool.shutdown
        rw [if_pos closed]

theorem Final.acts {database : Database (Traced World)} (final : Final database pool)
    (actions : List Action) : pool.acts database actions = pool := by
  induction actions with
  | nil => rfl
  | cons action later ih =>
      show (pool.act database action).acts database later = pool
      rw [final.keeps action]
      exact ih

/-- Shutting down is final: whatever was done before it and is still held, everything is
closed, and whatever is done later comes to nothing. -/
theorem shutdown_final {config : PoolConfig} {now : Nat} {world : World}
    (created : create (Traced.database inner) config now { world := world } = (.ok (), pool))
    (earlier later : List Action) :
    let shut := (pool.acts (Traced.database inner) earlier).shutdown (Traced.database inner)
    Final (Traced.database inner) shut ∧ shut.acts (Traced.database inner) later = shut := by
  intro shut
  have balanced : shut.Balanced (max config.maxSize 1) :=
    ((balanced_create created).acts earlier).shutdown
  have final : Final (Traced.database inner) shut := balanced.ended (isClosed_shutdown _ _)
  exact ⟨final, final.acts later⟩

/-- Two guards are still held, one of which is dropped and the other one used after the
shutdown. -/
theorem shutdown_final_held :
    let database := Traced.database (Scripted.database "")
    let pool := (create database {} 0 { world := {} }).2
    let earlier := [.acquire, .acquire]
    let later := [.drop 0 0, .begin 1, .maintain 0, .shutdown]
    let shut := (pool.acts database earlier).shutdown database
    create database {} 0 { world := {} } = (.ok (), pool) ∧
      (pool.acts database earlier).counters = ⟨2, 0, 2, 2, 0⟩ ∧
      shut.world.closed = [0, 1] ∧ Final database shut ∧ shut.acts database later = shut := by
  refine ⟨?created, by decide +kernel, by decide +kernel, shutdown_final ?created _ _⟩
  rfl

end Pool
end EntityStore
